import PaintBench.Main
import PaintBench.Proofs.Batch.ExitOnError
import PaintBench.Proofs.Batch.Outcomes
import PaintBench.Proofs.Trace.PhaseProtocol
import PaintBench.Proofs.Worker.Transport
import PaintBench.Simulation.Children
import PaintBench.Simulation.Scenario
import PaintBench.Proofs.Page.Uses
import PaintBench.Proofs.Worker.Plan
import PaintBench.Proofs.Worker.Uses
import PaintBench.Proofs.Worker.Sessions
import PaintBench.Proofs.Worker.Course
import PaintBench.Proofs.Worker.PhaseOrder
import PaintBench.Proofs.Results.Disk
import PaintBench.Proofs.Results.Persist
import PaintBench.Proofs.Worker.Files
import PaintBench.Proofs.Results.FileNames
import PaintBench.Proofs.Quantity.Binary64
import PaintBench.Proofs.Quantity.Exact
import PaintBench.Proofs.Trace.Durations
import PaintBench.Proofs.Trace.Chronology
import PaintBench.Proofs.Worker.HeapReading
import PaintBench.Proofs.Worker.Requests
import PaintBench.Proofs.Trace.Collecting
import PaintBench.Proofs.Trace.Windows
import PaintBench.Proofs.Results.Kinds
import PaintBench.Proofs.Page.PathGrammar
import PaintBench.Proofs.Worker.ResponseShape
import PaintBench.Proofs.Session.Polling
import PaintBench.Proofs.Session.Proceeds
import PaintBench.Proofs.Page.Lookup
import PaintBench.Proofs.Page.Interaction
import PaintBench.Proofs.Page.Absence
import PaintBench.Proofs.Catalog.Selection
import PaintBench.Proofs.Stats.Description
import PaintBench.Proofs.Stats.Units
import PaintBench.Proofs.Catalog.Custom
import PaintBench.Proofs.Catalog.Forms
import PaintBench.Proofs.Worker.Captures
import PaintBench.Proofs.Json.Extended
import PaintBench.Proofs.Trace.Records
import PaintBench.Proofs.Catalog.Shapes
import PaintBench.Proofs.Results.Figures
import PaintBench.Proofs.Results.Places
import PaintBench.Proofs.Worker.Complete
import PaintBench.Proofs.Worker.Startup
import PaintBench.Proofs.Catalog.Filters
import PaintBench.Proofs.Page.Selector
import PaintBench.Proofs.Worker.Defaults
