import PaintBench.Json.Parser
import PaintBench.Process.Command
import PaintBench.RunError
import PaintBench.Text.Search
import PaintBench.Text.Utf8

/-!
# The audit tool

Pages are audited by a program that loads a page in a browser of its own and prints a
report as JSON.
-/

namespace PaintBench.AuditTool

/-- The flags for the browser of the audit. -/
def browserFlags (o : RunOptions) : List String :=
  ["--headless", "--no-sandbox", "--no-first-run", "--enable-automation",
    "--disable-infobars", "--disable-background-networking",
    "--disable-background-timer-throttling", "--disable-cache", "--disable-translate",
    "--disable-sync", "--disable-extensions", "--disable-default-apps",
    "--window-size=1200,800", s!"--remote-debugging-port={o.remoteDebuggingPort.toNat}"]

/-- The arguments for the audit of a page. -/
def args (url : String) (o : RunOptions) : List String :=
  [url, "--output=json", "--output-path=stdout", "--quiet",
    "--only-categories=performance", s!"--port={o.remoteDebuggingPort.toNat}",
    "--chrome-flags=" ++ " ".intercalate (browserFlags o)]

/-- The command for the audit of a page. -/
def command (program url : String) (o : RunOptions) : Command where
  program
  args := args url o
  chromePath := o.chromeBinary
  input := []

/-- The report in an output. -/
def report (output : List UInt8) : Except RunError Json :=
  match ((Text.Utf8.decode? output).bind Json.parseChars?).bind Json.freeForm? with
  | some j => .ok j
  | none => .error (.audit "unreadable report")

/-- The result of an audit. -/
def result (program url : String) (o : RunOptions) : ChildOutcome → Except RunError Json
  | .notStarted reason => .error (.audit ("failed to run " ++ program ++ ": " ++ reason))
  | .timedOut => .error (.timeout ("audit of " ++ url) o.timeout)
  | .finished status output errors =>
    if status.isSuccess then report output
    else
      let reason := String.ofList (Text.trim (Text.Utf8.decodeLossy errors))
      .error (.audit (program ++ " exited with " ++ status.message ++ ": " ++ reason))

/-- Audit a page. -/
def run {σ : Type} (host : Host σ) (program url : String) (o : RunOptions) (s : σ) :
    Except RunError Json × σ :=
  let (child, s) := host.start (command program url o) o.timeout s
  (result program url o child.outcome, s)

end PaintBench.AuditTool
