import PaintBench.Json.Parser
import PaintBench.Json.Printer
import PaintBench.RunOptions
import PaintBench.Text.Search

/-!
# Messages between a batch and its workers

A worker is asked to run one benchmark for one implementation, and answers with a
`WorkerResponse`. When the worker is another process, the request is one line of its
input and the response the last line of its output; `WorkerRequest.receive` and
`WorkerResponse.ofOutput?` read them.
-/

namespace PaintBench

/-- One attempt at one benchmark. -/
structure WorkerRequest where
  implementation : Implementation
  benchmarkId : String
  options : RunOptions
deriving DecidableEq, Repr

/-- How an attempt ended. -/
inductive WorkerResponse where
  /-- the worker could not run at all -/
  | failure (message : String)
  /-- the run took place, and may have met an error -/
  | completed (error : Option String) (warnings : List String)
deriving DecidableEq, Repr

namespace WorkerRequest

/-- The fields in their order. -/
def fields : List String := ["framework", "benchmark_id", "options"]

/-- Read a request. -/
def decode (j : Json) : Option WorkerRequest := do
  let r ← Json.Record.of? fields j
  let implementation ← r.required "framework" Implementation.decode
  let benchmarkId ← r.required "benchmark_id" Json.Decode.text
  let options ← r.required "options" RunOptions.decode
  some { implementation, benchmarkId, options }

/-- Write a request. -/
def encode (q : WorkerRequest) : Json :=
  .obj [
    ("framework", q.implementation.encode),
    ("benchmark_id", .str q.benchmarkId),
    ("options", q.options.encode)]

/-- The line that carries a request. -/
def line (q : WorkerRequest) : List Char :=
  q.encode.write ++ ['\n']

/-- What a worker finds on its input. -/
inductive Received where
  /-- no request: the input is over, or its first line is blank -/
  | nothing
  | request (q : WorkerRequest)
  | unreadable

/-- Read the first line of an input, and leave the rest. -/
def receive (input : List Char) : Received × List Char :=
  let (line, rest) := Text.takeLine input
  let text := Text.trim line
  if text.isEmpty then (.nothing, rest)
  else
    match (Json.parseChars? text).bind decode with
    | some q => (.request q, rest)
    | none => (.unreadable, rest)

end WorkerRequest

namespace WorkerResponse

/-- A run without an error. -/
def success (warnings : List String) : WorkerResponse :=
  completed none warnings

/-- Read a failure. -/
def decodeFailure (j : Json) : Option WorkerResponse := do
  let r ← Json.Record.ofObject? ["failure"] j
  let message ← r.required "failure" Json.Decode.text
  some (failure message)

/-- Read the outcome of a run. -/
def decodeCompleted (j : Json) : Option WorkerResponse := do
  let r ← Json.Record.ofObject? ["error", "warnings"] j
  let error ← r.optional "error" Json.Decode.text
  let warnings ← r.required "warnings" (Json.Decode.list Json.Decode.text)
  some (completed error warnings)

/-- Read a response, every part of which counts. -/
def decode : Json → Option WorkerResponse :=
  Json.Decode.entire fun j => (decodeFailure j).or (decodeCompleted j)

/-- Write a response. -/
def encode : WorkerResponse → Json
  | failure message => .obj [("failure", .str message)]
  | completed error warnings =>
    .obj [("error", .ofOption .str error), ("warnings", .ofStrings warnings)]

/-- The line that carries a response. -/
def line (r : WorkerResponse) : List Char :=
  r.encode.write ++ ['\n']

/-- The last line of an output that is not blank. -/
def lastLine? (output : List Char) : Option (List Char) :=
  (Text.lines output).reverse.find? (!Text.isBlankText ·)

/-- The response on the last line of an output; `none` for an output of blank lines, and
an inner `none` for a line that is no response. -/
def ofOutput? (output : List Char) : Option (Option WorkerResponse) :=
  (lastLine? output).map fun line => (Json.parseChars? line).bind decode

end WorkerResponse

end PaintBench
