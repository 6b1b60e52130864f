import PaintBench.Page.ElementPath

/-!
# Steps

A hook of a benchmark is a list of steps: waits, clicks and captured texts. A wait
without a limit of its own takes the timeout of the run. The JSON form of a step is an
object that names its kind in the member `type`.
-/

namespace PaintBench

/-- One interaction or wait of a hook. -/
inductive Step where
  | waitForId (id : String) (limit : Option Duration)
  | waitForPath (path : ElementPath) (limit : Option Duration)
  | waitForPathAbsent (path : ElementPath) (limit : Option Duration)
  | waitForText (path : ElementPath) (text : String) (limit : Option Duration)
  | waitForTextAbsent (path : ElementPath) (text : String) (limit : Option Duration)
  | waitForClass (path : ElementPath) (name : String) (limit : Option Duration)
  | clickId (id : String)
  | clickPath (path : ElementPath)
  /-- remember the text of an element under a name -/
  | captureText (path : ElementPath) (name : String)
  /-- wait for the text remembered under a name -/
  | waitForCapturedText (path : ElementPath) (name : String) (limit : Option Duration)
deriving DecidableEq

namespace Step

/-- Read the fields of the step kind of the given name. -/
def decodeAs (kind : String) (j : Json) : Option Step :=
  let record (fields : List String) := Json.Record.of? fields j
  let path (r : Json.Record) := r.required "path" ElementPath.decode
  let text (r : Json.Record) (name : String) := r.required name Json.Decode.text
  let limit (r : Json.Record) := r.optionalOrMissing "timeout" Duration.decode
  match kind with
  | "wait_for_id" => do
    let r ← record ["id", "timeout"]
    some (.waitForId (← text r "id") (← limit r))
  | "wait_for_path" => do
    let r ← record ["path", "timeout"]
    some (.waitForPath (← path r) (← limit r))
  | "wait_for_path_absent" => do
    let r ← record ["path", "timeout"]
    some (.waitForPathAbsent (← path r) (← limit r))
  | "wait_for_text" => do
    let r ← record ["path", "text", "timeout"]
    some (.waitForText (← path r) (← text r "text") (← limit r))
  | "wait_for_text_absent" => do
    let r ← record ["path", "text", "timeout"]
    some (.waitForTextAbsent (← path r) (← text r "text") (← limit r))
  | "wait_for_class" => do
    let r ← record ["path", "class", "timeout"]
    some (.waitForClass (← path r) (← text r "class") (← limit r))
  | "click_id" => do
    let r ← record ["id"]
    some (.clickId (← text r "id"))
  | "click_path" => do
    let r ← record ["path"]
    some (.clickPath (← path r))
  | "capture_text" => do
    let r ← record ["path", "name"]
    some (.captureText (← path r) (← text r "name"))
  | "wait_for_captured_text" => do
    let r ← record ["path", "name", "timeout"]
    some (.waitForCapturedText (← path r) (← text r "name") (← limit r))
  | _ => none

/-- Read a step: an object with its kind in `type`, or a list of the kind and the
fields. -/
def decodeTagged : Json → Option Step
  | .obj members => do
    let r ← Json.Record.ofObject? ["type"] (.obj members)
    let kind ← r.required "type" Json.Decode.text
    decodeAs kind (.obj members)
  | .arr (.str kind :: values) => decodeAs kind (.arr values)
  | _ => none

/-- Read a step, every part of which counts. -/
def decode : Json → Option Step :=
  Json.Decode.entire decodeTagged

/-- Write a step. -/
def encode (step : Step) : Json :=
  let kind (name : String) := ("type", Json.str name)
  let path (p : ElementPath) := ("path", p.encode)
  let timeout (limit : Option Duration) := ("timeout", Json.ofOption Duration.encode limit)
  match step with
  | waitForId id limit => .obj [kind "wait_for_id", ("id", .str id), timeout limit]
  | waitForPath p limit => .obj [kind "wait_for_path", path p, timeout limit]
  | waitForPathAbsent p limit => .obj [kind "wait_for_path_absent", path p, timeout limit]
  | waitForText p text limit =>
    .obj [kind "wait_for_text", path p, ("text", .str text), timeout limit]
  | waitForTextAbsent p text limit =>
    .obj [kind "wait_for_text_absent", path p, ("text", .str text), timeout limit]
  | waitForClass p name limit =>
    .obj [kind "wait_for_class", path p, ("class", .str name), timeout limit]
  | clickId id => .obj [kind "click_id", ("id", .str id)]
  | clickPath p => .obj [kind "click_path", path p]
  | captureText p name => .obj [kind "capture_text", path p, ("name", .str name)]
  | waitForCapturedText p name limit =>
    .obj [kind "wait_for_captured_text", path p, ("name", .str name), timeout limit]

end Step

end PaintBench
