import PaintBench.Catalog.Step
import PaintBench.Page.Dom

/-!
# Running hooks

The steps of a hook run one after the other, and the first failure ends the hook. Texts
captured on the way are kept for later steps of the same iteration; they survive a
failure.
-/

namespace PaintBench

/-- Texts by the name under which they were captured, the latest first. -/
abbrev Captured := List (String × String)

/-- The text captured last under a name. -/
def Captured.get (captured : Captured) (name : String) : Option String :=
  captured.lookup name

/-- Runs that may fail and that keep captured texts. -/
abbrev Hook (σ : Type) := ExceptT RunError (StateT Captured (Run σ))

namespace Hook

variable {σ α : Type}

/-- An attempt as a part of a hook. -/
def ofAttempt (act : Attempt σ α) : Hook σ α := ExceptT.mk fun captured => do
  let result ← act.run
  return (result, captured)

/-- Remember a text under a name. -/
def capture (name text : String) : Hook σ Unit := ExceptT.mk fun captured =>
  return (.ok (), (name, text) :: captured)

/-- The text captured last under a name, which has to be there. -/
def captured (name : String) : Hook σ String := ExceptT.mk fun captured =>
  match Captured.get captured name with
  | some text => return (.ok text, captured)
  | none => return (.error (.notFound ("captured text '" ++ name ++ "'")), captured)

end Hook

namespace Dom

variable {σ : Type}

/-- The limit of a wait. -/
def limitOf (d : Dom) (own : Option Duration) : Duration :=
  own.getD d.timeout

/-- Carry out a step. -/
def execute (d : Dom) : Step → Hook σ Unit
  | .waitForId id limit => .ofAttempt (d.waitForId id (d.limitOf limit))
  | .waitForPath path limit => .ofAttempt (d.waitForPath path (d.limitOf limit))
  | .waitForPathAbsent path limit => .ofAttempt (d.waitForPathAbsent path (d.limitOf limit))
  | .waitForText path text limit => .ofAttempt (d.waitForText path text (d.limitOf limit))
  | .waitForTextAbsent path text limit =>
    .ofAttempt (d.waitForTextAbsent path text (d.limitOf limit))
  | .waitForClass path name limit => .ofAttempt (d.waitForClass path name (d.limitOf limit))
  | .clickId id => .ofAttempt (d.click (.withId id))
  | .clickPath path => .ofAttempt (d.click (.atPath path))
  | .captureText path name => do
    let text ← Hook.ofAttempt (d.readText path)
    Hook.capture name text
  | .waitForCapturedText path name limit => do
    let text ← Hook.captured name
    Hook.ofAttempt (d.waitForText path text (d.limitOf limit))

/-- Carry out the steps of a hook. -/
def runHook (d : Dom) : List Step → Hook σ Unit
  | [] => return ()
  | step :: rest => do
    d.execute step
    d.runHook rest

end Dom

end PaintBench
