import PaintBench.Page.Hook
import PaintBench.Proofs.Session.Uses

/-!
# What hooks make use of

Everything that looks at a page or acts on it does so by calls on the page of its own
session (`Dom.uses_runHook`). In particular no hook announces a phase, takes records of
the log or closes its session.
-/

namespace PaintBench

variable {σ α β : Type} {u : Usage}

/-! ## Attempts and hooks -/

/-- An attempt makes use of nothing else. -/
def Attempt.Uses (u : Usage) (act : Attempt σ α) : Prop :=
  Run.Uses u act.run

namespace Attempt.Uses

theorem pure (a : α) : Attempt.Uses u (Pure.pure a : Attempt σ α) :=
  Run.Uses.pure _

theorem bind {act : Attempt σ α} {next : α → Attempt σ β} (h : Attempt.Uses u act)
    (hnext : ∀ a, Attempt.Uses u (next a)) : Attempt.Uses u (act >>= next) :=
  Run.Uses.bind h fun
    | .ok a => hnext a
    | .error _ => .pure _

theorem fail (e : RunError) : Attempt.Uses u (Attempt.fail e : Attempt σ α) :=
  Run.Uses.pure _

theorem ofExcept (result : Except RunError α) :
    Attempt.Uses u (Attempt.ofExcept result : Attempt σ α) :=
  Run.Uses.pure _

theorem lift {run : Run σ α} (h : Run.Uses u run) :
    Attempt.Uses u (ExceptT.lift run : Attempt σ α) :=
  Run.Uses.bind h fun _ => .pure _

theorem discard {act : Attempt σ α} (h : Attempt.Uses u act) :
    Attempt.Uses u (Functor.discard act) :=
  Run.Uses.bind h fun
    | .ok _ => .pure _
    | .error _ => .pure _

theorem call {session : SessionId} {c : Call} (h : u.heeds (.call session c)) :
    Attempt.Uses u (Attempt.call session c : Attempt σ c.Reply) :=
  Run.Uses.bind (.ask h) fun _ => .pure _

theorem retry {act : Attempt σ α} (h : Attempt.Uses u act) :
    ∀ retries, Attempt.Uses u (Dom.retry act retries)
  | 0 => h
  | retries + 1 => Run.Uses.bind h fun
    | .ok _ => .pure _
    | .error _ => h.retry retries

end Attempt.Uses

/-- A hook makes use of nothing else, whatever was captured before. -/
def Hook.Uses (u : Usage) (hook : Hook σ α) : Prop :=
  ∀ captured, Run.Uses u (hook.run.run captured)

namespace Hook.Uses

theorem pure (a : α) : Hook.Uses u (Pure.pure a : Hook σ α) :=
  fun _ => Run.Uses.pure _

theorem bind {hook : Hook σ α} {next : α → Hook σ β} (h : Hook.Uses u hook)
    (hnext : ∀ a, Hook.Uses u (next a)) : Hook.Uses u (hook >>= next) :=
  fun captured => Run.Uses.bind (h captured) fun
    | (.ok a, captured) => hnext a captured
    | (.error _, _) => .pure _

theorem ofAttempt {act : Attempt σ α} (h : Attempt.Uses u act) :
    Hook.Uses u (Hook.ofAttempt act) :=
  fun _ => Run.Uses.bind h fun _ => .pure _

theorem capture (name text : String) : Hook.Uses u (Hook.capture name text : Hook σ Unit) :=
  fun _ => Run.Uses.pure _

theorem captured (name : String) : Hook.Uses u (Hook.captured name : Hook σ String) := by
  intro captured
  simp only [Hook.captured, ExceptT.run_mk, StateT.run]
  cases Captured.get captured name <;> exact .pure _

end Hook.Uses

/-! ## Polling -/

namespace Run

theorem uses_pollBudget (interval limit : Nat) :
    Uses u (pollBudget interval limit : Run σ Nat) := by
  rw [pollBudget]
  split
  · exact .patience
  · exact .pure _

theorem uses_pause (interval pauses : Nat) : Uses u (pause interval pauses : Run σ Nat) := by
  rw [pause]
  split
  · exact .bind (.sleep interval) fun _ => .pure _
  · split
    · exact .bind .endTurn fun _ => .pure _
    · exact .pure _

theorem uses_pollUntil (interval : Nat) {condition : Attempt σ Bool}
    (h : Attempt.Uses u condition) :
    ∀ polls pauses, Uses u (pollUntil interval condition pauses polls)
  | 0, _ => by
    rw [pollUntil]
    exact .hang
  | polls + 1, pauses => by
    rw [pollUntil]
    refine .bind .clock fun start => .bind h fun held => ?_
    split
    · exact .pure _
    · exact .bind .clock fun finish => .bind (uses_pause _ _) fun pauses =>
        uses_pollUntil interval h polls pauses

end Run

theorem Attempt.uses_waitUntil (interval : Duration) (description : String) (limit : Duration)
    {condition : Attempt σ Bool} (h : Attempt.Uses u condition) :
    Attempt.Uses u (Attempt.waitUntil interval description limit condition) := by
  refine Run.Uses.bind (Run.uses_pollBudget interval.ticks limit.ticks) fun polls =>
    Run.Uses.bind (.within limit.ticks ?_) ?_
  · exact Run.uses_pollUntil interval.ticks h polls _
  · intro held
    split <;> exact .pure _

/-! ## Pages -/

/-- Whether a call looks at the page or acts on it. -/
def Call.isDom : Call → Bool
  | documentBody | shadowRoot _ | query .. | click _ | text _ | attributeOf .. => true
  | navigate _ | mark _ | collectGarbage | setThrottling _ | usedHeap | drain | close => false

/-- Nothing but calls on the page of a session. -/
def Usage.page (session : SessionId) : Usage :=
  .only fun r => ∃ c, c.isDom ∧ r = .call session c

namespace Dom

variable (d : Dom)

theorem uses_call {c : Call} (h : c.isDom) :
    Attempt.Uses (.page d.session) (Attempt.call d.session c : Attempt σ c.Reply) :=
  .call ⟨c, h, rfl⟩

theorem uses_present (what : String) (node : Option Node) :
    Attempt.Uses u (present what node : Attempt σ Node) := by
  cases node with
  | none => exact .fail _
  | some node => exact .pure node

theorem uses_root : Attempt.Uses (.page d.session) (d.root : Attempt σ Node) := by
  rw [root]
  split <;> exact .bind (d.uses_call rfl) fun node => uses_present d.rootName node

theorem uses_locate (node : Node) (segments : List Segment) :
    Run.Uses (.page d.session) (d.locate node segments : Run σ (Option Node)) := by
  induction segments generalizing node with
  | nil => exact .pure _
  | cons segment rest ih =>
    refine .bind (.ask ⟨_, rfl, rfl⟩) fun answer => ?_
    split
    · exact ih _
    · exact .pure _

theorem uses_find (path : ElementPath) :
    Attempt.Uses (.page d.session) (d.find path : Attempt σ (Option Node)) :=
  .bind d.uses_root fun root => .lift (d.uses_locate root path.segments)

theorem uses_findById (id : String) :
    Attempt.Uses (.page d.session) (d.findById id : Attempt σ (Option Node)) :=
  .bind d.uses_root fun _ => d.uses_call rfl

theorem uses_textAt (path : ElementPath) :
    Attempt.Uses (.page d.session) (d.textAt path : Attempt σ (Option String)) := by
  refine .bind (d.uses_find path) fun node => ?_
  split
  · exact .pure _
  · exact .bind (d.uses_call rfl) fun text => .pure _

theorem uses_waitUntil (description : String) (limit : Duration) {condition : Attempt σ Bool}
    (h : Attempt.Uses (.page d.session) condition) :
    Attempt.Uses (.page d.session) (d.waitUntil description limit condition) :=
  Attempt.uses_waitUntil d.pollInterval description limit h

theorem uses_waitForTextWith (description : String) (path : ElementPath) (limit : Duration)
    (passes : String → Bool) : Attempt.Uses (.page d.session)
      (d.waitForTextWith description path limit passes : Attempt σ Unit) := by
  refine d.uses_waitUntil _ _ (.bind (d.uses_textAt path) fun content => ?_)
  split <;> exact .pure _

theorem uses_findTarget (target : Target) :
    Attempt.Uses (.page d.session) (d.findTarget target : Attempt σ (Option Node)) := by
  cases target with
  | withId id => exact d.uses_findById id
  | atPath path => exact d.uses_find path

theorem uses_click (target : Target) :
    Attempt.Uses (.page d.session) (d.click target : Attempt σ Unit) := by
  have hnode (node : Option Node) : Attempt.Uses (.page d.session) (do
      let node ← present target.name node
      Attempt.call d.session (.click node) : Attempt σ Unit) :=
    .bind (uses_present target.name node) fun _ => d.uses_call rfl
  exact .retry (.bind (d.uses_findTarget target) hnode) _

theorem uses_readText (path : ElementPath) :
    Attempt.Uses (.page d.session) (d.readText path : Attempt σ String) := by
  refine .retry (.bind (d.uses_textAt path) fun text => ?_) _
  split
  · exact .pure _
  · exact .fail _

/-! ## Steps -/

theorem uses_execute (step : Step) :
    Hook.Uses (.page d.session) (d.execute step : Hook σ Unit) := by
  cases step with
  | waitForId id limit =>
    exact .ofAttempt (d.uses_waitUntil _ _ (.bind (d.uses_findById id) fun _ => .pure _))
  | waitForPath path limit | waitForPathAbsent path limit =>
    exact .ofAttempt (d.uses_waitUntil _ _ (.bind (d.uses_find path) fun _ => .pure _))
  | waitForText path text limit | waitForTextAbsent path text limit =>
    exact .ofAttempt (d.uses_waitForTextWith _ _ _ _)
  | waitForClass path name limit =>
    refine .ofAttempt (d.uses_waitUntil _ _ (.bind (d.uses_find path) fun node => ?_))
    split
    · exact .pure _
    · exact .bind (d.uses_call rfl) fun _ => .pure _
  | clickId id => exact .ofAttempt (d.uses_click _)
  | clickPath path => exact .ofAttempt (d.uses_click _)
  | captureText path name =>
    exact .bind (.ofAttempt (d.uses_readText path)) fun text => .capture name text
  | waitForCapturedText path name limit =>
    exact .bind (.captured name) fun text => .ofAttempt (d.uses_waitForTextWith _ _ _ _)

/-- A hook does nothing but look at the page of its session and act on it. -/
theorem uses_runHook (steps : List Step) :
    Hook.Uses (.page d.session) (d.runHook steps : Hook σ Unit) := by
  induction steps with
  | nil => exact .pure _
  | cons step rest ih => exact .bind (d.uses_execute step) fun _ => ih

end Dom

end PaintBench
