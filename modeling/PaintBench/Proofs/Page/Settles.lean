import PaintBench.Proofs.Page.Uses
import PaintBench.Proofs.Session.Settles

/-!
# Hooks return

Looking at a page and acting on it takes a bounded number of requests. A wait has a limit, and
so it ends as well; only how long it polls without a pause depends on the patience of the run
(`Attempt.settles_waitUntil`). So every hook returns (`Dom.settles_runHook`).
-/

namespace PaintBench

variable {σ α β : Type} {w : World σ} {deadline : Option Nat}

/-! ## Attempts and hooks -/

/-- An attempt ends, and alike for every patience. -/
def Attempt.Ends (w : World σ) (deadline : Option Nat) (act : Attempt σ α) : Prop :=
  Run.Ends w deadline act.run

namespace Attempt.Ends

theorem pure (a : α) : Attempt.Ends w deadline (Pure.pure a : Attempt σ α) :=
  Run.Ends.pure _

theorem fail (e : RunError) : Attempt.Ends w deadline (Attempt.fail e : Attempt σ α) :=
  Run.Ends.pure _

theorem bind {act : Attempt σ α} {next : α → Attempt σ β} (h : Attempt.Ends w deadline act)
    (hnext : ∀ a, Attempt.Ends w deadline (next a)) : Attempt.Ends w deadline (act >>= next) :=
  Run.Ends.bind h fun
    | .ok a => hnext a
    | .error _ => .pure _

theorem lift {run : Run σ α} (h : Run.Ends w deadline run) :
    Attempt.Ends w deadline (ExceptT.lift run : Attempt σ α) :=
  Run.Ends.bind h fun _ => .pure _

theorem discard {act : Attempt σ α} (h : Attempt.Ends w deadline act) :
    Attempt.Ends w deadline (Functor.discard act) :=
  Run.Ends.bind h fun
    | .ok _ => .pure _
    | .error _ => .pure _

theorem call (hw : w.Answers) (session : SessionId) (c : Call) :
    Attempt.Ends w deadline (Attempt.call session c : Attempt σ c.Reply) :=
  Run.Ends.bind (.ask hw _) fun _ => .pure _

theorem retry {act : Attempt σ α} (h : Attempt.Ends w deadline act) :
    ∀ retries, Attempt.Ends w deadline (Dom.retry act retries)
  | 0 => h
  | retries + 1 => Run.Ends.bind h fun
    | .ok _ => .pure _
    | .error _ => h.retry retries

end Attempt.Ends

/-- An attempt returns with enough patience. -/
def Attempt.Settles (w : World σ) (act : Attempt σ α) : Prop :=
  Run.Settles w (fun result => ∃ e, result = .error e) act.run

namespace Attempt.Settles

theorem bind {act : Attempt σ α} {next : α → Attempt σ β} (h : Attempt.Settles w act)
    (hnext : ∀ a, act.run.Yields w (.ok a) → Attempt.Settles w (next a)) :
    Attempt.Settles w (act >>= next) := by
  refine Run.Settles.bind h (fun result hyields => ?_) ?_
  · cases result with
    | ok a => exact hnext a hyields
    | error e => exact .pure _
  · rintro _ ⟨e, rfl⟩ patience s
    exact ⟨_, s, rfl, e, rfl⟩

theorem ofExcept (result : Except RunError α) :
    Attempt.Settles w (Attempt.ofExcept result : Attempt σ α) :=
  Run.Settles.pure _

end Attempt.Settles

/-- A hook returns with enough patience, whatever was captured before. -/
def Hook.Settles (w : World σ) (hook : Hook σ α) : Prop :=
  ∀ captured, Run.Settles w (fun result => ∃ e, result.1 = .error e) (hook.run.run captured)

namespace Hook.Settles

theorem pure (a : α) : Hook.Settles w (Pure.pure a : Hook σ α) :=
  fun _ => Run.Settles.pure _

theorem bind {hook : Hook σ α} {next : α → Hook σ β} (h : Hook.Settles w hook)
    (hnext : ∀ a, Hook.Settles w (next a)) : Hook.Settles w (hook >>= next) := by
  intro captured
  refine Run.Settles.bind (h captured) (fun result _ => ?_) ?_
  · rcases result with ⟨e | a, captured⟩
    · exact .pure _
    · exact hnext a captured
  · rintro ⟨_, captured⟩ ⟨e, rfl⟩ patience s
    exact ⟨_, s, rfl, e, rfl⟩

theorem ofAttempt {act : Attempt σ α} (h : Attempt.Settles w act) :
    Hook.Settles w (Hook.ofAttempt act) := by
  intro captured
  refine Run.Settles.bind h (fun result _ => .pure _) ?_
  rintro _ ⟨e, rfl⟩ patience s
  exact ⟨_, s, rfl, e, rfl⟩

theorem capture (name text : String) : Hook.Settles w (Hook.capture name text : Hook σ Unit) :=
  fun _ => Run.Settles.pure _

theorem captured (name : String) : Hook.Settles w (Hook.captured name : Hook σ String) := by
  intro captured
  simp only [Hook.captured, ExceptT.run_mk, StateT.run]
  cases Captured.get captured name <;> exact .pure _

end Hook.Settles

/-! ## Polling -/

namespace Run

variable {interval : Nat} {condition : Attempt σ Bool} {time : Nat}

theorem Ends.pause (pauses : Nat) : Ends w deadline (Run.pause interval pauses : Run σ Nat) := by
  rw [Run.pause]
  split
  · exact .bind (.sleep interval) fun _ => .pure _
  · split
    · exact .bind .endTurn fun _ => .pure _
    · exact .pure _

/-- Before a deadline, polls come to an end. -/
theorem Ends.pollUntil (h : Attempt.Ends w (some time) condition) :
    ∀ polls pauses, Ends w (some time) (Run.pollUntil interval condition pauses polls)
  | 0, _ => by
    rw [Run.pollUntil]
    exact .hang
  | polls + 1, pauses => by
    rw [Run.pollUntil]
    refine .bind .clock fun start => .bind h fun held => ?_
    split
    · exact .pure _
    · exact .bind .clock fun finish => .bind (.pause _) fun pauses =>
        Ends.pollUntil h polls pauses

/-- A condition that was found to hold is found by more polls as well. -/
theorem pollUntil_add {terms : Terms σ} {s s' : Situation σ} {pauses polls : Nat}
    (h : pollUntil interval condition pauses polls terms s = (.ok (), s')) (more : Nat) :
    pollUntil interval condition pauses (polls + more) terms s = (.ok (), s') := by
  induction polls generalizing pauses s with
  | zero =>
    obtain ⟨halt, now, hhang⟩ := hang_apply (α := Unit) terms s
    rw [pollUntil, hhang] at h
    cases h
  | succ polls ih =>
    rw [Nat.add_right_comm, pollUntil]
    rw [pollUntil] at h
    obtain ⟨start, mid, hclock, h⟩ := bind_eq_ok_iff.mp h
    obtain ⟨held, mid', hcondition, h⟩ := bind_eq_ok_iff.mp h
    refine bind_eq_ok_iff.mpr ⟨start, mid, hclock, bind_eq_ok_iff.mpr
      ⟨held, mid', hcondition, ?_⟩⟩
    split at h
    · exact h
    · obtain ⟨finish, mid'', hclock', h⟩ := bind_eq_ok_iff.mp h
      obtain ⟨pauses', mid''', hpause, h⟩ := bind_eq_ok_iff.mp h
      exact bind_eq_ok_iff.mpr ⟨finish, mid'', hclock', bind_eq_ok_iff.mpr
        ⟨pauses', mid''', hpause, ih h⟩⟩

/-- Polls within a limit come to an end. If there is no pause between them, a condition that
comes to hold is found with enough patience, and any other one is given up for every patience. -/
theorem settles_polling (limit : Nat) (h : ∀ time, Attempt.Ends w (some time) condition) :
    Settles w (· = none) (pollBudget interval limit >>= fun polls =>
      within limit (pollUntil interval condition pausesPerTurn polls)) := by
  have hends (polls time : Nat) :
      Ends w (some time) (pollUntil interval condition pausesPerTurn polls) :=
    .pollUntil (h time) polls _
  have hwithin (patience : Nat) (s : Situation σ) {result : Except Halt Unit}
      {s' : Situation σ} (hpoll : pollUntil interval condition pausesPerTurn patience
        ⟨w, some (s.now + limit), patience⟩ s = (result, s')) :
      (Run.patience >>= fun polls =>
        within limit (pollUntil interval condition pausesPerTurn polls)) ⟨w, none, patience⟩ s =
      (endWithin ⟨w, none, patience⟩ (s.now + limit) result, s') := by
    rw [bind_apply]
    exact within_of_run hpoll
  by_cases hinterval : interval = 0
  · rw [pollBudget, if_pos hinterval]
    intro s
    by_cases hfound : ∃ polls s', pollUntil interval condition pausesPerTurn polls
        ⟨w, some (s.now + limit), 0⟩ s = (.ok (), s')
    · obtain ⟨enough, s', hfound⟩ := hfound
      refine ⟨enough, Or.inl ⟨some (), s', fun patience hpatience => ?_⟩⟩
      obtain ⟨more, rfl⟩ := Nat.exists_eq_add_of_le hpatience
      obtain ⟨result, s'', hresult, -⟩ := hends (enough + more) (s.now + limit) s
      have hheld := hresult (enough + more)
      rw [← hresult 0, pollUntil_add hfound more] at hheld
      exact hwithin (enough + more) s hheld
    · refine ⟨0, Or.inr fun patience _ => ?_⟩
      obtain ⟨halt | ⟨⟩, s', hresult, hended⟩ := hends patience (s.now + limit) s
      · obtain ⟨rfl, -⟩ := hended
        exact ⟨none, s', hwithin patience s (hresult patience), rfl⟩
      · exact absurd ⟨patience, s', hresult 0⟩ hfound
  · rw [pollBudget, if_neg hinterval]
    exact (Ends.bind (.pure _) fun polls => .within limit (hends polls)).settles

end Run

/-- A wait returns. -/
theorem Attempt.settles_waitUntil (interval : Duration) (description : String) (limit : Duration)
    {condition : Attempt σ Bool} (h : ∀ time, Attempt.Ends w (some time) condition) :
    Attempt.Settles w (Attempt.waitUntil interval description limit condition) := by
  change Run.Settles w _ (Run.pollBudget interval.ticks limit.ticks >>= fun polls =>
    Run.within limit.ticks
      (Run.pollUntil interval.ticks condition Run.pausesPerTurn polls) >>= _)
  rw [← bind_assoc]
  refine Run.Settles.bind (Run.settles_polling limit.ticks h) (fun held _ => ?_) ?_
  · cases held <;> exact .pure _
  · rintro _ rfl patience s
    exact ⟨_, s, rfl, _, rfl⟩

/-! ## Pages -/

namespace Dom

variable (d : Dom)

theorem ends_present (what : String) (node : Option Node) :
    Attempt.Ends w deadline (present what node : Attempt σ Node) := by
  cases node with
  | none => exact .fail _
  | some node => exact .pure node

section

variable (hw : w.Answers)
include hw

theorem ends_root : Attempt.Ends w deadline (d.root : Attempt σ Node) := by
  rw [root]
  split <;> exact .bind (.call hw _ _) fun node => ends_present d.rootName node

theorem ends_locate (node : Node) (segments : List Segment) :
    Run.Ends w deadline (d.locate node segments : Run σ (Option Node)) := by
  induction segments generalizing node with
  | nil => exact .pure _
  | cons segment rest ih =>
    refine .bind (.ask hw _) fun answer => ?_
    split
    · exact ih _
    · exact .pure _

theorem ends_find (path : ElementPath) :
    Attempt.Ends w deadline (d.find path : Attempt σ (Option Node)) :=
  .bind (d.ends_root hw) fun root => .lift (d.ends_locate hw root path.segments)

theorem ends_findById (id : String) :
    Attempt.Ends w deadline (d.findById id : Attempt σ (Option Node)) :=
  .bind (d.ends_root hw) fun _ => .call hw _ _

theorem ends_textAt (path : ElementPath) :
    Attempt.Ends w deadline (d.textAt path : Attempt σ (Option String)) := by
  refine .bind (d.ends_find hw path) fun node => ?_
  split
  · exact .pure _
  · exact .bind (.call hw _ _) fun text => .pure _

theorem ends_findTarget (target : Target) :
    Attempt.Ends w deadline (d.findTarget target : Attempt σ (Option Node)) := by
  cases target with
  | withId id => exact d.ends_findById hw id
  | atPath path => exact d.ends_find hw path

theorem ends_click (target : Target) :
    Attempt.Ends w deadline (d.click target : Attempt σ Unit) := by
  have hnode (node : Option Node) : Attempt.Ends w deadline (do
      let node ← present target.name node
      Attempt.call d.session (.click node) : Attempt σ Unit) :=
    .bind (ends_present target.name node) fun _ => .call hw _ _
  exact .retry (.bind (d.ends_findTarget hw target) hnode) _

theorem ends_readText (path : ElementPath) :
    Attempt.Ends w deadline (d.readText path : Attempt σ String) := by
  refine .retry (.bind (d.ends_textAt hw path) fun text => ?_) _
  split
  · exact .pure _
  · exact .fail _

theorem settles_waitForTextWith (description : String) (path : ElementPath) (limit : Duration)
    (passes : String → Bool) :
    Attempt.Settles w (d.waitForTextWith description path limit passes : Attempt σ Unit) := by
  refine Attempt.settles_waitUntil _ _ _ fun _ => .bind (d.ends_textAt hw path) fun content => ?_
  split <;> exact .pure _

/-! ## Steps -/

theorem settles_execute (step : Step) : Hook.Settles w (d.execute step : Hook σ Unit) := by
  cases step with
  | waitForId id limit =>
    exact .ofAttempt (Attempt.settles_waitUntil _ _ _ fun _ =>
      .bind (d.ends_findById hw id) fun _ => .pure _)
  | waitForPath path limit | waitForPathAbsent path limit =>
    exact .ofAttempt (Attempt.settles_waitUntil _ _ _ fun _ =>
      .bind (d.ends_find hw path) fun _ => .pure _)
  | waitForText path text limit | waitForTextAbsent path text limit =>
    exact .ofAttempt (d.settles_waitForTextWith hw _ _ _ _)
  | waitForClass path name limit =>
    refine .ofAttempt (Attempt.settles_waitUntil _ _ _ fun _ =>
      .bind (d.ends_find hw path) fun node => ?_)
    split
    · exact .pure _
    · exact .bind (.call hw _ _) fun _ => .pure _
  | clickId id => exact .ofAttempt (d.ends_click hw _).settles
  | clickPath path => exact .ofAttempt (d.ends_click hw _).settles
  | captureText path name =>
    exact .bind (.ofAttempt (d.ends_readText hw path).settles) fun text => .capture name text
  | waitForCapturedText path name limit =>
    exact .bind (.captured name) fun text => .ofAttempt (d.settles_waitForTextWith hw _ _ _ _)

/-- A hook returns. -/
theorem settles_runHook (steps : List Step) :
    Hook.Settles w (d.runHook steps : Hook σ Unit) := by
  induction steps with
  | nil => exact .pure _
  | cons step rest ih => exact .bind (d.settles_execute hw step) fun _ => ih

end

end Dom

end PaintBench
