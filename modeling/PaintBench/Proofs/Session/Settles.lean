import PaintBench.Proofs.Session.Uses

/-!
# Runs that return

In an outside that answers every request, a run ends with a result or at its deadline, unless
it goes round a loop that only its patience bounds. `Run.Ends` says this of a run without such
a loop, which does not depend on the patience at all.

A loop may need some patience to come to its end. `Run.Settles` is about all runs without a
deadline: with enough patience they return. What they return is then the same for every greater
patience, unless they failed; polls that are repeated without a pause and in vain can leave the
outside in a different state for each patience, and all that matters is that nothing but the
failure is made of it.
-/

namespace PaintBench

variable {σ α β : Type}

/-- Every request is answered. -/
def World.Answers (w : World σ) : Prop :=
  ∀ r s, ∃ ms s', w.receive r s = (.after ms, s')

namespace Run

/-- An end with a result, or at the deadline. -/
def Ended (deadline : Option Nat) : Except Halt α → Prop
  | .ok _ => True
  | .error halt => halt = .expired ∧ deadline ≠ none

/-- A run ends, and alike for every patience. -/
def Ends (w : World σ) (deadline : Option Nat) (run : Run σ α) : Prop :=
  ∀ s, ∃ result s', (∀ patience, run ⟨w, deadline, patience⟩ s = (result, s')) ∧
    Ended deadline result

/-- A run returns with enough patience, and in one way unless it failed. -/
def Settles (w : World σ) (failed : α → Prop) (run : Run σ α) : Prop :=
  ∀ s, ∃ enough,
    (∃ a s', ∀ patience ≥ enough, run ⟨w, none, patience⟩ s = (.ok a, s')) ∨
    ∀ patience ≥ enough, ∃ a s', run ⟨w, none, patience⟩ s = (.ok a, s') ∧ failed a

/-- A result that a run can have. -/
def Yields (w : World σ) (run : Run σ α) (a : α) : Prop :=
  ∃ patience s s', run ⟨w, none, patience⟩ s = (.ok a, s')

/-- What a limit makes of a run. -/
theorem within_of_run {limit : Nat} {run : Run σ α} {terms : Terms σ} {s s' : Situation σ}
    {result : Except Halt α} (h : run (Terms.limited terms s.now limit) s = (result, s')) :
    within limit run terms s = (endWithin terms (s.now + limit) result, s') := by
  rw [within_apply, h]

variable {w : World σ} {deadline : Option Nat}

/-! ## Ends -/

namespace Ends

theorem pure (a : α) : Ends w deadline (Pure.pure a : Run σ α) :=
  fun s => ⟨.ok a, s, fun _ => rfl, trivial⟩

theorem bind {run : Run σ α} {next : α → Run σ β} (h : Ends w deadline run)
    (hnext : ∀ a, Ends w deadline (next a)) : Ends w deadline (run >>= next) := by
  intro s
  obtain ⟨halt | a, mid, hrun, hended⟩ := h s
  · exact ⟨.error halt, mid, fun patience => by rw [bind_apply, hrun], hended⟩
  · obtain ⟨result, s', hrest, hended'⟩ := hnext a mid
    refine ⟨result, s', fun patience => ?_, hended'⟩
    rw [bind_apply, hrun]
    exact hrest patience

theorem clock : Ends w deadline (Run.clock : Run σ Nat) :=
  fun s => ⟨.ok s.now, s, fun _ => rfl, trivial⟩

theorem nextSession : Ends w deadline (Run.nextSession : Run σ SessionId) :=
  fun s => ⟨.ok s.sessions, _, fun _ => rfl, trivial⟩

theorem onDisk (work : Disk → α × Disk) : Ends w deadline (Run.onDisk work : Run σ α) :=
  fun s => ⟨.ok (work s.disk).1, _, fun _ => rfl, trivial⟩

/-- Before a deadline, nobody waits for ever. -/
theorem hang {time : Nat} : Ends w (some time) (Run.hang : Run σ α) :=
  fun s => ⟨.error .expired, { s with now := max s.now time }, fun _ => rfl, rfl, nofun⟩

/-- What comes too late comes after a deadline. -/
theorem hang_of_not_allows {patience time : Nat}
    (h : ¬Terms.allows ⟨w, deadline, patience⟩ time) :
    Ends w deadline (Run.hang : Run σ α) := by
  cases deadline with
  | none => exact absurd rfl h
  | some deadline => exact hang

theorem sleep (ms : Nat) : Ends w deadline (Run.sleep ms : Run σ Unit) := by
  intro s
  by_cases h : Terms.allows ⟨w, deadline, 0⟩ (s.now + min ms longestSleep)
  · exact ⟨.ok (), _, fun _ => if_pos h, trivial⟩
  · obtain ⟨result, s', hhang, hended⟩ := hang_of_not_allows (α := Unit) h s
    exact ⟨result, s', fun patience => (if_neg h).trans (hhang patience), hended⟩

theorem endTurn : Ends w deadline (Run.endTurn : Run σ Unit) := by
  intro s
  cases deadline with
  | none => exact ⟨.ok (), s, fun _ => rfl, trivial⟩
  | some deadline =>
    by_cases h : s.now < deadline
    · exact ⟨.ok (), s, fun _ => if_pos h, trivial⟩
    · exact ⟨.error .expired, s, fun _ => if_neg h, rfl, nofun⟩

/-- A request that is answered comes back in time, or ends the run at its deadline. -/
theorem ask (hw : w.Answers) (r : Request) : Ends w deadline (Run.ask r : Run σ r.Answer) := by
  intro s
  obtain ⟨ms, outside, hreceive⟩ := hw r s.outside
  by_cases h : Terms.allows ⟨w, deadline, 0⟩ (s.now + ms)
  · obtain ⟨answer, outside', hanswer⟩ :
        ∃ answer outside', w.answer r (s.now + ms) outside = (answer, outside') := ⟨_, _, rfl⟩
    refine ⟨.ok answer, { s with
      now := s.now + ms, outside := outside', journal := ⟨s.now + ms, r, answer⟩ :: s.journal },
      fun patience => ?_, trivial⟩
    rw [ask_of_after hreceive, hanswer]
    exact if_pos h
  · obtain ⟨result, s', hhang, hended⟩ :=
      hang_of_not_allows (α := r.Answer) h { s with outside }
    exact ⟨result, s', fun patience =>
      (ask_of_after hreceive).trans ((if_neg h).trans (hhang patience)), hended⟩

/-- With a limit of its own a run ends if it does so before every deadline. -/
theorem within (limit : Nat) {run : Run σ α} (h : ∀ time, Ends w (some time) run) :
    Ends w deadline (Run.within limit run) := by
  intro s
  obtain ⟨result, s', hrun, hended⟩ :=
    h ((deadline.map (min · (s.now + limit))).getD (s.now + limit)) s
  refine ⟨endWithin ⟨w, deadline, 0⟩ (s.now + limit) result, s', fun patience => ?_, ?_⟩
  · exact within_of_run (hrun patience)
  · rcases result with halt | a
    · obtain ⟨rfl, -⟩ := hended
      rw [endWithin]
      split
      · trivial
      · next hlate =>
        refine ⟨rfl, ?_⟩
        rintro rfl
        exact hlate rfl
    · trivial

/-- Without a deadline a run that ends returns. -/
theorem returns {run : Run σ α} (h : Ends w none run) (s : Situation σ) :
    ∃ a s', ∀ patience, run ⟨w, none, patience⟩ s = (.ok a, s') := by
  obtain ⟨halt | a, s', hrun, hended⟩ := h s
  · exact absurd rfl hended.2
  · exact ⟨a, s', hrun⟩

theorem exists_outcome {run : Run σ α} {terms : Terms σ} (h : Ends terms.world none run)
    (hdeadline : terms.deadline = none) (s : Situation σ) :
    ∃ a, (run.outcome terms s).1 = .ok a := by
  obtain ⟨a, s', hrun⟩ := h.returns s
  obtain ⟨world, deadline, patience⟩ := terms
  obtain rfl : deadline = none := hdeadline
  exact ⟨a, congrArg (·.1) (hrun patience)⟩

end Ends

/-! ## Settling -/

variable {failed : α → Prop} {run : Run σ α}

theorem Ends.settles (h : Ends w none run) : Settles w failed run := by
  intro s
  obtain ⟨a, s', hrun⟩ := h.returns s
  exact ⟨0, Or.inl ⟨a, s', fun patience _ => hrun patience⟩⟩

namespace Settles

theorem pure (a : α) : Settles w failed (Pure.pure a : Run σ α) :=
  (Ends.pure a).settles

/-- A second step settles after what the first one may have yielded, and does nothing but fail
after a failure. -/
theorem bind {failed' : β → Prop} {next : α → Run σ β} (h : Settles w failed run)
    (hnext : ∀ a, run.Yields w a → Settles w failed' (next a))
    (hstop : ∀ a, failed a → ∀ patience s, ∃ b s',
      next a ⟨w, none, patience⟩ s = (.ok b, s') ∧ failed' b) :
    Settles w failed' (run >>= next) := by
  intro s
  obtain ⟨enough, ⟨a, mid, hrun⟩ | hfailed⟩ := h s
  · have hbind : ∀ patience ≥ enough,
        (run >>= next) ⟨w, none, patience⟩ s = next a ⟨w, none, patience⟩ mid := by
      intro patience hpatience
      rw [bind_apply, hrun patience hpatience]
    obtain ⟨enough', hrest⟩ := hnext a ⟨enough, s, mid, hrun enough (Nat.le_refl _)⟩ mid
    refine ⟨enough + enough', ?_⟩
    rcases hrest with ⟨b, s', hrest⟩ | hrest
    · refine Or.inl ⟨b, s', fun patience hpatience => ?_⟩
      rw [hbind patience (Nat.le_of_add_right_le hpatience)]
      exact hrest patience (Nat.le_of_add_left_le hpatience)
    · refine Or.inr fun patience hpatience => ?_
      rw [hbind patience (Nat.le_of_add_right_le hpatience)]
      exact hrest patience (Nat.le_of_add_left_le hpatience)
  · refine ⟨enough, Or.inr fun patience hpatience => ?_⟩
    obtain ⟨a, mid, hrun, ha⟩ := hfailed patience hpatience
    rw [bind_apply, hrun]
    exact hstop a ha patience mid

/-- A run that settles returns. -/
theorem returns (h : Settles w failed run) (s : Situation σ) :
    ∃ enough, ∀ patience ≥ enough, ∃ a s', run ⟨w, none, patience⟩ s = (.ok a, s') := by
  obtain ⟨enough, ⟨a, s', hrun⟩ | hfailed⟩ := h s
  · exact ⟨enough, fun patience hpatience => ⟨a, s', hrun patience hpatience⟩⟩
  · refine ⟨enough, fun patience hpatience => ?_⟩
    obtain ⟨a, s', hrun, -⟩ := hfailed patience hpatience
    exact ⟨a, s', hrun⟩

end Settles

end Run

end PaintBench
