import PaintBench.Page.Hook
import PaintBench.Proofs.Session.Settles

/-!
# Runs that take no time

Where the outside answers calls as soon as they are made, many runs return in the millisecond in
which they start. `Run.AtOnce` says of such a run which value it returns and in which state it
leaves the outside, whatever its deadline is. A wait is one of them if its condition holds already
(`Attempt.AtOnce.waitUntil`), and so is an interaction that succeeds the first time
(`Attempt.AtOnce.retry`).
-/

namespace PaintBench

open Run (Terms.allows Terms.limited)

variable {σ α β : Type} {w : World σ} {o mid o' : σ}

/-- A call is answered as soon as it is made. -/
structure World.Replies (w : World σ) (session : SessionId) (c : Call) (o : σ) (reply : c.Reply)
    (o' : σ) : Prop where
  receive : w.receive (.call session c) o = (.after 0, o)
  answer : ∀ time, w.answer (.call session c) time o = (.ok reply, o')

/-! ## Runs -/

/-- A run returns a value in no time, unless its deadline has passed or there is no patience for
a single poll. -/
def Run.AtOnce (w : World σ) (run : Run σ α) (o : σ) (a : α) (o' : σ) : Prop :=
  ∀ ⦃terms s⦄, terms.world = w → Terms.allows terms s.now → 0 < terms.patience → s.outside = o →
    ∃ s', run terms s = (.ok a, s') ∧ s'.now = s.now ∧ s'.outside = o'

namespace Run.AtOnce

theorem pure (a : α) : AtOnce w (Pure.pure a : Run σ α) o a o :=
  fun _ s _ _ _ ho => ⟨s, rfl, rfl, ho⟩

theorem bind {run : Run σ α} {next : α → Run σ β} {a : α} {b : β} (h : AtOnce w run o a mid)
    (hnext : AtOnce w (next a) mid b o') : AtOnce w (run >>= next) o b o' := by
  intro terms s hw hallows hpatience ho
  obtain ⟨s₁, hrun, hnow, ho₁⟩ := h hw hallows hpatience ho
  obtain ⟨s₂, hrest, hnow', ho₂⟩ := hnext hw (hnow ▸ hallows) hpatience ho₁
  exact ⟨s₂, bind_eq_ok_iff.mpr ⟨a, s₁, hrun, hrest⟩, hnow'.trans hnow, ho₂⟩

theorem ask {session : SessionId} {c : Call} {reply : c.Reply}
    (h : w.Replies session c o reply o') :
    AtOnce w (Run.ask (.call session c)) o (.ok reply : Except SessionError c.Reply) o' := by
  rintro terms s rfl hallows - rfl
  have hask := (ask_of_after h.receive).trans (if_pos hallows)
  rw [h.answer] at hask
  exact ⟨_, hask, rfl, rfl⟩

theorem within {run : Run σ α} {a : α} (limit : Nat) (h : AtOnce w run o a o') :
    AtOnce w (Run.within limit run) o (some a) o' := by
  intro terms s hw hallows hpatience ho
  have hlimited : Terms.allows (Terms.limited terms s.now limit) s.now := by
    unfold Terms.allows Terms.limited at *
    cases hdeadline : terms.deadline with
    | none => simp
    | some deadline => simpa [hdeadline, Nat.le_min] using hallows
  have hw : (Terms.limited terms s.now limit).world = w := hw
  obtain ⟨s', hrun, hnow, ho'⟩ := h hw hlimited hpatience ho
  exact ⟨s', within_of_run hrun, hnow, ho'⟩

/-- A condition that holds at the first poll ends the polling. -/
theorem pollUntil {condition : Attempt σ Bool} (interval pauses polls : Nat)
    (h : AtOnce w condition.run o (.ok true) o') :
    AtOnce w (Run.pollUntil interval condition pauses (polls + 1)) o () o' := by
  intro terms s hw hallows hpatience ho
  obtain ⟨s', hheld, hnow, ho'⟩ := h hw hallows hpatience ho
  refine ⟨s', ?_, hnow, ho'⟩
  exact bind_eq_ok_iff.mpr ⟨s.now, s, rfl, bind_eq_ok_iff.mpr ⟨_, s', hheld, rfl⟩⟩

/-- There is a poll at least. -/
theorem pollBudget_apply {terms : Terms σ} (hpatience : 0 < terms.patience) (s : Situation σ)
    (interval limit : Nat) :
    ∃ polls, Run.pollBudget interval limit terms s = (.ok (polls + 1), s) := by
  by_cases hinterval : interval = 0
  · refine ⟨terms.patience - 1, ?_⟩
    rw [Run.pollBudget, if_pos hinterval, Nat.sub_add_cancel hpatience]
    rfl
  · refine ⟨limit / min interval longestSleep, ?_⟩
    rw [Run.pollBudget, if_neg hinterval]
    rfl

end Run.AtOnce

/-! ## Attempts -/

/-- An attempt succeeds in no time. -/
def Attempt.AtOnce (w : World σ) (act : Attempt σ α) (o : σ) (a : α) (o' : σ) : Prop :=
  Run.AtOnce w act.run o (.ok a) o'

namespace Attempt.AtOnce

theorem pure (a : α) : Attempt.AtOnce w (Pure.pure a : Attempt σ α) o a o :=
  Run.AtOnce.pure _

theorem bind {act : Attempt σ α} {next : α → Attempt σ β} {a : α} {b : β}
    (h : Attempt.AtOnce w act o a mid) (hnext : Attempt.AtOnce w (next a) mid b o') :
    Attempt.AtOnce w (act >>= next) o b o' :=
  Run.AtOnce.bind h hnext

theorem lift {run : Run σ α} {a : α} (h : Run.AtOnce w run o a o') :
    Attempt.AtOnce w (ExceptT.lift run : Attempt σ α) o a o' :=
  Run.AtOnce.bind h (.pure _)

theorem call {session : SessionId} {c : Call} {reply : c.Reply}
    (h : w.Replies session c o reply o') :
    Attempt.AtOnce w (Attempt.call session c) o reply o' :=
  Run.AtOnce.bind (.ask h) (.pure _)

/-- What succeeds is not tried again. -/
theorem retry {act : Attempt σ α} {a : α} (h : Attempt.AtOnce w act o a o') (retries : Nat) :
    Attempt.AtOnce w (Dom.retry act retries) o a o' := by
  cases retries with
  | zero => exact h
  | succ retries => exact Run.AtOnce.bind h (.pure _)

/-- A wait for what holds already takes no time. -/
theorem waitUntil {condition : Attempt σ Bool} (interval : Duration) (description : String)
    (limit : Duration) (h : Attempt.AtOnce w condition o true o') :
    Attempt.AtOnce w (Attempt.waitUntil interval description limit condition) o () o' := by
  intro terms s hw hallows hpatience ho
  obtain ⟨polls, hpolls⟩ := Run.AtOnce.pollBudget_apply hpatience s interval.ticks limit.ticks
  have hpolling := Run.AtOnce.pollUntil interval.ticks Run.pausesPerTurn polls h
  obtain ⟨s', hwithin, hnow, ho'⟩ := (hpolling.within limit.ticks) hw hallows hpatience ho
  refine ⟨s', ?_, hnow, ho'⟩
  exact Run.bind_eq_ok_iff.mpr ⟨_, s, hpolls, Run.bind_eq_ok_iff.mpr ⟨_, s', hwithin, rfl⟩⟩

end Attempt.AtOnce

/-! ## Hooks -/

/-- A part of a hook succeeds in no time and captures nothing. -/
def Hook.AtOnce (w : World σ) (hook : Hook σ α) (o : σ) (a : α) (o' : σ) : Prop :=
  ∀ captured, Run.AtOnce w (hook.run.run captured) o (.ok a, captured) o'

namespace Hook.AtOnce

theorem pure (a : α) : Hook.AtOnce w (Pure.pure a : Hook σ α) o a o :=
  fun _ => Run.AtOnce.pure _

theorem bind {hook : Hook σ α} {next : α → Hook σ β} {a : α} {b : β}
    (h : Hook.AtOnce w hook o a mid) (hnext : Hook.AtOnce w (next a) mid b o') :
    Hook.AtOnce w (hook >>= next) o b o' :=
  fun captured => Run.AtOnce.bind (h captured) (hnext captured)

theorem ofAttempt {act : Attempt σ α} {a : α} (h : Attempt.AtOnce w act o a o') :
    Hook.AtOnce w (Hook.ofAttempt act) o a o' :=
  fun _ => Run.AtOnce.bind h (.pure _)

end Hook.AtOnce

end PaintBench
