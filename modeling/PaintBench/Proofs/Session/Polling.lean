import PaintBench.Page.Dom
import PaintBench.Proofs.First
import PaintBench.Proofs.Session.Settles

/-!
# Waits poll on schedule

A wait polls its condition at once and then whenever an interval has passed, until the condition
holds or the limit is over. `OnSchedule` says this of a condition that answers by a sequence: a
wait succeeds with the first poll that holds, if no poll before it hangs and it is not due after
the limit, and otherwise it gives up exactly at the limit (`waits_on_schedule`). Polls are an
interval apart, but never more than the longest sleep (`slow_wait_off_schedule`).

A poll that fails is as good as one that does not hold (`Attempt.waitUntil_lenient`).
-/

namespace PaintBench

variable {σ : Type}

/-! ## Failures count as "not yet" -/

/-- The condition that does not hold where another one fails. -/
def Attempt.lenient (condition : Attempt σ Bool) : Attempt σ Bool := ExceptT.mk do
  let held ← condition.run
  return .ok (held.toOption.getD false)

theorem Run.pollUntil_lenient (interval : Nat) (condition : Attempt σ Bool) :
    ∀ polls pauses, pollUntil interval condition.lenient pauses polls =
      pollUntil interval condition pauses polls
  | 0, _ => rfl
  | polls + 1, pauses => by
    have ih := pollUntil_lenient interval condition polls
    rw [pollUntil, pollUntil]
    refine bind_congr fun start => ?_
    rw [Attempt.lenient, ExceptT.run_mk, bind_assoc]
    refine bind_congr fun held => ?_
    rw [pure_bind]
    rcases held with e | _ | _
    · exact bind_congr fun finish => bind_congr fun pauses => ih pauses
    · exact bind_congr fun finish => bind_congr fun pauses => ih pauses
    · rfl

/-- Failures of a condition make no difference to a wait. -/
theorem Attempt.waitUntil_lenient (interval : Duration) (description : String) (limit : Duration)
    (condition : Attempt σ Bool) :
    Attempt.waitUntil interval description limit condition.lenient =
      Attempt.waitUntil interval description limit condition := by
  simp only [Attempt.waitUntil, Run.pollUntil_lenient]

/-! ## Before a deadline -/

namespace Run

variable {terms : Terms σ} {s : Situation σ} {deadline ms : Nat}

theorem allows_iff (h : terms.deadline = some deadline) {time : Nat} :
    Terms.allows terms time ↔ time ≤ deadline := by
  rw [Terms.allows, h, decide_eq_true_eq]

theorem sleep_of_le (h : terms.deadline = some deadline)
    (hroom : s.now + min ms longestSleep ≤ deadline) :
    sleep ms terms s = (.ok (), { s with now := s.now + min ms longestSleep }) :=
  if_pos ((allows_iff h).mpr hroom)

theorem sleep_of_lt (h : terms.deadline = some deadline)
    (hlate : deadline < s.now + min ms longestSleep) :
    sleep ms terms s = (.error .expired, { s with now := max s.now deadline }) := by
  have hnot : ¬Terms.allows terms (s.now + min ms longestSleep) := by
    rw [allows_iff h]
    exact Nat.not_le.mpr hlate
  refine (if_neg hnot).trans ?_
  rw [hang, h]

/-- A limit that the terms leave room for is the deadline. -/
theorem deadline_limited {limit : Nat} (h : Terms.allows terms (s.now + limit)) :
    (Terms.limited terms s.now limit).deadline = some (s.now + limit) := by
  cases hdeadline : terms.deadline with
  | none => simp [Terms.limited, hdeadline]
  | some deadline =>
    have hle : s.now + limit ≤ deadline := (allows_iff hdeadline).mp h
    simp [Terms.limited, hdeadline, hle]

end Run

/-! ## Scripted conditions -/

/-- A poll that does not hold where another one fails. -/
def Poll.lenient : Poll → Poll
  | fails _ => doesNotHold
  | poll => poll

/-- The situation after one more poll. -/
def Situation.polled (s : Situation Script) : Situation Script :=
  { s with outside := s.outside + 1 }

namespace Script

variable {polls : Nat → Poll} {terms : Terms Script} {s : Situation Script}

theorem condition_of_holds (h : polls s.outside = .holds) :
    (condition polls).run terms s = (.ok (.ok true), s.polled) := by
  simp only [condition, ExceptT.run_mk, h]
  rfl

theorem condition_of_doesNotHold (h : polls s.outside = .doesNotHold) :
    (condition polls).run terms s = (.ok (.ok false), s.polled) := by
  simp only [condition, ExceptT.run_mk, h]
  rfl

theorem condition_of_fails {e : RunError} (h : polls s.outside = .fails e) :
    (condition polls).run terms s = (.ok (.error e), s.polled) := by
  simp only [condition, ExceptT.run_mk, h]
  rfl

theorem condition_of_hangs (h : polls s.outside = .hangs) :
    (condition polls).run terms s = Run.hang terms s.polled := by
  simp only [condition, ExceptT.run_mk, h]
  rfl

theorem condition_lenient (polls : Nat → Poll) :
    (condition polls).lenient = condition fun n => (polls n).lenient := by
  funext terms s
  refine (Run.bind_apply (condition polls).run _ terms s).trans ?_
  change _ = (condition fun n => (polls n).lenient).run terms s
  generalize hlenient : (fun n => (polls n).lenient) = lenient
  have hpoll : lenient s.outside = (polls s.outside).lenient := by rw [← hlenient]
  cases h : polls s.outside with
  | holds =>
    rw [h] at hpoll
    rw [condition_of_holds h, condition_of_holds hpoll]
    rfl
  | doesNotHold =>
    rw [h] at hpoll
    rw [condition_of_doesNotHold h, condition_of_doesNotHold hpoll]
    rfl
  | fails e =>
    rw [h] at hpoll
    rw [condition_of_fails h, condition_of_doesNotHold hpoll]
    rfl
  | hangs =>
    rw [h] at hpoll
    obtain ⟨halt, now, hhang⟩ := Run.hang_apply (α := Except RunError Bool) terms s.polled
    rw [condition_of_hangs h, condition_of_hangs hpoll, hhang]

/-! ## Polls one after the other -/

variable {interval pauses more deadline : Nat}

open Run (pollUntil Terms.allows)

/-- A poll that neither holds nor hangs, so that there is another one. -/
def NotYet (poll : Poll) : Prop :=
  poll ≠ .holds ∧ poll ≠ .hangs

theorem pollUntil_of_holds (h : polls s.outside = .holds) :
    pollUntil interval (condition polls) pauses (more + 1) terms s = (.ok (), s.polled) :=
  Run.bind_eq_ok_iff.mpr ⟨s.now, s, rfl,
    Run.bind_eq_ok_iff.mpr ⟨_, s.polled, condition_of_holds h, rfl⟩⟩

theorem pollUntil_of_hangs (h : polls s.outside = .hangs)
    (hdeadline : terms.deadline = some deadline) :
    pollUntil interval (condition polls) pauses (more + 1) terms s =
      (.error .expired, { s.polled with now := max s.now deadline }) := by
  refine (Run.bind_apply Run.clock _ terms s).trans ?_
  refine (Run.bind_apply (condition polls).run _ terms s).trans ?_
  rw [condition_of_hangs h, Run.hang, hdeadline]
  rfl

theorem exists_condition_of_notYet (terms : Terms Script) (h : NotYet (polls s.outside)) :
    ∃ held, (condition polls).run terms s = (.ok held, s.polled) ∧ held ≠ .ok true := by
  cases hpoll : polls s.outside with
  | holds => exact absurd hpoll h.1
  | hangs => exact absurd hpoll h.2
  | doesNotHold => exact ⟨_, condition_of_doesNotHold hpoll, nofun⟩
  | fails e => exact ⟨_, condition_of_fails hpoll, nofun⟩

/-- After a poll that does not hold there is a pause. -/
theorem pollUntil_of_notYet (hinterval : interval ≠ 0) (h : NotYet (polls s.outside)) :
    pollUntil interval (condition polls) pauses (more + 1) terms s =
      (Run.sleep interval >>= fun _ =>
        pollUntil interval (condition polls) (Run.pausesPerTurn - 1) more) terms s.polled := by
  have hpause (pauses : Nat) : (Run.pause interval pauses : Run Script Nat) =
      Run.sleep interval >>= fun _ => pure (Run.pausesPerTurn - 1) := by
    rw [Run.pause, if_pos hinterval]
  obtain ⟨held, hheld, hne⟩ := exists_condition_of_notYet terms h
  refine (Run.bind_apply Run.clock _ terms s).trans ?_
  refine (Run.bind_apply (condition polls).run _ terms s).trans ?_
  rw [hheld]
  simp only [hpause, bind_assoc, pure_bind]
  exact Run.bind_apply Run.clock _ terms s.polled

/-- From the first poll on, polls go on as long as they do not hold and the deadline has not
come. -/
theorem pollUntil_goesOn (hinterval : interval ≠ 0) (hdeadline : terms.deadline = some deadline)
    {n : Nat} (hnotYet : ∀ j < n, NotYet (polls j))
    (hroom : s.now + n * min interval longestSleep ≤ deadline) (pauses more : Nat) :
    ∃ pauses', pollUntil interval (condition polls) pauses (n + more) terms
        { s with outside := 0 } =
      pollUntil interval (condition polls) pauses' more terms
        { s with now := s.now + n * min interval longestSleep, outside := n } := by
  induction n generalizing more with
  | zero => exact ⟨pauses, by simp⟩
  | succ n ih =>
    rw [Nat.succ_mul] at hroom
    obtain ⟨pauses', hbefore⟩ := ih (fun j hj => hnotYet j (Nat.lt_succ_of_lt hj))
      (by omega) (more + 1)
    refine ⟨Run.pausesPerTurn - 1, ?_⟩
    rw [Nat.add_right_comm n 1 more, Nat.add_assoc, hbefore,
      pollUntil_of_notYet hinterval (hnotYet n (Nat.lt_succ_self n)), Run.bind_apply,
      Run.sleep_of_le hdeadline (by simpa [Situation.polled, Nat.add_assoc] using hroom)]
    simp [Situation.polled, Nat.succ_mul, Nat.add_assoc]

/-- The first poll that holds ends the polling, if it comes before the deadline. -/
theorem pollUntil_found (hinterval : interval ≠ 0) (hdeadline : terms.deadline = some deadline)
    {t : Nat} (hnotYet : ∀ j < t, NotYet (polls j)) (hholds : polls t = .holds)
    (hroom : s.now + t * min interval longestSleep ≤ deadline) (pauses more : Nat) :
    pollUntil interval (condition polls) pauses (t + (more + 1)) terms { s with outside := 0 } =
      (.ok (), { s with
        now := s.now + t * min interval longestSleep, outside := t + 1 }) := by
  obtain ⟨pauses', hbefore⟩ := pollUntil_goesOn hinterval hdeadline hnotYet hroom pauses (more + 1)
  rw [hbefore, pollUntil_of_holds hholds]
  rfl

/-- A poll that hangs does so until the deadline. -/
theorem pollUntil_stuck (hinterval : interval ≠ 0) (hdeadline : terms.deadline = some deadline)
    {h : Nat} (hnotYet : ∀ j < h, NotYet (polls j)) (hhangs : polls h = .hangs)
    (hroom : s.now + h * min interval longestSleep ≤ deadline) (pauses more : Nat) :
    pollUntil interval (condition polls) pauses (h + (more + 1)) terms { s with outside := 0 } =
      (.error .expired, { s with now := deadline, outside := h + 1 }) := by
  obtain ⟨pauses', hbefore⟩ := pollUntil_goesOn hinterval hdeadline hnotYet hroom pauses (more + 1)
  rw [hbefore, pollUntil_of_hangs hhangs hdeadline]
  simp [Situation.polled, Nat.max_eq_right hroom]

/-- Polls of which none holds come to an end at the deadline, in the pause before the one that
is due after it. -/
theorem pollUntil_late (hinterval : interval ≠ 0) (hdeadline : terms.deadline = some deadline)
    {n : Nat} (hnotYet : ∀ j ≤ n, NotYet (polls j))
    (hroom : s.now + n * min interval longestSleep ≤ deadline)
    (hlate : deadline < s.now + (n + 1) * min interval longestSleep) (pauses more : Nat) :
    pollUntil interval (condition polls) pauses (n + (more + 1)) terms { s with outside := 0 } =
      (.error .expired, { s with now := deadline, outside := n + 1 }) := by
  obtain ⟨pauses', hbefore⟩ := pollUntil_goesOn hinterval hdeadline
    (fun j hj => hnotYet j (Nat.le_of_lt hj)) hroom pauses (more + 1)
  rw [Nat.succ_mul, ← Nat.add_assoc] at hlate
  rw [hbefore, pollUntil_of_notYet hinterval (hnotYet n (Nat.le_refl n)), Run.bind_apply,
    Run.sleep_of_lt hdeadline (by simpa [Situation.polled] using hlate)]
  simp [Situation.polled, Nat.max_eq_right hroom]

end Script

/-! ## Waits -/

namespace Attempt

variable {interval limit : Duration} {description : String} {condition : Attempt σ Bool}
  {terms : Terms σ} {s s' : Situation σ}

open Run (Terms.allows Terms.limited pollUntil)

theorem waitUntil_of_found (hinterval : interval.ticks ≠ 0)
    (h : pollUntil interval.ticks condition Run.pausesPerTurn
      (limit.ticks / min interval.ticks longestSleep + 1)
      (Terms.limited terms s.now limit.ticks) s = (.ok (), s')) :
    (waitUntil interval description limit condition).run terms s = (.ok (.ok ()), s') := by
  rw [waitUntil, ExceptT.run_mk, Run.pollBudget, if_neg hinterval, pure_bind]
  exact Run.bind_eq_ok_iff.mpr ⟨some (), s', Run.within_of_run h, rfl⟩

theorem waitUntil_of_expired (hinterval : interval.ticks ≠ 0)
    (hroom : Terms.allows terms (s.now + limit.ticks))
    (h : pollUntil interval.ticks condition Run.pausesPerTurn
      (limit.ticks / min interval.ticks longestSleep + 1)
      (Terms.limited terms s.now limit.ticks) s = (.error .expired, s')) :
    (waitUntil interval description limit condition).run terms s =
      (.ok (.error (.timeout description limit)), s') := by
  have hwithin := Run.within_of_run h
  rw [Run.endWithin, if_pos hroom] at hwithin
  rw [waitUntil, ExceptT.run_mk, Run.pollBudget, if_neg hinterval, pure_bind]
  exact Run.bind_eq_ok_iff.mpr ⟨none, s', hwithin, rfl⟩

end Attempt

/-- How a wait goes that starts in a situation and polls a scripted condition every `spacing`
milliseconds. The first poll that holds ends it, unless a poll before that one hangs or the limit
is over by then. Otherwise it gives up at the limit; the last poll is the one that hangs or the
last one that is due. -/
structure OnSchedule (spacing : Nat) (limit : Duration) (description : String) (polls : Nat → Poll)
    (s : Situation Script) (outcome : Except Halt (Except RunError Unit) × Situation Script) :
    Prop where
  found : ∀ t : ℕ, firstIndex (polls · = .holds) = t → t < firstIndex (polls · = .hangs) →
    t * spacing ≤ limit.ticks →
      outcome = (.ok (.ok ()), { s with now := s.now + t * spacing, outside := t + 1 })
  givenUp : (∀ t : ℕ, firstIndex (polls · = .holds) = t → t < firstIndex (polls · = .hangs) →
    limit.ticks < t * spacing) →
      ∃ calls : ℕ, calls = min (firstIndex (polls · = .hangs)) (limit.ticks / spacing : ℕ) + 1 ∧
        outcome = (.ok (.error (.timeout description limit)),
          { s with now := s.now + limit.ticks, outside := calls })

/-- There is one poll at least. -/
theorem OnSchedule.one_le_polls {spacing : Nat} {limit : Duration} {description : String}
    {polls : Nat → Poll} {s : Situation Script} {outcome : Except Halt (Except RunError Unit) × Situation Script}
    (h : OnSchedule spacing limit description polls s outcome) : 1 ≤ outcome.2.outside := by
  by_cases hfound : ∃ t : ℕ, firstIndex (polls · = .holds) = t ∧
      t < firstIndex (polls · = .hangs) ∧ t * spacing ≤ limit.ticks
  · obtain ⟨t, ht, hhang, hle⟩ := hfound
    rw [h.found t ht hhang hle]
    exact Nat.le_add_left 1 t
  · obtain ⟨calls, hcalls, houtcome⟩ := h.givenUp fun t ht hhang =>
      Nat.not_le.mp fun hle => hfound ⟨t, ht, hhang, hle⟩
    rw [houtcome]
    have hle : (1 : ℕ∞) ≤ calls := hcalls ▸ le_add_self
    exact_mod_cast hle

namespace Script

variable {polls : Nat → Poll} {spacing limit : Nat}

/-- Where no poll before the limit ends a wait, no poll holds that comes to be made. -/
theorem ne_holds_of_givenUp
    (hnone : ∀ t : ℕ, firstIndex (polls · = .holds) = t → t < firstIndex (polls · = .hangs) →
      limit < t * spacing) {j : ℕ} (hj : j * spacing ≤ limit)
    (hhang : j < firstIndex (polls · = .hangs)) : polls j ≠ .holds := by
  intro hholds
  obtain ⟨t, hle, ht⟩ := exists_firstIndex_eq (p := (polls · = .holds)) hholds
  have hlate := hnone t ht (lt_of_le_of_lt (Nat.cast_le.mpr hle) hhang)
  have hearly : t * spacing ≤ j * spacing := Nat.mul_le_mul_right spacing hle
  omega

/-- A wait for a scripted condition is on schedule. -/
theorem onSchedule_waitUntil {interval limit : Duration} (hinterval : interval.ticks ≠ 0)
    (description : String) (polls : Nat → Poll) {terms : Terms Script} (s : Situation Script)
    (hroom : Run.Terms.allows terms (s.now + limit.ticks)) :
    OnSchedule (min interval.ticks longestSleep) limit description polls s
      ((Attempt.waitUntil interval description limit (condition polls)).run terms
        { s with outside := 0 }) := by
  have hdeadline := Run.deadline_limited hroom
  have hspacing : 0 < min interval.ticks longestSleep :=
    Nat.lt_min.mpr ⟨Nat.pos_of_ne_zero hinterval, by decide⟩
  -- The polls up to the last one that is due are what the limit leaves room for.
  have hdue {n : Nat} : n * min interval.ticks longestSleep ≤ limit.ticks ↔
      n ≤ limit.ticks / min interval.ticks longestSleep := (Nat.le_div_iff_mul_le hspacing).symm
  have hbudget {n : Nat} (hn : n * min interval.ticks longestSleep ≤ limit.ticks) :
      limit.ticks / min interval.ticks longestSleep + 1 =
        n + (limit.ticks / min interval.ticks longestSleep - n + 1) := by
    have := hdue.mp hn
    omega
  constructor
  · intro t ht hhang hle
    obtain ⟨hholds, hbefore⟩ := firstIndex_eq_iff.mp ht
    have hnever : ∀ j < t, polls j ≠ .hangs := natCast_le_firstIndex_iff.mp hhang.le
    refine Attempt.waitUntil_of_found hinterval ?_
    rw [hbudget hle]
    exact pollUntil_found hinterval hdeadline (fun j hj => ⟨hbefore j hj, hnever j hj⟩) hholds
      (Nat.add_le_add_left hle _) _ _
  · intro hnone
    have hholds {j : ℕ} := ne_holds_of_givenUp (j := j) hnone
    rcases lt_or_ge ((limit.ticks / min interval.ticks longestSleep : ℕ) : ℕ∞)
      (firstIndex (polls · = .hangs)) with hlater | hhang
    · -- no poll that is due hangs
      refine ⟨limit.ticks / min interval.ticks longestSleep + 1,
        by rw [min_eq_right hlater.le]; rfl, ?_⟩
      refine Attempt.waitUntil_of_expired hinterval hroom ?_
      refine pollUntil_late hinterval hdeadline (fun j hj => ?_) ?_ ?_ _ 0
      · have hbefore : (j : ℕ∞) < firstIndex (polls · = .hangs) :=
          lt_of_le_of_lt (Nat.cast_le.mpr hj) hlater
        exact ⟨hholds (hdue.mpr hj) hbefore,
          natCast_le_firstIndex_iff.mp (Order.add_one_le_of_lt hbefore) j (Nat.lt_succ_self j)⟩
      · exact Nat.add_le_add_left (hdue.mpr (Nat.le_refl _)) _
      · exact Nat.add_lt_add_left (Nat.lt_mul_of_div_lt (Nat.lt_succ_self _) hspacing) _
    · -- a poll hangs that is due
      obtain ⟨h, hh⟩ := ENat.ne_top_iff_exists.mp
        (ne_top_of_le_ne_top (ENat.natCast_ne_top _) hhang)
      rw [← hh, Nat.cast_le] at hhang
      obtain ⟨hhangs, hbefore⟩ := firstIndex_eq_iff.mp hh.symm
      refine ⟨h + 1, by rw [← hh, min_eq_left (Nat.cast_le.mpr hhang)]; rfl, ?_⟩
      refine Attempt.waitUntil_of_expired hinterval hroom ?_
      rw [hbudget (hdue.mpr hhang)]
      refine pollUntil_stuck hinterval hdeadline (fun j hj => ⟨?_, hbefore j hj⟩) hhangs
        (Nat.add_le_add_left (hdue.mpr hhang) _) _ _
      exact hholds (hdue.mpr (by omega)) (hh ▸ Nat.cast_lt.mpr hj)

end Script

/-- Waits are on schedule, with polls one interval apart, or the longest sleep if that is shorter,
both in ticks of the clock. There is one poll at least, and failures of the condition make no
difference. -/
theorem Dom.waits_on_schedule (d : Dom) (hinterval : 1 ≤ d.pollInterval.ticks)
    (description : String) (limit : Duration) (polls : Nat → Poll) (terms : Terms Script)
    (s : Situation Script) (hroom : Run.Terms.allows terms (s.now + limit.ticks)) :
    let outcome := (d.waitUntil description limit (Script.condition polls)).run.outcome terms
      { s with outside := 0 }
    OnSchedule (min d.pollInterval.ticks longestSleep) limit description polls s outcome ∧
    1 ≤ outcome.2.outside ∧
    d.waitUntil description limit (Script.condition fun n => (polls n).lenient) =
      d.waitUntil description limit (Script.condition polls) := by
  have hschedule := Script.onSchedule_waitUntil (Nat.ne_of_gt hinterval) description polls s hroom
  refine ⟨hschedule, hschedule.one_le_polls, ?_⟩
  rw [Dom.waitUntil, Dom.waitUntil, ← Script.condition_lenient, Attempt.waitUntil_lenient]

/-! ### Examples -/

/-- An outside in which every session is closed. -/
def Script.closedWorld : World Script where
  receive _ polls := (.after 0, polls)
  answer
    | .openSession _, _, polls => (.error .closed, polls)
    | .call _ _, _, polls => (.error .closed, polls)
    | .audit .., _, polls => (.error (.audit "no report"), polls)

/-- A page that is polled at an interval. -/
def Dom.polledEvery (ms : UInt64) : Dom :=
  ⟨0, none, .ofMilliseconds 300, .ofMilliseconds ms⟩

/-- A failure, two polls that do not hold and one that does. -/
def Script.fourthHolds (n : Nat) : Poll :=
  if n = 0 then .fails (.notFound "row") else if n < 3 then .doesNotHold else .holds

theorem Script.firstIndex_fourthHolds : firstIndex (fourthHolds · = .holds) = 3 := by
  refine firstIndex_eq_iff.mpr ⟨rfl, fun j hj => ?_⟩
  rw [fourthHolds, if_pos hj]
  split <;> nofun

theorem Script.firstIndex_fourthHolds_hangs : firstIndex (fourthHolds · = .hangs) = ⊤ := by
  refine firstIndex_eq_top_iff.mpr fun j => ?_
  rw [fourthHolds]
  split
  · nofun
  · split <;> nofun

/-- A poll that is due exactly at the limit is still made. -/
theorem Dom.waits_on_schedule_to_the_limit :
    (((Dom.polledEvery 20).waitUntil "row" (.ofMilliseconds 60)
        (Script.condition Script.fourthHolds)).run.outcome
      ⟨Script.closedWorld, none, 0⟩ (.start 0 (.empty []))) =
      (.ok (.ok ()), { Situation.start 4 (.empty []) with now := 60 }) :=
  (Dom.waits_on_schedule (Dom.polledEvery 20) (by decide) "row" (.ofMilliseconds 60)
    Script.fourthHolds ⟨Script.closedWorld, none, 0⟩ (.start 0 (.empty [])) rfl).1.found 3
      Script.firstIndex_fourthHolds
      (Script.firstIndex_fourthHolds_hangs ▸ ENat.natCast_lt_top 3) (by decide)

/-- With an interval of sixty years, the fourth poll is made after ninety years, although only
three polls are an interval apart within a limit of a hundred and fifty years. -/
theorem Dom.slow_wait_off_schedule :
    let limit := Duration.ofMilliseconds (.ofNat (5 * longestSleep))
    ¬OnSchedule (2 * longestSleep) limit "row" Script.fourthHolds (.start 0 (.empty []))
      (((Dom.polledEvery (.ofNat (2 * longestSleep))).waitUntil "row" limit
        (Script.condition Script.fourthHolds)).run.outcome
          ⟨Script.closedWorld, none, 0⟩ (.start 0 (.empty []))) := by
  intro limit h
  have hlimit : limit.ticks = 5 * longestSleep := by decide
  obtain ⟨calls, hcalls, houtcome⟩ := h.givenUp fun t ht _ => by
    rw [Script.firstIndex_fourthHolds] at ht
    obtain rfl : 3 = t := by exact_mod_cast ht
    decide
  have hpolls : calls = 4 := (congrArg (·.2.outside) houtcome).symm.trans (by decide +kernel)
  rw [Script.firstIndex_fourthHolds_hangs, min_eq_right le_top, hpolls, hlimit] at hcalls
  have hthree : 4 = 5 * longestSleep / (2 * longestSleep) + 1 := by exact_mod_cast hcalls
  exact absurd hthree (by decide)

end PaintBench
