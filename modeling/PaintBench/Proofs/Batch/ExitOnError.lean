import PaintBench.Batch.Report
import PaintBench.Proofs.Batch.Replay

/-!
# Ending a batch with its first error

A batch that is set to end with the first error does what it does otherwise, up to the
last attempt at the first pair with an error (`exitOnError_cuts_short`). Both batches
settle their pairs alike (`settleAll_exitOnError`); they differ in what they conclude.
-/

namespace PaintBench.Batch

/-- Pairs are settled alike whether or not an error ends the batch. -/
theorem settleAll_exitOnError (policy : BatchOptions) (exitOnError : Bool)
    (qs : List WorkerRequest) : ∀ responses : Nat → WorkerResponse,
      settleAll { policy with exitOnError } responses qs = settleAll policy responses qs := by
  induction qs with
  | nil => intro _; rfl
  | cons q rest ih => intro responses; rw [settleAll, settleAll, ih]; rfl

/-- The first pair with an error, and its first error. -/
theorem exists_first_error (outcomes : List PairOutcome) {e : String} {errors : List String}
    (h : outcomes.flatMap PairOutcome.errors = e :: errors) :
    ∃ before o later errors', outcomes = before ++ o :: later ∧
      (∀ p ∈ before, p.errors = []) ∧ o.errors = e :: errors' := by
  induction outcomes with
  | nil => cases h
  | cons o outcomes ih =>
    rw [List.flatMap_cons] at h
    cases ho : o.errors with
    | nil =>
      rw [ho, List.nil_append] at h
      obtain ⟨before, o', later, errors', rfl, hbefore, ho'⟩ := ih h
      exact ⟨o :: before, o', later, errors', rfl, by simpa [ho] using hbefore, ho'⟩
    | cons e' errors' =>
      rw [ho] at h
      obtain ⟨rfl, -⟩ := List.cons.inj h
      exact ⟨[], o, outcomes, errors', rfl, by simp, ho⟩

/-- Ending with the first error only cuts a batch short. Compared with the batch that goes
on, it makes the same attempts up to the last one at the first pair with an error, and
ends with the first error of the report; without any error it makes the same attempts and
has the same outcomes. -/
theorem exitOnError_cuts_short (policy : BatchOptions) (options : RunOptions)
    (implementations : List Implementation) (benchmarks : List Benchmark)
    (responses : Nat → WorkerResponse) (startedAt : Instant) :
    let batch (exitOnError : Bool) :=
      (run (replaying responses) { policy with exitOnError } options implementations
        benchmarks).run []
    let qs := requests implementations benchmarks options
    ∃ outcomes, batch false = (.ok outcomes, dispatched qs outcomes) ∧
      (Report.errors ⟨startedAt, outcomes⟩ = [] → batch true = batch false) ∧
      ∀ e errors, Report.errors ⟨startedAt, outcomes⟩ = e :: errors →
        ∃ before o later, outcomes = before ++ o :: later ∧
          (∀ p ∈ before, p.errors = []) ∧ o.errors ≠ [] ∧
          batch true =
            (.error ⟨e⟩, (dispatched qs outcomes).take (attemptsOf (before ++ [o]))) := by
  intro batch qs
  have hsame (exitOnError : Bool) :=
    settleAll_exitOnError policy exitOnError qs (dropResponses 0 responses)
  have hfalse : batch false = (.ok _, [] ++ _) :=
    runPairs_of_forall_ok responses _ qs [] (hsame false) fun o _ => conclude_false o
  refine ⟨_, hfalse, ?_, ?_⟩
  · intro hnone
    rw [hfalse]
    exact runPairs_of_forall_ok responses _ qs [] (hsame true) fun o ho =>
      conclude_of_errors_eq_nil true (List.flatMap_eq_nil_iff.mp hnone o ho)
  · intro e errors herrors
    obtain ⟨before, o, later, errors', hsettled, hbefore, ho⟩ :=
      exists_first_error (settleAll policy (dropResponses 0 responses) qs) herrors
    have hlength : (before ++ [o]).length ≤ qs.length := by
      rw [← length_settleAll policy qs (dropResponses 0 responses), hsettled]
      simp
    have htake := take_dispatched later qs (before ++ [o]) hlength
    rw [List.append_assoc, List.singleton_append, ← hsettled] at htake
    have hstop : conclude true o = .error ⟨e⟩ := conclude_of_errors_eq_cons true ho
    have htrue := runPairs_of_first_error responses { policy with exitOnError := true } hstop
      before [] ((hsame true).trans hsettled) fun p hp =>
        conclude_of_errors_eq_nil true (hbefore p hp)
    refine ⟨before, o, later, hsettled, hbefore, by simp [ho], ?_⟩
    rw [htake]
    exact htrue

/-- The first pair is tried twice, the error of the second one ends the batch, and the
third one is never tried. -/
theorem exitOnError_cuts_short_second_pair :
    let i := Implementation.plain "vanillajs" "frameworks/keyed/vanillajs" true none
    let request (id : String) : WorkerRequest := ⟨i, id, .standard⟩
    let responses : Nat → WorkerResponse := fun n =>
      if n = 0 then .failure "Server terminated early with status 1"
      else if n = 2 then .completed (some "no row") []
      else .completed none []
    let batch (exitOnError : Bool) :=
      (run (replaying responses) { BatchOptions.standard with exitOnError } .standard [i]
        [.startup ⟨"first", "", "", .startup, none⟩, .startup ⟨"second", "", "", .startup, none⟩,
          .startup ⟨"third", "", "", .startup, none⟩]).run []
    (batch false).2 = [request "first", request "first", request "second", request "third"] ∧
    batch true =
      (.error ⟨"Executing frameworks/keyed/vanillajs and benchmark second failed: no row"⟩,
        [request "first", request "first", request "second"]) := by
  intro i request responses batch
  have hbatch : batch false = (.ok [
      ⟨"vanillajs-keyed", "first", 2, [], []⟩,
      ⟨"vanillajs-keyed", "second", 1,
        ["Executing frameworks/keyed/vanillajs and benchmark second failed: no row"], []⟩,
      ⟨"vanillajs-keyed", "third", 1, [], []⟩],
      [request "first", request "first", request "second", request "third"]) := by
    rfl
  obtain ⟨outcomes, hfalse, -, hcut⟩ := exitOnError_cuts_short .standard .standard [i]
    [.startup ⟨"first", "", "", .startup, none⟩, .startup ⟨"second", "", "", .startup, none⟩,
      .startup ⟨"third", "", "", .startup, none⟩] responses .epoch
  obtain rfl := Except.ok.inj (congrArg Prod.fst (hbatch.symm.trans hfalse))
  obtain ⟨before, o, later, hsplit, hbefore, ho, htrue⟩ := hcut _ [] rfl
  refine ⟨congrArg Prod.snd hbatch, htrue.trans ?_⟩
  rcases before with _ | ⟨p, _ | ⟨p', before⟩⟩
  · simp only [List.nil_append, List.cons.injEq] at hsplit
    obtain ⟨rfl, -⟩ := hsplit
    exact absurd rfl ho
  · simp only [List.cons_append, List.nil_append, List.cons.injEq] at hsplit
    obtain ⟨rfl, rfl, -⟩ := hsplit
    rfl
  · simp only [List.cons_append, List.cons.injEq] at hsplit
    obtain ⟨-, rfl, -⟩ := hsplit
    have hsecond := hbefore _ (List.mem_cons_of_mem p (List.mem_cons_self ..))
    exact absurd hsecond (List.cons_ne_nil _ _)

end PaintBench.Batch
