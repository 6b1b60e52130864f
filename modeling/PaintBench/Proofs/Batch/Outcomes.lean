import PaintBench.Batch.Report
import PaintBench.Proofs.Batch.Replay
import PaintBench.Proofs.First

/-!
# What a batch makes of a sequence of responses

Every pair takes a block of responses that starts where the pair before it stopped
(`SettledBy`). The block ends with the first response that is not flaky, or when no
attempts are left (`natCast_blockLength`), and its last response alone says how the pair
ended. `outcomes_of_batch` puts this together for a batch that goes on after errors.
-/

namespace PaintBench.Batch

/-! ## Blocks -/

/-- How many responses at the start of a sequence are flaky, that is, the place of the
first one that is not. -/
noncomputable def flakyStart (signatures : List String) (responses : ℕ → WorkerResponse) :
    ℕ∞ :=
  firstIndex fun j => judge signatures (responses j) ≠ .flaky

theorem natCast_le_flakyStart_iff {signatures : List String} {responses : ℕ → WorkerResponse}
    {n : ℕ} : (n : ℕ∞) ≤ flakyStart signatures responses ↔
      ∀ j < n, judge signatures (responses j) = .flaky := by
  simp only [flakyStart, natCast_le_firstIndex_iff, not_not]

theorem succ_le_blockLength_iff (signatures : List String) (left : ℕ) :
    ∀ {n : ℕ} {responses : ℕ → WorkerResponse},
      n + 1 ≤ blockLength signatures left responses ↔
        n + 1 ≤ left ∧ ∀ j < n, judge signatures (responses j) = .flaky := by
  induction left with
  | zero => simp [blockLength]
  | succ left ih =>
    intro n responses
    cases n with
    | zero => simp [one_le_blockLength responses left]
    | succ n =>
      rw [Nat.forall_lt_succ_left, Nat.add_le_add_iff_right]
      by_cases hflaky : judge signatures (responses 0) = .flaky
      · rw [blockLength_of_flaky responses left hflaky, Nat.add_le_add_iff_right, ih]
        simp only [dropResponses, Nat.add_comm 1, hflaky, true_and]
      · rw [blockLength_of_not_flaky responses left hflaky]
        simp [hflaky]

/-- A block ends with the first response that is not flaky, or when no attempts are
left. -/
theorem natCast_blockLength (signatures : List String) (left : ℕ)
    (responses : ℕ → WorkerResponse) : (blockLength signatures left responses : ℕ∞) =
      min (left : ℕ∞) (1 + flakyStart signatures responses) := by
  refine ENat.eq_of_forall_natCast_le_iff fun n => ?_
  cases n with
  | zero => simp
  | succ n =>
    rw [Nat.cast_le, succ_le_blockLength_iff, le_min_iff, Nat.cast_le, Nat.cast_succ,
      add_comm 1, ENat.add_le_add_iff_right ENat.one_ne_top, natCast_le_flakyStart_iff]

/-! ## Pairs -/

/-- How a pair ends that starts with a response of a sequence: it takes a block of
responses, and the last one says everything else. -/
structure SettledBy (policy : BatchOptions) (responses : ℕ → WorkerResponse) (start : ℕ)
    (q : WorkerRequest) (o : PairOutcome) : Prop where
  framework : o.framework = q.implementation.fullName
  benchmark : o.benchmark = q.benchmarkId
  attempts : (o.attempts : ℕ∞) = min (policy.maxAttempts.toNat : ℕ∞)
    (1 + flakyStart policy.flakySignatures (dropResponses start responses))
  errors : o.errors =
    match responses (start + o.attempts - 1) with
    | .completed none _ => []
    | .completed (some error) _ =>
      ["Executing " ++ q.implementation.uri ++ " and benchmark " ++ q.benchmarkId ++
        " failed: " ++ error]
    | .failure message =>
      ["Executing " ++ q.implementation.uri ++ " and benchmark " ++ q.benchmarkId ++
        " failed with a technical error: " ++ message]
  warnings : o.warnings =
    match responses (start + o.attempts - 1) with
    | .completed _ warnings => warnings
    | .failure _ => []

theorem settledBy_settle {policy : BatchOptions} (hmax : 1 ≤ policy.maxAttempts.toNat)
    (responses : ℕ → WorkerResponse) (start : ℕ) (q : WorkerRequest) :
    SettledBy policy responses start q (settle policy (dropResponses start responses) q) := by
  obtain ⟨left, hleft⟩ := Nat.exists_eq_add_of_le' hmax
  have hpos : 1 ≤ blockLength policy.flakySignatures (left + 1)
      (dropResponses start responses) :=
    one_le_blockLength _ left
  obtain ⟨k, hk⟩ := Nat.exists_eq_add_of_le' hpos
  have hblock := natCast_blockLength policy.flakySignatures policy.maxAttempts.toNat
    (dropResponses start responses)
  rw [← hleft] at hk
  rw [hk] at hblock
  have hsettle : settle policy (dropResponses start responses) q =
      .ofResponse q (k + 1) (responses (start + (k + 1) - 1)) := by
    unfold settle
    rw [hk]
    rfl
  rw [hsettle]
  refine ⟨rfl, rfl, hblock, ?_, ?_⟩
  · simp only [PairOutcome.ofResponse]
    cases responses (start + (k + 1) - 1) with
    | failure message => rfl
    | completed error warnings => cases error <;> rfl
  · simp only [PairOutcome.ofResponse]
    cases responses (start + (k + 1) - 1) <;> rfl

namespace SettledBy

variable {policy : BatchOptions} {responses : ℕ → WorkerResponse} {start : ℕ}
  {q : WorkerRequest} {o : PairOutcome}

/-- A pair has no error exactly if its last response has none. -/
theorem errors_eq_nil_iff (h : SettledBy policy responses start q o) :
    o.errors = [] ↔ ∃ warnings, responses (start + o.attempts - 1) = .completed none warnings := by
  rw [h.errors]
  split
  · next warnings hlast => exact ⟨fun _ => ⟨warnings, hlast⟩, fun _ => rfl⟩
  · next hlast => simp [hlast]
  · next hlast => simp [hlast]

end SettledBy

/-! ## All pairs -/

/-- Every pair starts with the response after those of the pairs before it. -/
theorem settledBy_settleAll {policy : BatchOptions} (hmax : 1 ≤ policy.maxAttempts.toNat)
    (responses : ℕ → WorkerResponse) (qs : List WorkerRequest) :
    ∀ {start n : ℕ} {q : WorkerRequest} {o : PairOutcome}, qs[n]? = some q →
      (settleAll policy (dropResponses start responses) qs)[n]? = some o →
      SettledBy policy responses
        (start + attemptsOf ((settleAll policy (dropResponses start responses) qs).take n)) q o := by
  induction qs with
  | nil =>
    intro start n q o hq
    simp at hq
  | cons q₀ rest ih =>
    intro start n q o hq ho
    cases n with
    | zero =>
      obtain rfl : q₀ = q := by simpa using hq
      obtain rfl : settle policy (dropResponses start responses) q₀ = o := by
        simpa [settleAll] using ho
      exact settledBy_settle hmax responses start q₀
    | succ n =>
      rw [settleAll, dropResponses_dropResponses] at ho ⊢
      have htail := ih (by simpa using hq) (by simpa using ho)
      rw [Nat.add_assoc] at htail
      exact htail

/-- The pairs of a batch, all benchmarks of an implementation together. -/
theorem map_settleAll (policy : BatchOptions) (qs : List WorkerRequest) :
    ∀ responses : ℕ → WorkerResponse,
      (settleAll policy responses qs).map (fun o => (o.framework, o.benchmark)) =
        qs.map fun q => (q.implementation.fullName, q.benchmarkId) := by
  induction qs with
  | nil => intro _; rfl
  | cons q rest ih =>
    intro responses
    rw [settleAll, List.map_cons, List.map_cons, ih]
    congr 1
    unfold settle
    split <;> rfl

theorem map_requests (implementations : List Implementation) (benchmarks : List Benchmark)
    (options : RunOptions) :
    (requests implementations benchmarks options).map
        (fun q => (q.implementation.fullName, q.benchmarkId)) =
      implementations.flatMap fun i => benchmarks.map fun b => (i.fullName, b.id) := by
  simp [requests, List.map_flatMap, Function.comp_def]

theorem attemptsOf_append_singleton (outcomes : List PairOutcome) (o : PairOutcome) :
    attemptsOf (outcomes ++ [o]) = attemptsOf outcomes + o.attempts := by
  induction outcomes with
  | nil => exact Nat.add_comm o.attempts 0
  | cons p outcomes ih => rw [List.cons_append, attemptsOf, attemptsOf, ih, Nat.add_assoc]

theorem attemptsOf_take_succ {outcomes : List PairOutcome} {n : ℕ} {o : PairOutcome}
    (h : outcomes[n]? = some o) :
    attemptsOf (outcomes.take (n + 1)) = attemptsOf (outcomes.take n) + o.attempts := by
  rw [List.take_add_one, h, Option.toList_some, attemptsOf_append_singleton]

/-- A batch succeeds exactly if the last response of every pair has no error. -/
theorem isSuccess_iff {policy : BatchOptions} {responses : ℕ → WorkerResponse}
    {qs : List WorkerRequest} {r : Report} (hlength : r.outcomes.length = qs.length)
    (hsettled : ∀ n q o, qs[n]? = some q → r.outcomes[n]? = some o →
      SettledBy policy responses (attemptsOf (r.outcomes.take n)) q o) :
    r.isSuccess = true ↔ ∀ n < r.outcomes.length, ∃ warnings,
      responses (attemptsOf (r.outcomes.take (n + 1)) - 1) = .completed none warnings := by
  have hpair : ∀ n (hn : n < r.outcomes.length), r.outcomes[n].errors = [] ↔ ∃ warnings,
      responses (attemptsOf (r.outcomes.take (n + 1)) - 1) = .completed none warnings := by
    intro n hn
    have ho := List.getElem?_eq_getElem hn
    have hq := List.getElem?_eq_getElem (hlength ▸ hn)
    rw [attemptsOf_take_succ ho]
    exact (hsettled n _ _ hq ho).errors_eq_nil_iff
  rw [Report.isSuccess, List.isEmpty_iff, Report.errors, List.flatMap_eq_nil_iff,
    List.forall_mem_iff_forall_getElem]
  exact forall₂_congr hpair

/-- A batch that goes on after errors has one outcome for every pair, all benchmarks of an
implementation together. Each pair sends its request once for every response of its
block, which starts where the pair before it stopped, and is settled by the block alone.
The batch succeeds exactly if the last response of every pair has no error. -/
theorem outcomes_of_batch {policy : BatchOptions} (hmax : 1 ≤ policy.maxAttempts)
    (hgo : policy.exitOnError = false) (options : RunOptions)
    (implementations : List Implementation) (benchmarks : List Benchmark)
    (responses : ℕ → WorkerResponse) (startedAt : Instant) :
    let qs := requests implementations benchmarks options
    ∃ outcomes,
      (run (replaying responses) policy options implementations benchmarks).run [] =
        (.ok outcomes, dispatched qs outcomes) ∧
      outcomes.map (fun o => (o.framework, o.benchmark)) =
        implementations.flatMap (fun i => benchmarks.map fun b => (i.fullName, b.id)) ∧
      (∀ n q o, qs[n]? = some q → outcomes[n]? = some o →
        SettledBy policy responses (attemptsOf (outcomes.take n)) q o) ∧
      (Report.isSuccess ⟨startedAt, outcomes⟩ = true ↔
        ∀ n < outcomes.length, ∃ warnings,
          responses (attemptsOf (outcomes.take (n + 1)) - 1) = .completed none warnings) := by
  intro qs
  have hmax' : 1 ≤ policy.maxAttempts.toNat := UInt32.le_iff_toNat_le.mp hmax
  have hrun : (run (replaying responses) policy options implementations benchmarks).run [] =
      (.ok _, [] ++ _) :=
    runPairs_of_forall_ok responses policy qs [] rfl fun o _ => by
      rw [hgo, conclude_false]
  have hsettled : ∀ n q o, qs[n]? = some q →
      (settleAll policy (dropResponses 0 responses) qs)[n]? = some o →
      SettledBy policy responses
        (attemptsOf ((settleAll policy (dropResponses 0 responses) qs).take n)) q o := by
    intro n q o hq ho
    have h := settledBy_settleAll hmax' responses qs hq ho
    rwa [Nat.zero_add] at h
  refine ⟨_, hrun, (map_settleAll policy qs _).trans (map_requests ..), hsettled, ?_⟩
  exact isSuccess_iff (length_settleAll policy qs _) hsettled

/-- The second pair starts with the fourth response when the first one passes at its third
attempt. -/
theorem outcomes_of_flaky_batch :
    let i := Implementation.plain "vanillajs" "frameworks/keyed/vanillajs" true none
    let responses : ℕ → WorkerResponse := fun n =>
      if n < 2 then .failure "Server terminated early with status 1"
      else if n = 2 then .completed none ["slow paint"]
      else .failure "spawn failed"
    let batch := (run (replaying responses) .standard .standard [i]
      [.startup ⟨"first", "", "", .startup, none⟩,
        .startup ⟨"second", "", "", .startup, none⟩]).run []
    1 ≤ BatchOptions.standard.maxAttempts ∧ BatchOptions.standard.exitOnError = false ∧
    ∃ first second, batch.1 = .ok [first, second] ∧
      first.attempts = 3 ∧ first.warnings = ["slow paint"] ∧
      SettledBy .standard responses 3 ⟨i, "second", .standard⟩ second := by
  intro i responses batch
  have hmax : 1 ≤ BatchOptions.standard.maxAttempts := by decide
  have hbatch : batch.1 = .ok [
      ⟨"vanillajs-keyed", "first", 3, [], ["slow paint"]⟩,
      ⟨"vanillajs-keyed", "second", 1, ["Executing frameworks/keyed/vanillajs and benchmark " ++
        "second failed with a technical error: spawn failed"], []⟩] := by
    rfl
  obtain ⟨outcomes, hrun, -, hsettled, -⟩ := outcomes_of_batch hmax rfl .standard [i]
    [.startup ⟨"first", "", "", .startup, none⟩, .startup ⟨"second", "", "", .startup, none⟩]
    responses .epoch
  obtain rfl := Except.ok.inj (hbatch.symm.trans (congrArg Prod.fst hrun))
  exact ⟨hmax, rfl, _, _, hbatch, rfl, rfl, hsettled 1 _ _ rfl rfl⟩

end PaintBench.Batch
