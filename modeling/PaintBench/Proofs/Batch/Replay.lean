import PaintBench.Batch.Batch

/-!
# Batches against a sequence of responses

`replaying` answers the dispatches of a batch by a sequence of responses, the n-th one by
the n-th response, and keeps the requests. What a batch makes of the sequence is then a
pure function: `settle` for a pair and `settleAll` for all pairs. A batch that ends with
its first error differs from one that goes on only in `conclude`, which looks at a pair
once it is settled (`runPair_replaying`).
-/

namespace PaintBench.Batch

/-- Answer the n-th dispatch by the n-th response, and keep the requests in their order. -/
def replaying (responses : Nat → WorkerResponse) (q : WorkerRequest) :
    StateM (List WorkerRequest) WorkerResponse :=
  fun log => (responses log.length, log ++ [q])

/-- The sequence without its first elements. -/
def dropResponses (n : Nat) (responses : Nat → WorkerResponse) : Nat → WorkerResponse :=
  fun j => responses (n + j)

theorem dropResponses_dropResponses (m n : Nat) (responses : Nat → WorkerResponse) :
    dropResponses m (dropResponses n responses) = dropResponses (n + m) responses := by
  funext j
  rw [dropResponses, dropResponses, dropResponses, Nat.add_assoc]

/-! ## Judging -/

theorem errorsOf_eq_nil_iff {signatures : List String} {q : WorkerRequest}
    {r : WorkerResponse} : errorsOf q r = [] ↔ judge signatures r = .success := by
  cases r with
  | failure message =>
    by_cases hflaky : isFlaky signatures message <;> simp [errorsOf, judge, hflaky]
  | completed error warnings =>
    cases error with
    | none => simp [errorsOf, judge]
    | some error =>
      by_cases hflaky : isFlaky signatures error <;> simp [errorsOf, judge, hflaky]

/-- What a batch makes of a settled pair: the first error ends it if it is set to end. -/
def conclude (exitOnError : Bool) (o : PairOutcome) : Except Aborted PairOutcome :=
  match o.errors with
  | [] => .ok o
  | e :: _ => if exitOnError then .error ⟨e⟩ else .ok o

theorem conclude_of_errors_eq_nil {o : PairOutcome} (exitOnError : Bool)
    (h : o.errors = []) : conclude exitOnError o = .ok o := by
  rw [conclude, h]

theorem conclude_of_errors_eq_cons {o : PairOutcome} {e : String} {later : List String}
    (exitOnError : Bool) (h : o.errors = e :: later) :
    conclude exitOnError o = if exitOnError then .error ⟨e⟩ else .ok o := by
  rw [conclude, h]

@[simp] theorem conclude_false (o : PairOutcome) : conclude false o = .ok o := by
  unfold conclude
  split <;> rfl

/-! ## One pair -/

/-- How many responses a pair takes from a sequence when it may be tried `left` times. -/
def blockLength (signatures : List String) : Nat → (Nat → WorkerResponse) → Nat
  | 0, _ => 0
  | left + 1, responses =>
    if judge signatures (responses 0) = .flaky then
      blockLength signatures left (dropResponses 1 responses) + 1
    else 1

section

variable {signatures : List String} (responses : Nat → WorkerResponse) (left : Nat)

theorem blockLength_of_flaky (h : judge signatures (responses 0) = .flaky) :
    blockLength signatures (left + 1) responses =
      blockLength signatures left (dropResponses 1 responses) + 1 := by
  rw [blockLength, if_pos h]

theorem blockLength_of_not_flaky (h : judge signatures (responses 0) ≠ .flaky) :
    blockLength signatures (left + 1) responses = 1 := by
  rw [blockLength, if_neg h]

theorem blockLength_one : blockLength signatures 1 responses = 1 := by
  rw [blockLength]
  split <;> rfl

theorem one_le_blockLength : 1 ≤ blockLength signatures (left + 1) responses := by
  rw [blockLength]
  split <;> omega

end

/-- How a pair ends that is answered by a sequence. -/
def settle (policy : BatchOptions) (responses : Nat → WorkerResponse) (q : WorkerRequest) :
    PairOutcome :=
  match blockLength policy.flakySignatures policy.maxAttempts.toNat responses with
  | 0 => .untried q
  | k + 1 => .ofResponse q (k + 1) (responses k)

section

variable (responses : Nat → WorkerResponse) (policy : BatchOptions) (q : WorkerRequest)

/-- An attempt whose verdict stands settles the pair: the verdict is fatal exactly if there
is an error. -/
theorem conclude_ofResponse {last : Bool} {response : WorkerResponse} (attempts : Nat)
    (h : last = true ∨ judge policy.flakySignatures response ≠ .flaky) :
    conclude policy.exitOnError (.ofResponse q attempts response) =
      if policy.exitOnError && isFatal last (judge policy.flakySignatures response) then
        .error ⟨(PairOutcome.ofResponse q attempts response).errors.head?.getD ""⟩
      else .ok (.ofResponse q attempts response) := by
  by_cases hsuccess : judge policy.flakySignatures response = .success
  · have herrors : (PairOutcome.ofResponse q attempts response).errors = [] :=
      errorsOf_eq_nil_iff.mpr hsuccess
    rw [conclude_of_errors_eq_nil _ herrors, hsuccess]
    simp [isFatal]
  · have hfatal : isFatal last (judge policy.flakySignatures response) = true := by
      cases hfound : judge policy.flakySignatures response <;> simp_all [isFatal]
    have herrors : (PairOutcome.ofResponse q attempts response).errors ≠ [] := fun hnil =>
      hsuccess (errorsOf_eq_nil_iff.mp hnil)
    obtain ⟨e, later, he⟩ := List.exists_cons_of_ne_nil herrors
    rw [hfatal, Bool.and_true, conclude_of_errors_eq_cons _ he, he]
    rfl

/-- The last attempt at a pair. -/
theorem tryPair_last {left : Nat} (outcome : PairOutcome) {log : List WorkerRequest}
    (h : left = 0 ∨ judge policy.flakySignatures (responses log.length) ≠ .flaky) :
    tryPair (replaying responses) policy q (left + 1) outcome log =
      (conclude policy.exitOnError
        (.ofResponse q (outcome.attempts + 1) (responses log.length)), log ++ [q]) := by
  rw [conclude_ofResponse policy q _ (h.imp_left beq_iff_eq.mpr), tryPair]
  simp only [bind, StateT.bind, replaying]
  split
  · rfl
  · split
    · next hflaky =>
      obtain rfl : left = 0 := h.resolve_right (absurd hflaky)
      rfl
    · rfl

/-- A flaky attempt is followed by another one while attempts are left. -/
theorem tryPair_retry (left : Nat) (outcome : PairOutcome) {log : List WorkerRequest}
    (h : judge policy.flakySignatures (responses log.length) = .flaky) :
    tryPair (replaying responses) policy q (left + 2) outcome log =
      tryPair (replaying responses) policy q (left + 1)
        (.ofResponse q (outcome.attempts + 1) (responses log.length)) (log ++ [q]) := by
  rw [tryPair]
  simp only [bind, StateT.bind, replaying, h, isFatal]
  rw [if_neg (by simp), if_pos trivial]

/-- Attempts at a pair take the next block of responses, of which only the last one
counts. -/
theorem tryPair_replaying (left : Nat) :
    ∀ (outcome : PairOutcome) (log : List WorkerRequest),
      tryPair (replaying responses) policy q (left + 1) outcome log =
        let rest := dropResponses log.length responses
        let k := blockLength policy.flakySignatures (left + 1) rest
        (conclude policy.exitOnError
          (.ofResponse q (outcome.attempts + k) (rest (k - 1))), log ++ List.replicate k q) := by
  induction left with
  | zero =>
    intro outcome log
    simp only [Nat.zero_add, blockLength_one]
    exact tryPair_last responses policy q outcome (Or.inl rfl)
  | succ left ih =>
    intro outcome log
    by_cases hflaky : judge policy.flakySignatures (responses log.length) = .flaky
    · have hrest : dropResponses (log ++ [q]).length responses =
          dropResponses 1 (dropResponses log.length responses) := by
        rw [dropResponses_dropResponses, List.length_append, List.length_singleton]
      have hk := blockLength_of_flaky (dropResponses log.length responses) (left + 1) hflaky
      have hpos : 1 ≤ blockLength policy.flakySignatures (left + 1)
          (dropResponses 1 (dropResponses log.length responses)) :=
        one_le_blockLength _ left
      obtain ⟨k, hpos⟩ := Nat.exists_eq_add_of_le' hpos
      have hlast : dropResponses 1 (dropResponses log.length responses) (k + 1 - 1) =
          dropResponses log.length responses (k + 1 + 1 - 1) := by
        rw [dropResponses, Nat.add_comm 1]
        rfl
      have hattempts : outcome.attempts + 1 + (k + 1) = outcome.attempts + (k + 1 + 1) := by
        omega
      have hlog : log ++ [q] ++ List.replicate (k + 1) q =
          log ++ List.replicate (k + 1 + 1) q := by
        rw [List.append_assoc, List.replicate_succ (n := k + 1)]
        rfl
      rw [tryPair_retry responses policy q left outcome hflaky, ih, hrest]
      simp only [hk, hpos, PairOutcome.ofResponse, hlast, hattempts, hlog]
    · have hk := blockLength_of_not_flaky (dropResponses log.length responses) (left + 1) hflaky
      simp only [hk]
      exact tryPair_last responses policy q outcome (Or.inr hflaky)

/-- A pair takes a block of responses and is settled by it. -/
theorem runPair_replaying (log : List WorkerRequest) :
    runPair (replaying responses) policy q log =
      let settled := settle policy (dropResponses log.length responses) q
      (conclude policy.exitOnError settled, log ++ List.replicate settled.attempts q) := by
  unfold runPair settle
  cases hm : policy.maxAttempts.toNat with
  | zero =>
    have huntried := conclude_of_errors_eq_nil policy.exitOnError (o := .untried q) rfl
    rw [tryPair, blockLength]
    show (Except.ok _, log) = (conclude policy.exitOnError (.untried q), log ++ [])
    rw [huntried, List.append_nil]
  | succ left =>
    have hpos : 1 ≤ blockLength policy.flakySignatures (left + 1)
        (dropResponses log.length responses) :=
      one_le_blockLength _ left
    obtain ⟨k, hpos⟩ := Nat.exists_eq_add_of_le' hpos
    rw [tryPair_replaying]
    simp only [hpos, PairOutcome.untried, PairOutcome.ofResponse, Nat.zero_add,
      Nat.add_sub_cancel]

end

/-! ## All pairs -/

/-- How pairs end that are answered by a sequence, one after the other. -/
def settleAll (policy : BatchOptions) :
    (Nat → WorkerResponse) → List WorkerRequest → List PairOutcome
  | _, [] => []
  | responses, q :: rest =>
    let settled := settle policy responses q
    settled :: settleAll policy (dropResponses settled.attempts responses) rest

theorem length_settleAll (policy : BatchOptions) (qs : List WorkerRequest) :
    ∀ responses, (settleAll policy responses qs).length = qs.length := by
  induction qs with
  | nil => intro _; rfl
  | cons q rest ih => intro responses; rw [settleAll, List.length_cons, ih, List.length_cons]

/-- The requests that led to some outcomes, one for every attempt. -/
def dispatched : List WorkerRequest → List PairOutcome → List WorkerRequest
  | q :: rest, o :: outcomes => List.replicate o.attempts q ++ dispatched rest outcomes
  | _, _ => []

/-- How many attempts led to some outcomes. -/
def attemptsOf : List PairOutcome → Nat
  | [] => 0
  | o :: outcomes => o.attempts + attemptsOf outcomes

/-- The requests of the first outcomes stand first. -/
theorem take_dispatched (later : List PairOutcome) :
    ∀ (qs : List WorkerRequest) (outcomes : List PairOutcome), outcomes.length ≤ qs.length →
      (dispatched qs (outcomes ++ later)).take (attemptsOf outcomes) = dispatched qs outcomes
  | qs, [], _ => by cases qs <;> rfl
  | q :: rest, o :: outcomes, h => by
    have hrest := take_dispatched later rest outcomes (by simpa using h)
    calc (dispatched (q :: rest) (o :: outcomes ++ later)).take (attemptsOf (o :: outcomes))
      _ = (List.replicate o.attempts q ++ dispatched rest (outcomes ++ later)).take
            ((List.replicate o.attempts q).length + attemptsOf outcomes) := by
          rw [List.length_replicate]
          rfl
      _ = dispatched (q :: rest) (o :: outcomes) := by
          rw [List.take_length_add_append, hrest, dispatched]

section

variable (responses : Nat → WorkerResponse) (policy : BatchOptions)

/-- The responses after those that a pair took. -/
theorem dropResponses_append (log : List WorkerRequest) (n : Nat) (q : WorkerRequest) :
    dropResponses (log ++ List.replicate n q).length responses =
      dropResponses n (dropResponses log.length responses) := by
  rw [dropResponses_dropResponses, List.length_append, List.length_replicate]

/-- A pair that lets the batch go on, and the pairs after it. -/
theorem runPairs_cons_of_ok (q : WorkerRequest) (rest : List WorkerRequest)
    {log : List WorkerRequest} {settled : PairOutcome}
    (hsettled : settle policy (dropResponses log.length responses) q = settled)
    (hok : conclude policy.exitOnError settled = .ok settled) :
    runPairs (replaying responses) policy (q :: rest) log =
      match runPairs (replaying responses) policy rest
          (log ++ List.replicate settled.attempts q) with
      | (.error aborted, log) => (.error aborted, log)
      | (.ok outcomes, log) => (.ok (settled :: outcomes), log) := by
  rw [runPairs]
  simp only [bind, StateT.bind, runPair_replaying, hsettled, hok]
  cases runPairs (replaying responses) policy rest (log ++ List.replicate settled.attempts q) with
  | mk result sent => cases result <;> rfl

/-- A pair that ends the batch. -/
theorem runPairs_cons_of_error (q : WorkerRequest) (rest : List WorkerRequest)
    {log : List WorkerRequest} {settled : PairOutcome} {aborted : Aborted}
    (hsettled : settle policy (dropResponses log.length responses) q = settled)
    (herror : conclude policy.exitOnError settled = .error aborted) :
    runPairs (replaying responses) policy (q :: rest) log =
      (.error aborted, log ++ List.replicate settled.attempts q) := by
  rw [runPairs]
  simp only [bind, StateT.bind, runPair_replaying, hsettled, herror]
  rfl

/-- A batch goes on to its end if every settled pair lets it. -/
theorem runPairs_of_forall_ok (qs : List WorkerRequest) :
    ∀ (log : List WorkerRequest) {outcomes : List PairOutcome},
      settleAll policy (dropResponses log.length responses) qs = outcomes →
      (∀ o ∈ outcomes, conclude policy.exitOnError o = .ok o) →
      runPairs (replaying responses) policy qs log =
        (.ok outcomes, log ++ dispatched qs outcomes) := by
  induction qs with
  | nil =>
    rintro log outcomes rfl -
    rw [runPairs, settleAll]
    show (Except.ok [], log) = (.ok [], log ++ [])
    rw [List.append_nil]
  | cons q rest ih =>
    rintro log outcomes rfl hok
    rw [settleAll] at hok ⊢
    have hhead := hok _ (List.mem_cons_self ..)
    have htail := ih (log ++ List.replicate _ q)
      (congrArg (settleAll policy · rest) (dropResponses_append responses log _ q))
      fun o ho => hok o (List.mem_cons_of_mem _ ho)
    rw [runPairs_cons_of_ok responses policy q rest rfl hhead, htail, dispatched,
      List.append_assoc]

/-- A batch ends with the first settled pair that does not let it go on. -/
theorem runPairs_of_first_error {o : PairOutcome} {later : List PairOutcome}
    {aborted : Aborted} (herror : conclude policy.exitOnError o = .error aborted)
    (before : List PairOutcome) :
    ∀ (log : List WorkerRequest) {qs : List WorkerRequest},
      settleAll policy (dropResponses log.length responses) qs = before ++ o :: later →
      (∀ p ∈ before, conclude policy.exitOnError p = .ok p) →
      runPairs (replaying responses) policy qs log =
        (.error aborted, log ++ dispatched qs (before ++ [o])) := by
  induction before with
  | nil =>
    intro log qs hsettled _
    cases qs with
    | nil => cases hsettled
    | cons q rest =>
      obtain ⟨ho, -⟩ := List.cons.inj hsettled
      rw [runPairs_cons_of_error responses policy q rest ho herror, List.nil_append, dispatched]
      simp [dispatched]
  | cons p before ih =>
    intro log qs hsettled hok
    cases qs with
    | nil => cases hsettled
    | cons q rest =>
      obtain ⟨hp, htail⟩ := List.cons.inj hsettled
      rw [hp, ← dropResponses_append responses log _ q] at htail
      have hrest := ih _ htail fun p' hp' => hok p' (List.mem_cons_of_mem _ hp')
      rw [runPairs_cons_of_ok responses policy q rest hp (hok p (List.mem_cons_self ..)), hrest,
        List.cons_append, dispatched, List.append_assoc]

end

end PaintBench.Batch
