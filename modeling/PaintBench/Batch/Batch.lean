import PaintBench.Catalog.Benchmark
import PaintBench.Text.Search
import PaintBench.Worker.Message

/-!
# Batches

A batch takes every pair of an implementation and a benchmark through a worker, one pair
after the other. A flaky attempt is repeated as long as attempts are left, and the last
attempt of a pair counts. An attempt is flaky when the message of its failure contains one of the
known signatures (`judge`). A batch may be set to end with the first error.

Workers are reached through a `dispatch` in any monad.
-/

namespace PaintBench.Batch

/-! ## Judging responses -/

/-- What a response means. -/
inductive Verdict where
  | success
  /-- known to pass at times; worth another attempt -/
  | flaky
  /-- the worker could not run -/
  | technicalFailure
  /-- the run met an error -/
  | runFailed
deriving DecidableEq, Repr

/-- Whether a message contains one of the signatures. -/
def isFlaky (signatures : List String) (message : String) : Bool :=
  signatures.any fun s => Text.occursIn s.toList message.toList

/-- What a response means, given the flaky signatures. -/
def judge (signatures : List String) : WorkerResponse → Verdict
  | .failure message => if isFlaky signatures message then .flaky else .technicalFailure
  | .completed (some error) _ => if isFlaky signatures error then .flaky else .runFailed
  | .completed none _ => .success

/-- The messages of a response about an attempt. -/
def errorsOf (q : WorkerRequest) : WorkerResponse → List String
  | .failure message =>
    ["Executing " ++ q.implementation.uri ++ " and benchmark " ++ q.benchmarkId ++
      " failed with a technical error: " ++ message]
  | .completed (some error) _ =>
    ["Executing " ++ q.implementation.uri ++ " and benchmark " ++ q.benchmarkId ++
      " failed: " ++ error]
  | .completed none _ => []

/-- The warnings of a response. -/
def warningsOf : WorkerResponse → List String
  | .failure _ => []
  | .completed _ warnings => warnings

/-! ## Pairs -/

/-- How a pair ended. -/
structure PairOutcome where
  /-- the full name of the implementation -/
  framework : String
  benchmark : String
  attempts : Nat
  /-- the errors of the last attempt -/
  errors : List String
  /-- the warnings of the last attempt -/
  warnings : List String
deriving DecidableEq, Repr

/-- A batch that ended with the first error, which it carries. -/
structure Aborted where
  error : String
deriving DecidableEq, Repr

/-- The message of a batch that ended early. -/
def Aborted.message (a : Aborted) : String :=
  "Exiting because of an error and exit on error is set: " ++ a.error

/-- A pair before any attempt. -/
def PairOutcome.untried (q : WorkerRequest) : PairOutcome :=
  ⟨q.implementation.fullName, q.benchmarkId, 0, [], []⟩

/-- A pair after an attempt. -/
def PairOutcome.ofResponse (q : WorkerRequest) (attempts : Nat) (r : WorkerResponse) :
    PairOutcome :=
  ⟨q.implementation.fullName, q.benchmarkId, attempts, errorsOf q r, warningsOf r⟩

/-- Whether the verdict on an attempt stands, given whether it was the last one. -/
def isFatal (last : Bool) : Verdict → Bool
  | .success => false
  | .flaky => last
  | .technicalFailure | .runFailed => true

variable {m : Type → Type} [Monad m]

/-- Try a pair, a number of times at most, after the attempts that led to `outcome`. -/
def tryPair (dispatch : WorkerRequest → m WorkerResponse) (policy : BatchOptions)
    (q : WorkerRequest) : Nat → PairOutcome → m (Except Aborted PairOutcome)
  | 0, outcome => return .ok outcome
  | left + 1, outcome => do
    let response ← dispatch q
    let outcome := PairOutcome.ofResponse q (outcome.attempts + 1) response
    let verdict := judge policy.flakySignatures response
    if policy.exitOnError && isFatal (left == 0) verdict then
      return .error ⟨outcome.errors.head?.getD ""⟩
    else if verdict = .flaky then tryPair dispatch policy q left outcome
    else return .ok outcome

/-- Try a pair as often as the policy allows. -/
def runPair (dispatch : WorkerRequest → m WorkerResponse) (policy : BatchOptions)
    (q : WorkerRequest) : m (Except Aborted PairOutcome) :=
  tryPair dispatch policy q policy.maxAttempts.toNat (.untried q)

/-- Try pairs one after the other. -/
def runPairs (dispatch : WorkerRequest → m WorkerResponse) (policy : BatchOptions) :
    List WorkerRequest → m (Except Aborted (List PairOutcome))
  | [] => return .ok []
  | q :: rest => do
    match ← runPair dispatch policy q with
    | .error aborted => return .error aborted
    | .ok outcome =>
      match ← runPairs dispatch policy rest with
      | .error aborted => return .error aborted
      | .ok outcomes => return .ok (outcome :: outcomes)

/-- The requests of a batch, all benchmarks of an implementation together. -/
def requests (implementations : List Implementation) (benchmarks : List Benchmark)
    (options : RunOptions) : List WorkerRequest :=
  implementations.flatMap fun i => benchmarks.map fun b => ⟨i, b.id, options⟩

/-- Run a batch. -/
def run (dispatch : WorkerRequest → m WorkerResponse) (policy : BatchOptions)
    (options : RunOptions) (implementations : List Implementation)
    (benchmarks : List Benchmark) : m (Except Aborted (List PairOutcome)) :=
  runPairs dispatch policy (requests implementations benchmarks options)

end PaintBench.Batch
