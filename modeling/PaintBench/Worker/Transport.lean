import PaintBench.Process.Command
import PaintBench.Text.Quoted
import PaintBench.Text.Utf8
import PaintBench.Worker.Worker

/-!
# Reaching a worker

A batch reaches its worker in one of two ways. Inside the program every attempt is a task of
its own, so that a worker that is brought down is a failure of that attempt and of nothing
else (`Worker.dispatch`). Or the worker is a process of its own, which answers the request on
its input in just this way (`Worker.serve`); its response is the last line of its output that
is not blank, and whatever goes wrong with the process is a failure of the attempt
(`WorkerProcess.dispatch`).
-/

namespace PaintBench

/-- A worker: the outside that opens its sessions and audits its pages, and what it knows. -/
structure Worker (σ : Type) where
  world : World σ
  /-- the benchmarks beside the standard suite -/
  custom : List TimedBenchmark
  /-- how often a loop without any other bound is repeated -/
  patience : Nat

/-- What a worker finds, and what it leaves. -/
structure Surroundings (σ : Type) where
  outside : σ
  disk : Disk

namespace Worker

variable {σ α : Type}

/-! ## Inside the program -/

/-- Carry out a run on a clock of its own. -/
def carryOut (w : Worker σ) (run : Run σ α) : StateM (Surroundings σ) (Except Halt α) := fun s =>
  let (result, left) := Run.outcome run ⟨w.world, none, w.patience⟩ (.start s.outside s.disk)
  (result, ⟨left.outside, left.disk⟩)

/-- The failure of a worker that was brought down. Tasks are numbered by the runtime of the
program. -/
def crashed (task : Nat) (text : String) : WorkerResponse :=
  .failure (s!"worker task failed: task {task} panicked with message " ++
    String.ofList (Text.quoted text.toList))

/-- The response of a task, if it ever ends. -/
def response? (task : Nat) : Except Halt WorkerResponse → Option WorkerResponse
  | .ok response => some response
  | .error (.crashed text) => some (crashed task text)
  | .error .stuck | .error .expired => none

/-- Act on a request in a task of its own. -/
def dispatch (w : Worker σ) (task : Nat) (q : WorkerRequest) :
    StateM (Surroundings σ) (Option WorkerResponse) := do
  let result ← w.carryOut (execute w.custom q)
  return response? task result

/-! ## On the input of a process -/

/-- How a worker ends that answers the request on its input. -/
inductive Ending where
  | answered (r : WorkerResponse)
  /-- what stands on the input is no request -/
  | refused
  /-- it never ends -/
  | endless
deriving DecidableEq, Repr

namespace Ending

/-- The answer of a task. -/
def ofResponse : Option WorkerResponse → Ending
  | some r => answered r
  | none => endless

/-- The exit code and the output of a worker that ends. -/
def output? : Ending → Option (Nat × List Char)
  | answered r => some (0, r.line)
  | refused => some (1, [])
  | endless => none

end Ending

/-- Answer the request on the input. -/
def serve (w : Worker σ) (task : Nat) (input : List Char) : StateM (Surroundings σ) Ending :=
  match (WorkerRequest.receive input).1 with
  | .nothing => return .answered (.failure "no request received")
  | .unreadable => return .refused
  | .request q => return .ofResponse (← w.dispatch task q)

end Worker

/-! ## As a process -/

namespace WorkerProcess

/-- The command that hands a request to a worker. -/
def command (program : String) (args : List String) (q : WorkerRequest) : Command where
  program
  args
  chromePath := none
  input := q.line

/-- The response of a worker process. -/
def response (program : String) (limit : Duration) : ChildOutcome → WorkerResponse
  | .notStarted reason => .failure ("failed to spawn worker " ++ program ++ ": " ++ reason)
  | .timedOut => .failure ("worker killed after " ++ limit.text ++ " timeout")
  | .finished status output _ =>
    match WorkerResponse.ofOutput? (Text.Utf8.decodeLossy output) with
    | none => .failure ("worker exited with " ++ status.message ++ " without a response")
    | some none => .failure "unreadable worker response"
    | some (some r) => r

/-- Hand a request to a worker process. -/
def dispatch {σ : Type} (host : Host σ) (program : String) (args : List String)
    (limit : Duration) (q : WorkerRequest) (s : σ) : WorkerResponse × σ :=
  let (child, s) := host.start (command program args q) limit s
  (response program limit child.outcome, s)

end WorkerProcess

end PaintBench
