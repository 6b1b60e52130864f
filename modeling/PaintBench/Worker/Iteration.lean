import PaintBench.Catalog.Benchmark
import PaintBench.Page.Hook

/-!
# Iterations

An iteration takes a benchmark once through its phases:

  load the page, mark init, init hook, collect garbage, slow down, mark run, run hook,
  end the slowdown, collect garbage, mark finished, after hook, mark after.

Garbage is collected for memory benchmarks only, and the processor is slowed down for
benchmarks with a rate. The phases are announced in the trace, where the measured part
is found again afterwards.
-/

namespace PaintBench.Worker

variable {σ : Type}

/-- A call whose answer is of no interest. -/
def perform (session : SessionId) (c : Call) : Hook σ Unit :=
  Hook.ofAttempt (discard (Attempt.call session c))

/-- Something done only under a condition. -/
def onlyIf (condition : Bool) (act : Hook σ Unit) : Hook σ Unit :=
  if condition then act else return ()

/-- Load the page and run the init hook. -/
def prepare (session : SessionId) (d : Dom) (i : Implementation) (b : Benchmark)
    (o : RunOptions) (forceGc : Bool) : Hook σ Unit := do
  perform session (.navigate (o.urlFor i))
  perform session (.mark .init)
  d.runHook b.initHook
  onlyIf forceGc (perform session .collectGarbage)

/-- Slow the processor down, if there is a rate. -/
def slowDown (session : SessionId) : Option Float → Hook σ Unit
  | some rate => perform session (.setThrottling rate)
  | none => return ()

/-- Run the run hook with the slowdown of the benchmark. -/
def measure (session : SessionId) (d : Dom) (b : Benchmark) (o : RunOptions) :
    Hook σ Unit := do
  slowDown session b.info.throttle
  perform session (.mark .run)
  d.runHook b.runHook
  onlyIf (b.info.throttle.isSome && o.resetThrottle) (perform session (.setThrottling 1))

/-- Settle the heap and run the after hook. Nothing looks at the heap reading. -/
def finish (session : SessionId) (d : Dom) (b : Benchmark) (forceGc : Bool) :
    Hook σ Unit := do
  onlyIf forceGc do
    perform session .collectGarbage
    perform session .usedHeap
  perform session (.mark .finished)
  d.runHook b.afterHook
  perform session (.mark .after)

/-- Take a benchmark through its phases, with no text captured before. -/
def iterate (session : SessionId) (i : Implementation) (b : Benchmark) (o : RunOptions)
    (forceGc : Bool) : Attempt σ Unit := ExceptT.mk do
  let d := Dom.ofSession session i o
  let phases : Hook σ Unit := do
    prepare session d i b o forceGc
    measure session d b o
    finish session d b forceGc
  let (result, _) ← phases.run []
  return result

end PaintBench.Worker
