import PaintBench.Proofs.Page.Uses
import PaintBench.Worker.Worker

/-!
# The plan of a session

What a session is taken through is known beforehand: `iterationPlan` lists the calls and
hooks of an iteration. An iteration carries out its plan up to the first failure
(`iterate_eq`), and several iterations carry out their plans one after the other
(`iterateTimes_eq`). Both kinds of sessions are a plan followed by a measurement of the trace
(`measureCpu_eq`, `measureHeap_eq`).
-/

namespace PaintBench

variable {σ α β : Type}

namespace Hook

/-- A hook as an attempt, after some captured texts. -/
def startedWith (captured : Captured) (hook : Hook σ α) : Attempt σ α := ExceptT.mk do
  let (result, _) ← hook.run.run captured
  return result

/-- A second step that does not care for the captured texts of the first one. -/
theorem startedWith_bind {hook : Hook σ α} {next : α → Hook σ β} {act : α → Attempt σ β}
    (h : ∀ a captured, (next a).startedWith captured = act a) (captured : Captured) :
    (hook >>= next).startedWith captured = hook.startedWith captured >>= act := by
  have hnext : (hook >>= next).startedWith captured = ExceptT.mk (do
      let x ← hook.run.run captured
      ExceptT.bindCont (fun a => (next a).startedWith x.2) x.1) := by
    refine ExceptT.ext ?_
    change (do
      let x ← (do
        let (result, captured') ← hook.run.run captured
        (ExceptT.bindCont next result).run captured')
      return x.1) = _
    rw [bind_assoc]
    refine bind_congr fun x => ?_
    rcases x with ⟨a | e, captured'⟩ <;> rfl
  rw [hnext]
  refine ExceptT.ext ?_
  change _ = (do
    let x ← (do
      let (result, _) ← hook.run.run captured
      return result)
    ExceptT.bindCont act x)
  rw [bind_assoc]
  refine bind_congr fun x => ?_
  rcases x with ⟨e | a, captured'⟩
  · rfl
  · exact congrArg ExceptT.run (h a captured')

/-- Know of no captured text. -/
def forget : Hook σ Unit := ExceptT.mk fun _ => return (.ok (), [])

end Hook

namespace Worker

/-- A part of what a session is taken through. -/
inductive Part where
  /-- an iteration starts, with no text captured -/
  | start
  | call (c : Call)
  /-- the hook after the marker of a phase -/
  | hook (phase : Phase) (steps : List Step)

namespace Part

/-- Carry out a part. -/
def carryOut (d : Dom) : Part → Hook σ Unit
  | start => Hook.forget
  | call c => perform d.session c
  | hook _ steps => d.runHook steps

/-- Carry out parts one after the other, up to the first failure. -/
def carryOutAll (d : Dom) : List Part → Hook σ Unit
  | [] => return ()
  | part :: rest => do
    part.carryOut d
    carryOutAll d rest

theorem carryOutAll_append (d : Dom) (plan rest : List Part) :
    (carryOutAll d (plan ++ rest) : Hook σ Unit) =
      carryOutAll d plan >>= fun _ => carryOutAll d rest := by
  induction plan with
  | nil => rw [List.nil_append, carryOutAll, pure_bind]
  | cons part plan ih => rw [List.cons_append, carryOutAll, carryOutAll, ih, bind_assoc]

end Part

/-! ## Iterations -/

section

variable (i : Implementation) (b : Benchmark) (o : RunOptions) (forceGc : Bool)

/-- The parts up to the init hook, and the collection after it. -/
def preparePlan : List Part :=
  [.call (.navigate (o.urlFor i)), .call (.mark .init), .hook .init b.initHook] ++
    if forceGc then [.call .collectGarbage] else []

/-- The run hook, and the slowdown around it. -/
def measurePlan : List Part :=
  b.info.throttle.toList.map (fun rate => .call (.setThrottling rate)) ++
    [.call (.mark .run), .hook .run b.runHook] ++
    if b.info.throttle.isSome && o.resetThrottle then [.call (.setThrottling 1)] else []

/-- The collection after the run hook, and the parts from there on. -/
def finishPlan : List Part :=
  (if forceGc then [.call .collectGarbage, .call .usedHeap] else []) ++
    [.call (.mark .finished), .hook .finished b.afterHook, .call (.mark .after)]

/-- The parts of an iteration. -/
def iterationPlan : List Part :=
  .start :: (preparePlan i b o forceGc ++ (measurePlan b o ++ finishPlan b forceGc))

end

variable {d : Dom} {i : Implementation} {b : Benchmark} {o : RunOptions}

theorem prepare_eq (forceGc : Bool) :
    (prepare d.session d i b o forceGc : Hook σ Unit) =
      Part.carryOutAll d (preparePlan i b o forceGc) := by
  cases forceGc <;>
    simp [prepare, preparePlan, Part.carryOutAll, Part.carryOut, onlyIf]

theorem measure_eq :
    (measure d.session d b o : Hook σ Unit) = Part.carryOutAll d (measurePlan b o) := by
  cases hthrottle : b.info.throttle <;> cases hreset : o.resetThrottle <;>
    simp [measure, measurePlan, slowDown, Part.carryOutAll, Part.carryOut, onlyIf, hthrottle,
      hreset]

theorem finish_eq (forceGc : Bool) :
    (finish d.session d b forceGc : Hook σ Unit) =
      Part.carryOutAll d (finishPlan b forceGc) := by
  cases forceGc <;>
    simp [finish, finishPlan, Part.carryOutAll, Part.carryOut, onlyIf]

/-- An iteration carries out its plan, whatever was captured before. -/
theorem iterate_eq (session : SessionId) (forceGc : Bool) (captured : Captured) :
    (iterate session i b o forceGc : Attempt σ Unit) =
      (Part.carryOutAll (Dom.ofSession session i o) (iterationPlan i b o forceGc)).startedWith
        captured := by
  have hphases : (do
      prepare session (Dom.ofSession session i o) i b o forceGc
      measure session (Dom.ofSession session i o) b o
      finish session (Dom.ofSession session i o) b forceGc : Hook σ Unit) =
      Part.carryOutAll (Dom.ofSession session i o) (preparePlan i b o forceGc ++
        (measurePlan b o ++ finishPlan b forceGc)) := by
    rw [Part.carryOutAll_append, Part.carryOutAll_append, ← prepare_eq, ← measure_eq,
      ← finish_eq]
    rfl
  change Hook.startedWith [] _ = _
  rw [hphases]
  rfl

/-- Iterations carry out their plans one after the other, each without the texts captured in
the ones before. -/
theorem iterateTimes_eq (session : SessionId) (n : Nat) : ∀ captured : Captured,
    (iterateTimes session i b o n : Attempt σ Unit) =
      (Part.carryOutAll (Dom.ofSession session i o)
        (List.replicate n (iterationPlan i b o false)).flatten).startedWith captured := by
  induction n with
  | zero => intro captured; rfl
  | succ n ih =>
    intro captured
    rw [List.replicate_succ, List.flatten_cons, Part.carryOutAll_append, iterateTimes,
      iterate_eq session false captured]
    exact (Hook.startedWith_bind (fun _ captured => (ih captured).symm) captured).symm

/-! ## Sessions -/

/-- What is done in a session: a plan is carried out, and the events of the trace are measured. -/
def work (i : Implementation) (o : RunOptions) (plan : List Part)
    (measured : List (Event Float) → Except (Soundness Float) α) (session : SessionId) :
    Attempt σ α := do
  (Part.carryOutAll (Dom.ofSession session i o) plan).startedWith []
  let events ← Trace.collect session
  sound (measured events)

/-- The parts of a session of a cpu benchmark. -/
def cpuPlan (i : Implementation) (b : Benchmark) (o : RunOptions) : List Part :=
  (List.replicate (o.iterationsFor .cpu) (iterationPlan i b o false)).flatten

/-- The parts of a session of a memory benchmark. -/
def memoryPlan (i : Implementation) (b : Benchmark) (o : RunOptions) : List Part :=
  iterationPlan i b o true

theorem measureCpu_eq : (measureCpu i b o : Attempt σ (Trace.CpuSamples Float)) =
    withSession o (work i o (cpuPlan i b o) fun events =>
      Trace.cpuDurations events (o.iterationsFor .cpu) (limitsOf o)) := by
  rw [measureCpu]
  refine congrArg (withSession o) (funext fun session => ?_)
  rw [iterateTimes_eq session (o.iterationsFor .cpu) []]
  rfl

/-- The heap of a session, which has to be the only one found. -/
def onlyHeap (b : Benchmark) : List Float → Attempt σ Float
  | [heap] => return heap
  | heaps => .fail (.soundness (.sampleCount b.id 1 heaps.length))

theorem onlyHeap_cases (b : Benchmark) (heaps : List Float) :
    (∃ heap, heaps = [heap] ∧ (onlyHeap b heaps : Attempt σ Float) = pure heap) ∨
      ∃ e, (onlyHeap b heaps : Attempt σ Float) = .fail e := by
  rcases heaps with _ | ⟨heap, _ | _⟩
  · exact Or.inr ⟨_, rfl⟩
  · exact Or.inl ⟨heap, rfl, rfl⟩
  · exact Or.inr ⟨_, rfl⟩

theorem measureHeap_eq : (measureHeap i b o : Attempt σ Float) =
    withSession o (work i o (memoryPlan i b o) Trace.memorySamples) >>= onlyHeap b := by
  have hwork : (fun session => do
      iterate session i b o true
      let events ← Trace.collect session
      sound (Trace.memorySamples events) : SessionId → Attempt σ (List Float)) =
      work i o (memoryPlan i b o) Trace.memorySamples := by
    funext session
    rw [iterate_eq session true []]
    rfl
  rw [measureHeap, hwork]
  exact bind_congr fun
    | [] | [_] | _ :: _ :: _ => rfl

/-! ## Runs -/

/-- Measure, and write the values that were measured. The warnings stand even when the values
cannot be written. -/
def measureThenWrite (i : Implementation) (b : Benchmark) (o : RunOptions) (measuring : Attempt σ α)
    (values : α → List Float) (warnings : α → List String) :
    Run σ (Except RunError Unit × List String) := do
  match ← measuring.run with
  | .error e => return (.error e, [])
  | .ok a =>
    let written ← (Attempt.persist o i b (.timed (values a)) (o.iterationsFor b.kind)).run
    return (written, warnings a)

theorem runBenchmark_cpu_eq (hkind : b.kind = .cpu) :
    (runBenchmark i b o : Run σ (Except RunError Unit × List String)) =
      measureThenWrite i b o (measureCpu i b o) (·.durations) fun samples =>
        samples.warnings.map (paintWarning i b.id) := by
  rw [runBenchmark, measureThenWrite, hkind]
  change runCpu i b o = _
  rw [runCpu]
  refine bind_congr fun samples => ?_
  cases samples <;> rfl

theorem runBenchmark_memory_eq (hkind : b.kind = .memory) :
    (runBenchmark i b o : Run σ (Except RunError Unit × List String)) =
      measureThenWrite i b o (measureHeaps i b o (o.iterationsFor .memory)) id fun _ => [] := by
  rw [runBenchmark, measureThenWrite, hkind]
  change ((measureHeaps i b o (o.iterationsFor .memory)).run >>= ExceptT.bindCont _) >>= _ = _
  rw [bind_assoc]
  refine bind_congr fun heaps => ?_
  cases heaps <;> rfl

end Worker

end PaintBench
