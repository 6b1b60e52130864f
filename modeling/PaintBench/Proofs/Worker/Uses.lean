import PaintBench.Proofs.Worker.Plan

/-!
# What workers make use of

While a session is open, a worker makes calls on that session only and never closes it
(`uses_work`). Measuring opens sessions and drops the answers to their
closing, and leaves the disk alone; the disk is worked on when the results are written.
-/

namespace PaintBench

variable {σ α : Type} {u : Usage}

/-- Whether a request closes a session. -/
def Request.IsClose (r : Request) : Prop :=
  ∃ session, r = .call session .close

namespace Usage

/-- Nothing but calls on a session, of which none closes it. -/
def session (k : SessionId) : Usage :=
  .only fun r => ∃ c, c ≠ .close ∧ r = .call k c

/-- Anything but the answers to the closing of sessions. -/
def exceptClosing (writes : Prop) : Usage :=
  ⟨fun r => ¬r.IsClose, Request.IsClose, True, writes⟩

end Usage

theorem Run.Uses.ofPage {session : SessionId} {run : Run σ α} (h : Uses (.page session) run) :
    Uses (.session session) run := by
  refine h.mono ?_ (fun _ => id) id id
  rintro r ⟨c, hdom, rfl⟩
  refine ⟨c, ?_, rfl⟩
  rintro rfl
  cases hdom

theorem Run.Uses.ofSession {session : SessionId} {writes : Prop} {run : Run σ α}
    (h : Uses (.session session) run) : Uses (.exceptClosing writes) run := by
  refine h.mono ?_ (fun _ => False.elim) False.elim False.elim
  rintro r ⟨c, hc, rfl⟩ ⟨session', hclose⟩
  cases hclose
  exact hc rfl

namespace Worker

/-! ## Sessions -/

theorem Part.uses_carryOut (d : Dom) {part : Part} (h : part ≠ .call .close) :
    Hook.Uses (.session d.session) (part.carryOut d : Hook σ Unit) := by
  cases part with
  | start => exact fun _ => .pure _
  | call c => exact .ofAttempt (.discard (.call ⟨c, fun hc => h (congrArg _ hc), rfl⟩))
  | hook phase steps => exact fun captured => (d.uses_runHook steps captured).ofPage

theorem Part.uses_carryOutAll (d : Dom) {plan : List Part}
    (h : ∀ part ∈ plan, part ≠ .call .close) :
    Hook.Uses (.session d.session) (carryOutAll d plan : Hook σ Unit) := by
  induction plan with
  | nil => exact .pure _
  | cons part rest ih =>
    exact .bind (uses_carryOut d (h part (by simp))) fun _ =>
      ih fun part hpart => h part (by simp [hpart])

/-- Sessions are not drained or closed by the parts of an iteration. -/
theorem call_not_mem_iterationPlan {c : Call} (hc : c = .close ∨ c = .drain) (i : Implementation)
    (b : Benchmark) (o : RunOptions) (forceGc : Bool) :
    ∀ part ∈ iterationPlan i b o forceGc, part ≠ .call c := by
  rintro _ hpart rfl
  simp only [iterationPlan, preparePlan, measurePlan, finishPlan] at hpart
  rcases hc with rfl | rfl <;> split at hpart <;> split at hpart <;> simp at hpart

theorem call_not_mem_cpuPlan {c : Call} (hc : c = .close ∨ c = .drain) (i : Implementation)
    (b : Benchmark) (o : RunOptions) : ∀ part ∈ cpuPlan i b o, part ≠ .call c := by
  intro part hpart
  obtain ⟨plan, hplan, hpart⟩ := List.mem_flatten.mp hpart
  rw [List.eq_of_mem_replicate hplan] at hpart
  exact call_not_mem_iterationPlan hc i b o false part hpart

theorem uses_startedWith {hook : Hook σ α} (h : Hook.Uses u hook) (captured : Captured) :
    Attempt.Uses u (hook.startedWith captured) :=
  Run.Uses.bind (h captured) fun _ => .pure _

variable (session : SessionId) (i : Implementation) (b : Benchmark) (o : RunOptions)

theorem uses_drainAll (drains : Nat) : Attempt.Uses (.only (· = .call session .drain))
    (Trace.drainAll session drains : Attempt σ (List (Event Float))) := by
  induction drains with
  | zero => exact Run.Uses.hang
  | succ drains ih =>
    refine .bind (.call rfl) fun batch => ?_
    split
    · exact .pure _
    · exact .bind ih fun _ => .pure _

/-- Collecting a trace only drains the log. -/
theorem uses_collect : Attempt.Uses (.only (· = .call session .drain))
    (Trace.collect session : Attempt σ (List (Event Float))) :=
  .bind (.lift .patience) fun drains => .bind (uses_drainAll session drains) fun _ => .pure _

theorem uses_work {plan : List Part} {measured : List (Event Float) → Except (Soundness Float) α}
    (h : ∀ part ∈ plan, part ≠ .call .close) :
    Attempt.Uses (.session session) (work i o plan measured session : Attempt σ α) := by
  have hcollect : Attempt.Uses (.session session)
      (Trace.collect session : Attempt σ (List (Event Float))) :=
    Run.Uses.mono (uses_collect session) (fun _ hr => ⟨.drain, nofun, hr⟩) (fun _ => id) id id
  exact .bind (uses_startedWith (Part.uses_carryOutAll (Dom.ofSession session i o) h) []) fun _ =>
    .bind hcollect fun _ => .ofExcept _

/-! ## Measuring -/

variable {writes : Prop}

theorem uses_openSession :
    Attempt.Uses ⟨(· = .openSession o), fun _ => False, True, False⟩
      (Attempt.openSession o : Attempt σ SessionId) := by
  refine Run.Uses.bind (.ask rfl) fun answer => ?_
  cases answer with
  | ok => exact Run.Uses.bind (.nextSession trivial) fun _ => .pure _
  | error e => exact Run.Uses.pure _

theorem uses_withSession {work : SessionId → Attempt σ α}
    (h : ∀ session, Attempt.Uses (.session session) (work session)) :
    Attempt.Uses (.exceptClosing writes) (withSession o work) := by
  have hopen : Attempt.Uses (.exceptClosing writes) (Attempt.openSession o : Attempt σ SessionId) := by
    refine Run.Uses.mono (uses_openSession o) ?_ (fun _ => False.elim) id False.elim
    rintro _ rfl ⟨session, hclose⟩
    cases hclose
  exact .bind hopen fun session => Run.Uses.bind (h session).ofSession fun _ =>
    Run.Uses.bind (.askInVain ⟨session, rfl⟩) fun _ => .pure _

theorem uses_measureCpu : Attempt.Uses (.exceptClosing writes)
    (measureCpu i b o : Attempt σ (Trace.CpuSamples Float)) := by
  rw [measureCpu_eq]
  exact uses_withSession o fun session =>
    uses_work session i o (call_not_mem_cpuPlan (Or.inl rfl) i b o)

theorem uses_measureHeap :
    Attempt.Uses (.exceptClosing writes) (measureHeap i b o : Attempt σ Float) := by
  rw [measureHeap_eq]
  refine .bind (uses_withSession o fun session =>
    uses_work session i o (call_not_mem_iterationPlan (Or.inl rfl) i b o true)) fun heaps => ?_
  obtain ⟨heap, -, heq⟩ | ⟨e, heq⟩ := onlyHeap_cases (σ := σ) b heaps <;> rw [heq]
  · exact .pure heap
  · exact .fail e

theorem uses_measureHeaps (n : Nat) :
    Attempt.Uses (.exceptClosing writes) (measureHeaps i b o n : Attempt σ (List Float)) := by
  induction n with
  | zero => exact .pure _
  | succ n ih => exact .bind (uses_measureHeap i b o) fun _ => .bind ih fun _ => .pure _

/-- Audits open no sessions. -/
theorem uses_auditTimes (url : String) (n : Nat) :
    Attempt.Uses (.only fun r => ∃ url, r = .audit url o)
      (auditTimes url o n : Attempt σ (List StartupMetrics)) := by
  induction n with
  | zero => exact .pure _
  | succ n ih => exact .bind (Run.Uses.ask ⟨url, rfl⟩) fun _ => .bind ih fun _ => .pure _

/-! ## Running -/

theorem uses_persist (hwrites : u.writes) (samples : Samples) (expected : Nat) :
    Attempt.Uses u (Attempt.persist o i b samples expected : Attempt σ Unit) := by
  refine Run.Uses.bind (.onDisk _ hwrites) fun outcome => ?_
  split
  · exact .pure _
  · exact .pure _
  · exact .crash _

theorem uses_measureThenWrite {measuring : Attempt σ α} {values : α → List Float}
    {warnings : α → List String} (h : Attempt.Uses (.exceptClosing True) measuring) :
    Run.Uses (.exceptClosing True) (measureThenWrite i b o measuring values warnings) := by
  refine Run.Uses.bind h fun result => ?_
  cases result with
  | error e => exact .pure _
  | ok a => exact .bind (uses_persist i b o trivial _ _) fun _ => .pure _

theorem uses_runBenchmark : Run.Uses (.exceptClosing True)
    (runBenchmark i b o : Run σ (Except RunError Unit × List String)) := by
  cases hkind : b.kind with
  | cpu =>
    rw [runBenchmark_cpu_eq hkind]
    exact uses_measureThenWrite i b o (uses_measureCpu i b o)
  | memory =>
    rw [runBenchmark_memory_eq hkind]
    exact uses_measureThenWrite i b o (uses_measureHeaps i b o _)
  | startup =>
    have haudits : Attempt.Uses (.exceptClosing True)
        (auditTimes (o.urlFor i) o (o.iterationsFor .startup) : Attempt σ (List StartupMetrics)) := by
      refine Run.Uses.mono (uses_auditTimes o _ _) ?_ (fun _ => False.elim) False.elim False.elim
      rintro _ ⟨url, rfl⟩ ⟨session, hclose⟩
      cases hclose
    have hrun : Attempt.Uses (.exceptClosing True) (runStartup i b o : Attempt σ Unit) :=
      .bind haudits fun _ => uses_persist i b o trivial _ _
    rw [runBenchmark, hkind]
    exact .bind hrun fun _ => .pure _

/-- A worker drops the answers to the closing of its sessions. -/
theorem uses_execute (custom : List TimedBenchmark) (q : WorkerRequest) :
    Run.Uses (.exceptClosing True) (execute custom q : Run σ WorkerResponse) := by
  unfold execute
  split
  · exact .pure _
  · split
    · exact .pure _
    · exact .bind (uses_runBenchmark _ _ _) fun _ => .pure _

end Worker

end PaintBench
