import PaintBench.Proofs.Result
import PaintBench.Proofs.Session.Occupancy
import PaintBench.Proofs.Worker.Uses

/-!
# Sessions of a worker

A worker has at most one session open, and closes every session it opened, once and last
(`sessions_of_execute`). How a session closes makes no difference to the response or to the
disk.
-/

namespace PaintBench

variable {σ α : Type}

/-! ## An outside for examples -/

/-- A reply without any news. -/
def Call.plainReply : (c : Call) → c.Reply
  | .navigate _ | .click _ | .mark _ | .collectGarbage | .setThrottling _ | .close => ()
  | .documentBody | .shadowRoot _ | .query .. => some (0 : Node)
  | .text _ => ""
  | .attributeOf .. => (none : Option String)
  | .usedHeap => (0 : Float)
  | .drain => ([] : List String)

/-- An outside in which every call works out, except that sessions may fail to close. The log
of a session has some records, once; the state tells whether it still has them. -/
def World.steady (records : List String) (closing : Except SessionError Unit) : World Bool where
  receive _ fresh := (.after 0, fresh)
  answer
    | .openSession _, _, _ => (.ok (), true)
    | .call _ .close, _, fresh => (closing, fresh)
    | .call _ .drain, _, fresh => (.ok (if fresh then records else []), false)
    | .call _ c, _, fresh => (.ok c.plainReply, fresh)
    | .audit .., _, fresh => (.error (.audit "no report"), fresh)

/-- How sessions close makes no other difference. -/
theorem World.AgreeBut.steady (records : List String) (closing closing' : Except SessionError Unit) :
    AgreeBut Request.IsClose (World.steady records closing) (.steady records closing') where
  receive := rfl
  state r _ _ := by
    cases r with
    | call k c => cases c <;> rfl
    | openSession | audit => rfl
  answer r hr _ _ := by
    cases r with
    | call k c =>
      cases c with
      | close => exact absurd ⟨k, rfl⟩ hr
      | _ => rfl
    | openSession | audit => rfl

namespace Worker

theorem attends_openSession (o : RunOptions) :
    Run.Attends (Attempt.openSession o : Attempt σ SessionId).run none
      (fun | .ok session => some session | .error _ => none) 1 1 := by
  intro terms s
  rw [Attempt.openSession_apply]
  obtain ⟨answer, now, outside, h⟩ | ⟨halt, now, outside, h⟩ :=
    Run.ask_cases (.openSession o) terms s
  · rw [h]
    cases answer with
    | ok =>
      refine ⟨[_], _, rfl, .cons (.opens s.sessions now o) (.nil _), rfl, Nat.le_refl 1, ?_⟩
      rintro _ ⟨⟩
      exact ⟨rfl, Nat.le_refl 1⟩
    | error e =>
      refine ⟨[_], _, rfl, .cons (.refuses s.sessions now o e) (.nil _), rfl, Nat.le_refl 1, ?_⟩
      rintro _ ⟨⟩
      exact ⟨rfl, Nat.le_refl 1⟩
  · rw [h]
    exact ⟨[], _, rfl, .nil _, rfl, Nat.zero_le 1, nofun⟩

theorem attends_release (session : SessionId) :
    Run.Attends (release session : Run σ Unit) (some session) (fun _ => none) 0 0 := by
  intro terms s
  rw [release, Run.discard_eq, Run.bind_apply]
  obtain ⟨answer, now, outside, h⟩ | ⟨halt, now, outside, h⟩ :=
    Run.ask_cases (.call session .close) terms s
  · rw [h]
    exact ⟨[_], _, rfl, .cons (.closes s.sessions now session answer) (.nil _), rfl,
      Nat.le_refl 0, fun _ _ => ⟨rfl, Nat.le_refl 0⟩⟩
  · rw [h]
    exact ⟨[], _, rfl, .nil _, rfl, Nat.le_refl 0, nofun⟩

/-- What works on an open session leaves it open. -/
theorem attends_ofSession {session : SessionId} {run : Run σ α}
    (h : Run.Uses (.session session) run) :
    Run.Attends run (some session) (fun _ => some session) 0 0 := by
  refine .ofUses h id fun n time r answer hr => ?_
  obtain ⟨c, hc, rfl⟩ | hr := hr
  · exact .calls n time session answer hc
  · exact hr.elim

/-- A session of its own is closed again, whatever was done with it. -/
theorem attends_withSession (o : RunOptions) {work : SessionId → Attempt σ α}
    (h : ∀ session, Attempt.Uses (.session session) (work session)) :
    Run.Attends (withSession o work).run none (fun _ => none) 1 1 := by
  refine (attends_openSession o).bindIdle fun result => ?_
  cases result with
  | ok session =>
    exact (attends_ofSession (h session)).bind fun _ => (attends_release session).bind fun _ =>
      .pure rfl
  | error e => exact .pure rfl

variable (i : Implementation) (b : Benchmark) (o : RunOptions)

theorem attends_persist (samples : Samples) (expected : Nat) :
    Run.Attends (Attempt.persist o i b samples expected : Attempt σ Unit).run none
      (fun _ => none) 0 0 :=
  .ofUses (uses_persist (u := ⟨fun _ => False, fun _ => False, False, True⟩) i b o trivial samples
    expected) id fun _ _ _ _ hr => (hr.elim id id).elim

theorem attends_measureThenWrite {measuring : Attempt σ α} {values : α → List Float}
    {warnings : α → List String} {least most : Nat}
    (h : Run.Attends measuring.run none (fun _ => none) least most) :
    Run.Attends (measureThenWrite i b o measuring values warnings) none (fun _ => none) least
      most := by
  refine h.bindIdle fun result => ?_
  cases result with
  | error e => exact .pure rfl
  | ok a => exact (attends_persist i b o _ _).bind fun _ => .pure rfl

theorem attends_measureCpu :
    Run.Attends (measureCpu i b o : Attempt σ (Trace.CpuSamples Float)).run none
      (fun _ => none) 1 1 := by
  rw [measureCpu_eq]
  exact attends_withSession o fun session =>
    uses_work session i o (call_not_mem_cpuPlan (Or.inl rfl) i b o)

theorem attends_measureHeap :
    Run.Attends (measureHeap i b o : Attempt σ Float).run none (fun _ => none) 1 1 := by
  have hheap (heaps : List Float) :
      Run.Attends (onlyHeap b heaps : Attempt σ Float).run none (fun _ => none) 0 0 := by
    obtain ⟨heap, -, heq⟩ | ⟨e, heq⟩ := onlyHeap_cases (σ := σ) b heaps <;> rw [heq] <;>
      exact .pure rfl
  rw [measureHeap_eq]
  exact (attends_withSession o fun session =>
    uses_work session i o (call_not_mem_iterationPlan (Or.inl rfl) i b o true)).attempt hheap

theorem attends_measureHeaps (n : Nat) :
    Run.Attends (measureHeaps i b o n : Attempt σ (List Float)).run none (fun _ => none) 0 n := by
  induction n with
  | zero => exact .pure rfl
  | succ n ih =>
    have hnext := ((attends_measureHeap i b o).mono (Nat.zero_le 1) (Nat.le_refl 1)).attempt
      fun heap => ih.attempt fun heaps => .pure (a := .ok (heap :: heaps)) rfl
    exact hnext.mono (Nat.le_refl 0) (Nat.le_of_eq (Nat.add_comm 1 n))

theorem attends_runStartup :
    Run.Attends (runStartup i b o : Attempt σ Unit).run none (fun _ => none) 0 0 := by
  have haudits : Run.Attends (auditTimes (o.urlFor i) o (o.iterationsFor .startup) :
      Attempt σ (List StartupMetrics)).run none (fun _ => none) 0 0 := by
    refine .ofUses (uses_auditTimes o _ _) id fun n time r answer hr => ?_
    obtain ⟨url, rfl⟩ := hr.resolve_right id
    exact .audits n time url o answer
  exact haudits.attempt fun _ => attends_persist i b o _ _

/-- How many sessions a run that returns has asked for at least. -/
def leastSessions (b : Benchmark) : Nat :=
  match b.kind with
  | .cpu => 1
  | .memory | .startup => 0

/-- How many sessions a run asks for at most. -/
def mostSessions (b : Benchmark) (o : RunOptions) : Nat :=
  match b.kind with
  | .cpu => 1
  | .memory => o.iterationsFor .memory
  | .startup => 0

/-- The number of sessions depends on the kind of the benchmark. -/
theorem attends_runBenchmark :
    Run.Attends (runBenchmark i b o : Run σ (Except RunError Unit × List String)) none
      (fun _ => none) (leastSessions b) (mostSessions b o) := by
  rw [leastSessions, mostSessions]
  cases hkind : b.kind with
  | cpu =>
    rw [runBenchmark_cpu_eq hkind]
    exact attends_measureThenWrite i b o (attends_measureCpu i b o)
  | memory =>
    rw [runBenchmark_memory_eq hkind]
    exact attends_measureThenWrite i b o (attends_measureHeaps i b o _)
  | startup =>
    rw [runBenchmark, hkind]
    exact (attends_runStartup i b o).bindIdle fun _ => .pure rfl

/-! ## Requests -/

/-- The benchmark a request is for, if it is known. -/
def target (custom : List TimedBenchmark) (q : WorkerRequest) : Option Benchmark :=
  (Catalog.withCustom q.options custom).toOption.bind (·.get q.benchmarkId)

/-- A request for no known benchmark fails. Any other one runs its benchmark. -/
theorem execute_eq (custom : List TimedBenchmark) (q : WorkerRequest) :
    (∃ text, (execute custom q : Run σ WorkerResponse) = pure (.failure text) ∧
      target custom q = none) ∨
    ∃ b, target custom q = some b ∧ (execute custom q : Run σ WorkerResponse) =
      runBenchmark q.implementation b q.options >>= fun result => pure (respond result) := by
  unfold execute target
  cases Catalog.withCustom q.options custom with
  | error e => exact Or.inl ⟨e.message, rfl, rfl⟩
  | ok catalog =>
    cases hget : catalog.get q.benchmarkId with
    | none =>
      exact Or.inl ⟨(RunError.unknownBenchmark q.benchmarkId).message, by simp only [hget], hget⟩
    | some b => exact Or.inr ⟨b, hget, by simp only [hget]⟩

/-- What a request for a known benchmark does is to run it. -/
theorem execute_of_target {custom : List TimedBenchmark} {q : WorkerRequest} {b : Benchmark}
    (h : target custom q = some b) : (execute custom q : Run σ WorkerResponse) =
      runBenchmark q.implementation b q.options >>= fun result => pure (respond result) := by
  obtain ⟨text, -, hnone⟩ | ⟨b', hsome, hexecute⟩ := execute_eq (σ := σ) custom q
  · rw [h] at hnone
    cases hnone
  · obtain rfl : b = b' := Option.some.inj (h.symm.trans hsome)
    exact hexecute

/-- A request for a known benchmark is answered with how its run ended. -/
theorem outcome_of_target {custom : List TimedBenchmark} {q : WorkerRequest} {b : Benchmark}
    (h : target custom q = some b) (terms : Terms σ) (s : Situation σ) :
    (execute custom q).outcome terms s =
      ((runBenchmark q.implementation b q.options terms s).1.map respond,
        (runBenchmark q.implementation b q.options terms s).2) := by
  rw [Run.outcome, execute_of_target h, Run.bind_apply]
  rcases runBenchmark q.implementation b q.options terms s with ⟨halt | result, s'⟩ <;> rfl

/-- No session leaks. How many are asked for depends on the kind of the benchmark, and how they
close makes no difference to the response or to the disk. -/
theorem sessions_of_execute (custom : List TimedBenchmark) (q : WorkerRequest) (terms : Terms σ)
    (outside : σ) (disk : Disk) :
    let result := ((execute custom q).outcome terms (.start outside disk)).1
    let s := ((execute custom q).outcome terms (.start outside disk)).2
    let asked := s.journal.reverse.countP Exchange.asksForSession
    OrderlySessions s.journal.reverse s.sessions (∃ response, result = .ok response) ∧
    (∀ b, target custom q = some b →
      (b.kind = .cpu → asked ≤ 1 ∧ ((∃ response, result = .ok response) → asked = 1)) ∧
      (b.kind = .memory → asked ≤ q.options.iterationsFor .memory) ∧
      (b.kind = .startup → asked = 0)) ∧
    (target custom q = none → asked = 0) ∧
    ∀ w, terms.world.AgreeBut Request.IsClose w →
      ((execute custom q).outcome { terms with world := w } (.start outside disk)).1 = result ∧
      ((execute custom q).outcome { terms with world := w } (.start outside disk)).2.disk =
        s.disk := by
  dsimp only
  have hsame (w : World σ) (hw : terms.world.AgreeBut Request.IsClose w) :
      ((execute custom q).outcome { terms with world := w } (.start outside disk)).1 =
        ((execute custom q).outcome terms (.start outside disk)).1 ∧
      ((execute custom q).outcome { terms with world := w } (.start outside disk)).2.disk =
        ((execute custom q).outcome terms (.start outside disk)).2.disk := by
    obtain ⟨journal, hrun⟩ :=
      (uses_execute custom q).sameIn (fun _ => id) hw (.start outside disk) []
    exact ⟨congrArg (·.1) hrun, congrArg (·.2.disk) hrun⟩
  obtain ⟨text, hexecute, hnone⟩ | ⟨b, hsome, hexecute⟩ := execute_eq custom q
  · have hattends : Run.Attends (execute custom q : Run σ WorkerResponse) none (fun _ => none) 0 0 :=
      hexecute ▸ .pure rfl
    refine ⟨hattends.orderly terms outside disk, ?_, fun _ => ?_, hsame⟩
    · intro b hsome
      rw [hnone] at hsome
      cases hsome
    · exact Nat.le_zero.mp (hattends.countP_asksForSession terms outside disk).1
  · have hattends : Run.Attends (execute custom q : Run σ WorkerResponse) none (fun _ => none)
        (leastSessions b) (mostSessions b q.options) :=
      hexecute ▸ (attends_runBenchmark q.implementation b q.options).bindIdle fun _ => .pure rfl
    obtain ⟨hmost, hleast⟩ := hattends.countP_asksForSession terms outside disk
    refine ⟨hattends.orderly terms outside disk, ?_, ?_, hsame⟩
    · intro b' hb'
      obtain rfl : b = b' := Option.some.inj (hsome.symm.trans hb')
      refine ⟨fun hkind => ?_, fun hkind => ?_, fun hkind => ?_⟩ <;>
        simp only [leastSessions, mostSessions, hkind] at hmost hleast
      · exact ⟨hmost, fun hreturn => Nat.le_antisymm hmost (hleast hreturn)⟩
      · exact hmost
      · exact Nat.le_zero.mp hmost
    · intro hnone
      rw [hsome] at hnone
      cases hnone

/-! ### An example -/

/-- A benchmark of the kind memory without any steps. -/
def idleHeap : TimedBenchmark :=
  ⟨⟨"idle-heap", "idle", "", .memory, none⟩, [], [], []⟩

/-- A request for two iterations of it. -/
def idleRequest : WorkerRequest :=
  ⟨.plain "vanilla" "vanilla" true none, "idle-heap",
    { RunOptions.standard with repeatRunMemory := 2 }⟩

/-- Terms under which no garbage collection is seen, and sessions may fail to close. -/
def silentTerms (closing : Except SessionError Unit) : Terms Bool :=
  ⟨.steady [] closing, none, 1⟩

/-- The first of two sessions yields no sample, so there is no second one, and that the first
one cannot be closed makes no difference. -/
theorem sessions_of_idle_execute :
    let run := (execute [idleHeap] idleRequest).outcome (silentTerms (.error .closed))
      (.start true (.empty []))
    target [idleHeap] idleRequest = some (.timed idleHeap) ∧ run.2.sessions = 1 ∧
      ClosedLast run.2.journal.reverse 0 ∧
      run.2.journal.reverse.countP Exchange.asksForSession ≤ 2 ∧
      ((execute [idleHeap] idleRequest).outcome (silentTerms (.ok ()))
        (.start true (.empty []))).1 = run.1 := by
  have hknown : target [idleHeap] idleRequest = some (.timed idleHeap) := rfl
  have hrun : ((execute [idleHeap] idleRequest).outcome (silentTerms (.error .closed))
      (.start true (.empty []))).1.isOk ∧
      ((execute [idleHeap] idleRequest).outcome (silentTerms (.error .closed))
        (.start true (.empty []))).2.sessions = 1 := by decide +kernel
  obtain ⟨hreturned, hsessions⟩ := hrun
  obtain ⟨horderly, hkinds, -, hsame⟩ :=
    sessions_of_execute [idleHeap] idleRequest (silentTerms (.error .closed)) true (.empty [])
  refine ⟨hknown, hsessions, ?_, (hkinds _ hknown).2.1 rfl, (hsame _ (.steady [] _ _)).1⟩
  exact horderly.closed (exists_of_isOk hreturned) 0 (by rw [hsessions]; decide)

end Worker

end PaintBench
