import PaintBench.Proofs.Page.Settles
import PaintBench.Proofs.Results.Persist
import PaintBench.Proofs.Trace.Numbers
import PaintBench.Proofs.Worker.Course

/-!
# Workers return

The sessions of a worker are opened, taken through their plan, drained and closed, and each of
these comes to an end in an outside that answers every request and whose logs run out. What is
measured then are numbers (`durations_le_self_of_measureCpu`, `heaps_le_self_of_measureHeaps`,
`findsNumbers_of_auditTimes`), so that writing the results cannot bring the run down either
(`settles_runBenchmark`).
-/

namespace PaintBench

variable {σ α β : Type} {w : World σ}

/-- The log of a session runs out from a time on: it is drained until a batch is empty or a
drain fails. -/
inductive World.RunsOut (w : World σ) (session : SessionId) : Nat → σ → Prop
  | drain {time ms : Nat} {s mid s' : σ} {answer : Except SessionError (List String)}
    (hreceive : w.receive (.call session .drain) s = (.after ms, mid))
    (hanswer : w.answer (.call session .drain) (time + ms) mid = (answer, s'))
    (hrest : ∀ batch, answer = .ok batch → batch ≠ [] → RunsOut w session (time + ms) s') :
    RunsOut w session time s

/-- An outside of a browser and an audit tool that answer. What they answer is up to them, as
long as every log runs out and reports are JSON values, without infinite numbers. -/
structure World.Responsive (w : World σ) : Prop where
  answers : w.Answers
  runsOut : ∀ session time s, w.RunsOut session time s
  reports : ∀ url o time s report, (w.answer (.audit url o) time s).1 = .ok report →
    Json.HasFiniteNumbers report

/-- A request that ends was answered by the outside. -/
theorem Run.exists_answer_of_ask {r : Request} {terms : Terms σ} {s s' : Situation σ}
    {answer : r.Answer} (h : ask r terms s = (.ok answer, s')) :
    ∃ time outside, (terms.world.answer r time outside).1 = answer := by
  rcases hreceive : terms.world.receive r s.outside with ⟨receipt, outside⟩
  obtain ⟨halt, now, hlate⟩ := hang_apply (α := r.Answer) terms { s with outside }
  cases receipt with
  | crash text =>
    rw [ask_of_crash hreceive] at h
    cases h
  | never =>
    rw [ask_of_never hreceive, hlate] at h
    cases h
  | after ms =>
    rw [ask_of_after hreceive, hlate] at h
    split at h <;> cases h
    exact ⟨s.now + ms, outside, rfl⟩

namespace Worker

/-! ## Sessions -/

theorem ends_openSession (hw : w.Answers) (o : RunOptions) :
    Attempt.Ends w none (Attempt.openSession o : Attempt σ SessionId) := by
  refine Run.Ends.bind (.ask hw _) fun answer => ?_
  cases answer with
  | ok => exact Run.Ends.bind .nextSession fun _ => .pure _
  | error e => exact Run.Ends.pure _

theorem ends_release (hw : w.Answers) (session : SessionId) :
    Run.Ends w none (release session : Run σ Unit) :=
  .bind (.ask hw _) fun _ => .pure _

theorem Part.settles_carryOut (hw : w.Answers) (d : Dom) (part : Part) :
    Hook.Settles w (part.carryOut d : Hook σ Unit) := by
  cases part with
  | start => exact fun _ => .pure _
  | call c => exact .ofAttempt (Attempt.Ends.discard (.call hw _ _)).settles
  | hook phase steps => exact d.settles_runHook hw steps

theorem Part.settles_carryOutAll (hw : w.Answers) (d : Dom) (plan : List Part) :
    Hook.Settles w (carryOutAll d plan : Hook σ Unit) := by
  induction plan with
  | nil => exact .pure _
  | cons part rest ih => exact .bind (settles_carryOut hw d part) fun _ => ih

theorem settles_startedWith {hook : Hook σ α} (h : Hook.Settles w hook) (captured : Captured) :
    Attempt.Settles w (hook.startedWith captured) := by
  refine Run.Settles.bind (h captured) (fun result _ => .pure _) ?_
  rintro ⟨_, captured⟩ ⟨e, rfl⟩ patience s
  exact ⟨_, s, rfl, e, rfl⟩

/-- A log that runs out is drained alike by all drains that are enough. -/
theorem exists_drainAll {session : SessionId} {time : Nat} {outside : σ}
    (h : w.RunsOut session time outside) {s : Situation σ} (htime : s.now = time)
    (houtside : s.outside = outside) :
    ∃ enough result s', ∀ drains ≥ enough, ∀ patience,
      (Trace.drainAll session drains : Attempt σ (List (Event Float))).run
        ⟨w, none, patience⟩ s = (.ok result, s') := by
  induction h generalizing s with
  | @drain time ms outside mid outside' answer hreceive hanswer hrest ih =>
    subst htime houtside
    obtain ⟨drained, hdrained⟩ : ∃ drained : Situation σ, drained = { s with
      now := s.now + ms
      outside := outside'
      journal := ⟨s.now + ms, .call session .drain, answer⟩ :: s.journal } := ⟨_, rfl⟩
    have hcall (patience : Nat) : (Attempt.call session .drain : Attempt σ _).run
        ⟨w, none, patience⟩ s = (.ok (answer.mapError .session), drained) :=
      hdrained ▸ Attempt.call_of_after hreceive hanswer patience
    cases answer with
    | error e =>
      refine ⟨1, .error (.session e), drained, fun drains hdrains patience => ?_⟩
      obtain ⟨drains, rfl⟩ := Nat.exists_eq_add_of_le' hdrains
      exact Run.bind_eq_ok_iff.mpr ⟨_, drained, hcall patience, rfl⟩
    | ok batch =>
      cases batch with
      | nil =>
        refine ⟨1, .ok [], drained, fun drains hdrains patience => ?_⟩
        obtain ⟨drains, rfl⟩ := Nat.exists_eq_add_of_le' hdrains
        exact Run.bind_eq_ok_iff.mpr ⟨_, drained, hcall patience, rfl⟩
      | cons record batch =>
        obtain ⟨enough, result, s', hlater⟩ :=
          ih (record :: batch) rfl (List.cons_ne_nil _ _) (s := drained) (by rw [hdrained])
            (by rw [hdrained])
        refine ⟨enough + 1, result.map ((record :: batch).filterMap Trace.classify ++ ·), s',
          fun drains hdrains patience => ?_⟩
        obtain ⟨drains, rfl⟩ := Nat.exists_eq_add_of_le' (Nat.le_of_add_left_le hdrains)
        refine Run.bind_eq_ok_iff.mpr ⟨_, drained, hcall patience, ?_⟩
        refine Run.bind_eq_ok_iff.mpr ⟨result, s', hlater _ (by omega) patience, ?_⟩
        cases result <;> rfl

theorem settles_collect (h : ∀ session time s, w.RunsOut session time s) (session : SessionId) :
    Attempt.Settles w (Trace.collect session : Attempt σ (List (Event Float))) := by
  intro s
  obtain ⟨enough, result, s', hdrain⟩ := exists_drainAll (h session s.now s.outside) rfl rfl
  have hcollect (patience : Nat) (hpatience : patience ≥ enough) :
      (Trace.collect session : Attempt σ (List (Event Float))).run ⟨w, none, patience⟩ s =
        (.ok (result.map Trace.chronological), s') := by
    have hdrains : (ExceptT.lift Run.patience : Attempt σ Nat).run ⟨w, none, patience⟩ s =
        (.ok (.ok patience), s) := rfl
    rw [Trace.collect]
    refine Attempt.bind_of_ok hdrains ?_
    refine Run.bind_eq_ok_iff.mpr ⟨result, s', hdrain patience hpatience patience, ?_⟩
    cases result <;> rfl
  exact ⟨enough, Or.inl ⟨_, s', hcollect⟩⟩

theorem settles_work (hw : w.Responsive) (i : Implementation) (o : RunOptions) (plan : List Part)
    (measured : List (Event Float) → Except (Soundness Float) α) (session : SessionId) :
    Attempt.Settles w (work i o plan measured session : Attempt σ α) :=
  .bind (settles_startedWith
    (Part.settles_carryOutAll hw.answers (Dom.ofSession session i o) plan) []) fun _ _ =>
      .bind (settles_collect hw.runsOut session) fun _ _ => .ofExcept _

theorem settles_withSession (hw : w.Answers) (o : RunOptions) {work : SessionId → Attempt σ α}
    (h : ∀ session, Attempt.Settles w (work session)) :
    Attempt.Settles w (withSession o work) := by
  refine .bind (ends_openSession hw o).settles fun session _ => ?_
  refine Run.Settles.bind (h session) (fun result _ => ?_) ?_
  · exact (Run.Ends.bind (ends_release hw session) fun _ => .pure _).settles
  · rintro _ ⟨e, rfl⟩ patience s
    obtain ⟨⟨⟩, s', hrelease⟩ := (ends_release hw session).returns s
    exact ⟨_, s', Run.bind_eq_ok_iff.mpr ⟨(), s', hrelease patience, rfl⟩, e, rfl⟩

/-! ## Measuring -/

variable (i : Implementation) (b : Benchmark) (o : RunOptions)

theorem settles_measureCpu (hw : w.Responsive) :
    Attempt.Settles w (measureCpu i b o : Attempt σ (Trace.CpuSamples Float)) := by
  rw [measureCpu_eq]
  exact settles_withSession hw.answers o fun session => settles_work hw i o _ _ session

theorem settles_measureHeaps (hw : w.Responsive) (n : Nat) :
    Attempt.Settles w (measureHeaps i b o n : Attempt σ (List Float)) := by
  induction n with
  | zero => exact Run.Settles.pure _
  | succ n ih =>
    refine .bind ?_ fun heap _ => .bind ih fun heaps _ => Run.Settles.pure _
    rw [measureHeap_eq]
    refine .bind (settles_withSession hw.answers o fun session =>
      settles_work hw i o _ _ session) fun heaps _ => ?_
    obtain ⟨heap, -, heq⟩ | ⟨e, heq⟩ := onlyHeap_cases (σ := σ) b heaps <;> rw [heq] <;>
      exact Run.Settles.pure _

theorem ends_auditTimes (hw : w.Answers) (url : String) (n : Nat) :
    Attempt.Ends w none (auditTimes url o n : Attempt σ (List StartupMetrics)) := by
  induction n with
  | zero => exact .pure _
  | succ n ih =>
    exact .bind (Run.Ends.ask hw (.audit url o)) fun _ => .bind ih fun _ => .pure _

/-! ## Numbers -/

/-- What a session of its own yields was measured from events of a log. -/
theorem measured_of_withSession {plan : List Part}
    {measured : List (Event Float) → Except (Soundness Float) α} {a : α}
    (hclose : ∀ part ∈ plan, part ≠ .call .close) (hdrain : ∀ part ∈ plan, part ≠ .call .drain)
    (h : (withSession o (work i o plan measured) : Attempt σ α).run.Yields w (.ok a)) :
    ∃ events, (∀ e ∈ events, Trace.Measurable e) ∧ measured events = .ok a := by
  obtain ⟨patience, s, s', hrun⟩ := h
  obtain ⟨-, e, herror⟩ | ⟨opened, deeds, drains, close, hcourse⟩ := withSession_cases hclose hrun
  · cases herror
  · refine ⟨_, fun e he => ?_, hcourse.measured_eventsOf hdrain⟩
    obtain ⟨text, -, hclassify⟩ := List.mem_filterMap.mp (List.mem_mergeSort.mp he)
    exact Trace.measurable_of_classify hclassify

theorem durations_le_self_of_measureCpu {samples : Trace.CpuSamples Float}
    (h : (measureCpu i b o : Attempt σ (Trace.CpuSamples Float)).run.Yields w (.ok samples)) :
    ∀ x ∈ samples.durations, x ≤ x := by
  rw [measureCpu_eq] at h
  obtain ⟨events, hevents, hmeasured⟩ := measured_of_withSession i o
    (call_not_mem_cpuPlan (Or.inl rfl) i b o) (call_not_mem_cpuPlan (Or.inr rfl) i b o) h
  exact Trace.durations_le_self (fun e he => (hevents e he).times) hmeasured

theorem heap_le_self_of_measureHeap {heap : Float}
    (h : (measureHeap i b o : Attempt σ Float).run.Yields w (.ok heap)) : heap ≤ heap := by
  rw [measureHeap_eq] at h
  obtain ⟨patience, s, s', hrun⟩ := h
  obtain ⟨e, -, herror⟩ | ⟨heaps, mid, hsession, honly⟩ := Attempt.bind_cases hrun
  · cases herror
  · obtain ⟨events, hevents, hmeasured⟩ := measured_of_withSession i o
      (call_not_mem_iterationPlan (Or.inl rfl) i b o true)
      (call_not_mem_iterationPlan (Or.inr rfl) i b o true) ⟨_, _, _, hsession⟩
    obtain ⟨only, rfl, heq⟩ | ⟨e, heq⟩ := onlyHeap_cases (σ := σ) b heaps <;> rw [heq] at honly
    · cases honly
      exact Trace.heaps_le_self hevents hmeasured heap (List.mem_singleton_self heap)
    · cases honly

theorem heaps_le_self_of_measureHeaps {n : Nat} {heaps : List Float}
    (h : (measureHeaps i b o n : Attempt σ (List Float)).run.Yields w (.ok heaps)) :
    ∀ x ∈ heaps, x ≤ x := by
  obtain ⟨patience, s, s', hrun⟩ := h
  induction n generalizing s heaps with
  | zero =>
    cases hrun
    exact List.forall_mem_nil _
  | succ n ih =>
    obtain ⟨e, -, herror⟩ | ⟨heap, mid, hheap, hrest⟩ := Attempt.bind_cases hrun
    · cases herror
    · obtain ⟨e, -, herror⟩ | ⟨heaps', mid', hheaps, hreturn⟩ := Attempt.bind_cases hrest
      · cases herror
      · cases hreturn
        intro x hx
        rcases List.mem_cons.mp hx with rfl | hx
        · exact heap_le_self_of_measureHeap i b o ⟨_, _, _, hheap⟩
        · exact ih _ hheaps x hx

/-- Metrics are those of reports. -/
theorem reports_of_auditTimes (hw : w.Responsive) {url : String} {n : Nat}
    {reports : List StartupMetrics}
    (h : (auditTimes url o n : Attempt σ (List StartupMetrics)).run.Yields w (.ok reports)) :
    ∀ metrics ∈ reports, ∃ report, Json.HasFiniteNumbers report ∧
      metrics = StartupMetrics.ofReport report := by
  obtain ⟨patience, s, s', hrun⟩ := h
  induction n generalizing s reports with
  | zero =>
    cases hrun
    exact List.forall_mem_nil _
  | succ n ih =>
    obtain ⟨e, -, herror⟩ | ⟨report, mid, haudit, hrest⟩ := Attempt.bind_cases hrun
    · cases herror
    · obtain ⟨e, -, herror⟩ | ⟨reports', mid', hreports, hreturn⟩ := Attempt.bind_cases hrest
      · cases herror
      · cases hreturn
        intro metrics hmetrics
        rcases List.mem_cons.mp hmetrics with rfl | hmetrics
        · refine ⟨report, ?_, rfl⟩
          obtain ⟨time, outside, hanswer⟩ := Run.exists_answer_of_ask (r := .audit url o) haudit
          exact hw.reports url o time outside report hanswer
        · exact ih _ hreports metrics hmetrics

/-- Audits report numbers. -/
theorem findsNumbers_of_auditTimes (hw : w.Responsive) {url : String} {n : Nat}
    {reports : List StartupMetrics}
    (h : (auditTimes url o n : Attempt σ (List StartupMetrics)).run.Yields w (.ok reports)) :
    b.FindsNumbers (.startup reports) := by
  refine Benchmark.findsNumbers_startup fun metrics hmetrics metric x hget => ?_
  obtain ⟨report, hfinite, rfl⟩ := reports_of_auditTimes o hw h metrics hmetrics
  exact StartupMetrics.get_ofReport_le_self hfinite hget

/-! ## Running -/

/-- Writing numbers returns. -/
theorem ends_persist {samples : Samples} (h : b.FindsNumbers samples) (expected : Nat) :
    Attempt.Ends w none (Attempt.persist o i b samples expected : Attempt σ Unit) := by
  intro s
  rcases hpersist : (ResultWriter.ofOptions o).persist i b samples expected s.disk with
    ⟨outcome, disk⟩
  cases outcome with
  | written paths => exact ⟨_, _, fun patience => persist_apply hpersist, trivial⟩
  | failed e => exact ⟨_, _, fun patience => persist_apply hpersist, trivial⟩
  | unordered range =>
    exact absurd (congrArg (·.1) hpersist) (ResultWriter.persist_ne_unordered h s.disk range)

theorem settles_measureThenWrite {measuring : Attempt σ α} {values : α → List Float}
    {warnings : α → List String} (h : Attempt.Settles w measuring)
    (hvalues : ∀ a, measuring.run.Yields w (.ok a) → b.FindsNumbers (.timed (values a))) :
    Run.Settles w (fun _ => True) (measureThenWrite i b o measuring values warnings) := by
  refine Run.Settles.bind h (fun result hyields => ?_) ?_
  · cases result with
    | error e => exact .pure _
    | ok a =>
      refine (Run.Ends.bind ?_ fun _ => .pure _).settles
      exact ends_persist i b o (hvalues a hyields) _
  · rintro _ ⟨e, rfl⟩ patience s
    exact ⟨_, s, rfl, trivial⟩

/-- Running a benchmark returns. -/
theorem settles_runBenchmark (hw : w.Responsive) : Run.Settles w (fun _ => True)
    (runBenchmark i b o : Run σ (Except RunError Unit × List String)) := by
  cases hkind : b.kind with
  | cpu =>
    rw [runBenchmark_cpu_eq hkind]
    exact settles_measureThenWrite i b o (settles_measureCpu i b o hw) fun samples hyields =>
      Benchmark.findsNumbers_timed (durations_le_self_of_measureCpu i b o hyields)
  | memory =>
    rw [runBenchmark_memory_eq hkind]
    exact settles_measureThenWrite i b o (settles_measureHeaps i b o hw _) fun heaps hyields =>
      Benchmark.findsNumbers_timed (heaps_le_self_of_measureHeaps i b o hyields)
  | startup =>
    have hrun : Attempt.Settles w (runStartup i b o : Attempt σ Unit) :=
      .bind (ends_auditTimes o hw.answers _ _).settles fun reports hyields =>
        (ends_persist i b o (findsNumbers_of_auditTimes b o hw hyields) _).settles
    rw [runBenchmark, hkind]
    exact Run.Settles.bind hrun (fun _ _ => .pure _) fun _ _ _ s => ⟨_, s, rfl, trivial⟩

end Worker

end PaintBench
