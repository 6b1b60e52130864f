import PaintBench.Proofs.Worker.Files

/-!
# Readings of the heap in use

After the run hook of a memory benchmark the heap in use is read, and nothing looks at what
was read. So two outsides that differ in these readings make no difference to a request, as
long as no reading fails (`heap_reading_counts_only_if_failed`). A reading that fails does
matter: it ends the benchmark with its error before anything is written.

`Run.IgnoresReadings` says both of a part of a run and follows the way runs are put together.
-/

namespace PaintBench

variable {σ α β : Type}

/-- Whether a request reads the heap in use. -/
def Request.ReadsHeap (r : Request) : Prop :=
  ∃ session, r = .call session .usedHeap

/-- How a reading of the heap in use failed, if it did. -/
def Exchange.readingFailure? : Exchange → Option SessionError
  | ⟨_, .call _ .usedHeap, .error e⟩ => some e
  | _ => none

theorem Exchange.readsHeap_of_readingFailure {e : Exchange} {error : SessionError}
    (h : e.readingFailure? = some error) : e.request.ReadsHeap := by
  unfold readingFailure? at h
  split at h
  · exact ⟨_, rfl⟩
  · cases h

/-- The failure of a result, if it is one. -/
def failure? : Except RunError α → Option RunError
  | .ok _ => none
  | .error e => some e

/-- Anything at all. -/
def Usage.anything : Usage :=
  ⟨fun _ => True, fun _ => True, True, True⟩

/-- An outside in which the heap in use reads differently. -/
def World.withReadings (w : World σ) (reading : Except SessionError Float) : World σ :=
  { w with
    answer
      | .call k .usedHeap, time, s => (reading, (w.answer (.call k .usedHeap) time s).2)
      | r, time, s => w.answer r time s }

theorem World.AgreeBut.withReadings (w : World σ) (reading : Except SessionError Float) :
    AgreeBut Request.ReadsHeap w (w.withReadings reading) where
  receive := rfl
  state r _ _ := by
    cases r with
    | call k c => cases c <;> rfl
    | openSession | audit => rfl
  answer r hr _ _ := by
    cases r with
    | call k c =>
      cases c with
      | usedHeap => exact absurd ⟨k, rfl⟩ hr
      | _ => rfl
    | openSession | audit => rfl

/-- A reading failed between two situations. -/
def ReadingFailed (s s' : Situation σ) : Prop :=
  ∃ trace, Asked s trace s' ∧ ∃ e ∈ trace, e.readingFailure? ≠ none

namespace Run

/-- A run does the same in another outside, unless a reading fails in one of them. -/
def SameUnlessFailing (w : World σ) (run : Run σ α) (terms : Terms σ) (s : Situation σ) : Prop :=
  ∀ journal, ReadingFailed s (run terms s).2 ∨
    ReadingFailed { s with journal } (run { terms with world := w } { s with journal }).2 ∨
    ∃ journal', run { terms with world := w } { s with journal } =
      ((run terms s).1, { (run terms s).2 with journal := journal' })

/-- What was read makes no difference to a run, but that a reading failed is how it fails. -/
structure IgnoresReadings (failure? : α → Option RunError) (run : Run σ α) : Prop where
  uses : Uses .anything run
  same {terms : Terms σ} {w : World σ} (hagree : terms.world.AgreeBut Request.ReadsHeap w)
    (s : Situation σ) : SameUnlessFailing w run terms s
  fails {terms : Terms σ} {s s' : Situation σ} {a : α} {trace : List Exchange} {e : Exchange}
    {error : SessionError} (h : run terms s = (.ok a, s')) (hasked : Asked s trace s')
    (he : e ∈ trace) (herror : e.readingFailure? = some error) :
    failure? a = some (.session error)

end Run

/-- Steps before and after do not undo that a reading failed. -/
theorem ReadingFailed.after {s mid s' : Situation σ} {trace : List Exchange}
    (h : ReadingFailed s mid) (hasked : Asked mid trace s') : ReadingFailed s s' := by
  obtain ⟨before, hbefore, e, he, herror⟩ := h
  exact ⟨_, hbefore.trans hasked, e, List.mem_append_left _ he, herror⟩

theorem ReadingFailed.before {s mid s' : Situation σ} {trace : List Exchange}
    (hasked : Asked s trace mid) (h : ReadingFailed mid s') : ReadingFailed s s' := by
  obtain ⟨after, hafter, e, he, herror⟩ := h
  exact ⟨_, hasked.trans hafter, e, List.mem_append_right _ he, herror⟩

namespace Run

theorem Uses.toAnything {u : Usage} {run : Run σ α} (h : Uses u run) : Uses .anything run :=
  h.mono (fun _ _ => trivial) (fun _ _ => trivial) (fun _ => trivial) fun _ => trivial

variable {w : World σ} {terms : Terms σ} {s : Situation σ}

theorem Uses.asked {u : Usage} {run : Run σ α} (h : Uses u run) (terms : Terms σ)
    (s : Situation σ) : ∃ trace, Asked s trace (run terms s).2 :=
  (h.leads terms s).imp fun _ hleads => hleads.asked

theorem readingFailed_bind {run : Run σ α} {next : α → Run σ β}
    (hnext : ∀ a, Uses .anything (next a)) (h : ReadingFailed s (run terms s).2) :
    ReadingFailed s ((run >>= next) terms s).2 := by
  rw [bind_apply]
  split
  · next a mid hrun =>
    rw [hrun] at h
    obtain ⟨trace, hasked⟩ := (hnext a).asked terms mid
    exact h.after hasked
  · next halt mid hrun =>
    rw [hrun] at h
    exact h

theorem SameUnlessFailing.bind {run : Run σ α} {next : α → Run σ β}
    (huses : Uses .anything run) (hnextUses : ∀ a, Uses .anything (next a))
    (h : SameUnlessFailing w run terms s) (hnext : ∀ a s, SameUnlessFailing w (next a) terms s) :
    SameUnlessFailing w (run >>= next) terms s := by
  intro journal
  rcases h journal with hfailed | hfailed | ⟨journal', hrun'⟩
  · exact Or.inl (readingFailed_bind hnextUses hfailed)
  · exact Or.inr (Or.inl (readingFailed_bind hnextUses hfailed))
  · obtain ⟨trace, hasked⟩ := huses.asked terms s
    obtain ⟨trace', hasked'⟩ := huses.asked { terms with world := w } { s with journal }
    rw [hrun'] at hasked'
    simp only [bind_apply, hrun']
    rcases hrun : run terms s with ⟨halt | a, mid⟩
    · exact Or.inr (Or.inr ⟨journal', rfl⟩)
    · rw [hrun] at hasked hasked'
      rcases hnext a mid journal' with hfailed | hfailed | hsame
      · exact Or.inl (hfailed.before hasked)
      · exact Or.inr (Or.inl (hfailed.before hasked'))
      · exact Or.inr (Or.inr hsame)

namespace IgnoresReadings

/-- What does not read the heap. -/
theorem ofUses {u : Usage} {failure? : α → Option RunError} {run : Run σ α} (h : Uses u run)
    (hreads : ∀ r, u.heeds r ∨ u.ignores r → ¬r.ReadsHeap) : IgnoresReadings failure? run where
  uses := h.toAnything
  same hagree s journal :=
    Or.inr (Or.inr (h.sameIn (fun r hr => hreads r (Or.inl hr)) hagree s journal))
  fails {terms s s' a trace e error} hrun hasked he herror := by
    obtain ⟨trace', hleads⟩ := h.leads terms s
    rw [hrun] at hleads
    obtain rfl := hleads.asked.unique hasked
    exact absurd (e.readsHeap_of_readingFailure herror) (hreads _ (hleads.used e he))

theorem pure {failure? : α → Option RunError} (a : α) :
    IgnoresReadings failure? (Pure.pure a : Run σ α) :=
  ofUses (u := .only fun _ => False) (.pure a) fun _ h => (h.elim id id).elim

/-- A second step that fails as the first one did. -/
theorem bind {first? : α → Option RunError} {second? : β → Option RunError} {run : Run σ α}
    {next : α → Run σ β} (h : IgnoresReadings first? run)
    (hnext : ∀ a, IgnoresReadings second? (next a))
    (hstop : ∀ a error, first? a = some error → ∀ terms s b s', next a terms s = (.ok b, s') →
      second? b = some error) : IgnoresReadings second? (run >>= next) where
  uses := .bind h.uses fun a => (hnext a).uses
  same hagree s := (h.same hagree s).bind h.uses (fun a => (hnext a).uses) fun a mid =>
    (hnext a).same hagree mid
  fails {terms s s' b trace e error} hbind hasked he herror := by
    obtain ⟨a, mid, hrun, hrest⟩ := bind_eq_ok_iff.mp hbind
    obtain ⟨before, hbefore⟩ := h.uses.asked terms s
    obtain ⟨after, hafter⟩ := (hnext a).uses.asked terms mid
    rw [hrun] at hbefore
    rw [hrest] at hafter
    rw [hasked.unique (hbefore.trans hafter)] at he
    rcases List.mem_append.mp he with he | he
    · exact hstop a _ (h.fails hrun hbefore he herror) terms mid b s' hrest
    · exact (hnext a).fails hrest hafter he herror

end IgnoresReadings

end Run

/-! ## Attempts and hooks -/

/-- An attempt that ignores readings, but fails as they fail. -/
def Attempt.IgnoresReadings (act : Attempt σ α) : Prop :=
  Run.IgnoresReadings failure? act.run

/-- Of a call whose answer is of no interest only the failure is left. -/
theorem Attempt.discard_call_run (session : SessionId) (c : Call) :
    (discard (Attempt.call session c) : Attempt σ Unit).run =
      Run.ask (.call session c) >>= fun answer =>
        pure (Except.map (fun _ => ()) (Except.mapError RunError.session answer)) := by
  change (Run.ask (.call session c) >>= fun answer => pure (Except.mapError _ answer)) >>= _ = _
  rw [bind_assoc]
  refine bind_congr fun answer => ?_
  cases answer <;> rfl

namespace Attempt.IgnoresReadings

theorem ofUses {u : Usage} {act : Attempt σ α} (h : Attempt.Uses u act)
    (hreads : ∀ r, u.heeds r ∨ u.ignores r → ¬r.ReadsHeap) : Attempt.IgnoresReadings act :=
  Run.IgnoresReadings.ofUses h hreads

theorem bind {act : Attempt σ α} {next : α → Attempt σ β} (h : Attempt.IgnoresReadings act)
    (hnext : ∀ a, Attempt.IgnoresReadings (next a)) :
    Attempt.IgnoresReadings (act >>= next) := by
  refine Run.IgnoresReadings.bind h (fun result => ?_) ?_
  · cases result with
    | ok a => exact hnext a
    | error e => exact .pure _
  · rintro (e | a) error ⟨⟩ terms s b s' ⟨⟩
    rfl

/-- A reading whose value is dropped: nothing is left of it but how it failed. -/
theorem reading (session : SessionId) :
    Attempt.IgnoresReadings (discard (Attempt.call session .usedHeap) : Attempt σ Unit) where
  uses := Run.Uses.toAnything (u := .only fun _ => True) (Attempt.Uses.discard (.call trivial))
  same {terms w} hagree s journal := by
    rw [discard_call_run]
    simp only [Run.bind_apply]
    obtain ⟨halt, mid, journal', h, h'⟩ | ⟨answer, answer', mid, journal', h, h', -⟩ :=
      Run.ask_agree hagree (.call session .usedHeap) s journal
    · exact Or.inr (Or.inr ⟨journal', by rw [h, h']⟩)
    · obtain ⟨⟨now, hasked⟩, -⟩ := Run.answer_of_ask h
      obtain ⟨⟨now', hasked'⟩, -⟩ := Run.answer_of_ask h'
      rw [h, h']
      cases answer with
      | error e => exact Or.inl ⟨_, hasked, _, List.mem_singleton_self _, nofun⟩
      | ok value =>
        cases answer' with
        | error e => exact Or.inr (Or.inl ⟨_, hasked', _, List.mem_singleton_self _, nofun⟩)
        | ok value' => exact Or.inr (Or.inr ⟨journal', rfl⟩)
  fails {terms s s' result trace e error} hrun hasked he herror := by
    obtain ⟨reply, hcall, rfl⟩ := Attempt.discard_cases hrun
    obtain ⟨now, answer, hasked', rfl⟩ := Attempt.answer_of_call hcall
    obtain rfl := hasked.unique hasked'
    obtain rfl := List.mem_singleton.mp he
    cases answer with
    | ok value => cases herror
    | error e =>
      cases herror
      rfl

end Attempt.IgnoresReadings

/-- A hook that ignores readings, whatever was captured before. -/
def Hook.IgnoresReadings (hook : Hook σ α) : Prop :=
  ∀ captured, Run.IgnoresReadings (fun x => failure? x.1) (hook.run.run captured)

namespace Hook.IgnoresReadings

theorem ofUses {u : Usage} {hook : Hook σ α} (h : Hook.Uses u hook)
    (hreads : ∀ r, u.heeds r ∨ u.ignores r → ¬r.ReadsHeap) : Hook.IgnoresReadings hook :=
  fun captured => .ofUses (h captured) hreads

theorem bind {hook : Hook σ α} {next : α → Hook σ β} (h : Hook.IgnoresReadings hook)
    (hnext : ∀ a, Hook.IgnoresReadings (next a)) : Hook.IgnoresReadings (hook >>= next) := by
  intro captured
  refine Run.IgnoresReadings.bind (h captured) (fun x => ?_) ?_
  · rcases x with ⟨e | a, captured⟩
    · exact .pure _
    · exact hnext a captured
  · rintro ⟨e | a, captured⟩ error ⟨⟩ terms s b s' ⟨⟩
    rfl

theorem ofAttempt {act : Attempt σ α} (h : Attempt.IgnoresReadings act) :
    Hook.IgnoresReadings (Hook.ofAttempt act) := by
  intro captured
  refine Run.IgnoresReadings.bind h (fun result => .pure _) ?_
  rintro result error hfailed terms s b s' ⟨⟩
  exact hfailed

theorem startedWith {hook : Hook σ α} (h : Hook.IgnoresReadings hook) (captured : Captured) :
    Attempt.IgnoresReadings (hook.startedWith captured) := by
  refine Run.IgnoresReadings.bind (h captured) (fun x => .pure _) ?_
  rintro x error hfailed terms s b s' ⟨⟩
  exact hfailed

end Hook.IgnoresReadings

/-! ## Workers -/

namespace Worker

/-- A part reads the heap, or does not. -/
theorem Part.ignoresReadings_carryOut (d : Dom) (part : Part) :
    Hook.IgnoresReadings (part.carryOut d : Hook σ Unit) := by
  cases part with
  | start => exact fun _ => .pure _
  | hook phase steps =>
    refine .ofUses (d.uses_runHook steps) ?_
    rintro _ (⟨c, hdom, rfl⟩ | hnone) ⟨session, hreads⟩
    · cases hreads
      cases hdom
    · exact hnone
  | call c =>
    refine .ofAttempt ?_
    by_cases hc : c = .usedHeap
    · subst hc
      exact .reading d.session
    · refine .ofUses (u := .only (· = .call d.session c)) (Attempt.Uses.discard (.call rfl)) ?_
      rintro _ (rfl | hnone) ⟨session, hreads⟩
      · cases hreads
        exact hc rfl
      · exact hnone

theorem Part.ignoresReadings_carryOutAll (d : Dom) (plan : List Part) :
    Hook.IgnoresReadings (carryOutAll d plan : Hook σ Unit) := by
  induction plan with
  | nil => exact fun _ => .pure _
  | cons part rest ih => exact .bind (ignoresReadings_carryOut d part) fun _ => ih

variable (i : Implementation) (b : Benchmark) (o : RunOptions)

theorem ignoresReadings_work (plan : List Part)
    (measured : List (Event Float) → Except (Soundness Float) α) (session : SessionId) :
    Attempt.IgnoresReadings (work i o plan measured session : Attempt σ α) := by
  have hcollect : Attempt.IgnoresReadings
      (Trace.collect session : Attempt σ (List (Event Float))) := by
    refine .ofUses (uses_collect session) ?_
    rintro _ (rfl | hnone) ⟨session', hreads⟩
    · cases hreads
    · exact hnone
  exact .bind ((Part.ignoresReadings_carryOutAll (Dom.ofSession session i o) plan).startedWith [])
    fun _ => .bind hcollect fun _ => Run.IgnoresReadings.pure _

/-- A session is closed whether or not a reading failed in it. -/
theorem ignoresReadings_withSession {work : SessionId → Attempt σ α}
    (h : ∀ session, Attempt.IgnoresReadings (work session)) :
    Attempt.IgnoresReadings (withSession o work) := by
  have hopen : Attempt.IgnoresReadings (Attempt.openSession o : Attempt σ SessionId) := by
    refine .ofUses (uses_openSession o) ?_
    rintro _ (rfl | hnone) ⟨session, hreads⟩
    · cases hreads
    · exact hnone
  have hrelease (session : SessionId) :
      Run.IgnoresReadings (fun _ => none) (release session : Run σ Unit) := by
    refine .ofUses (u := ⟨fun _ => False, (· = .call session .close), False, False⟩)
      (.askInVain rfl) ?_
    rintro _ (hnone | rfl) ⟨session', hreads⟩
    · exact hnone
    · cases hreads
  refine .bind hopen fun session => Run.IgnoresReadings.bind (h session) (fun result =>
    Run.IgnoresReadings.bind (hrelease session) (fun _ => .pure result) nofun) ?_
  intro result error hfailed terms s b s' hclose
  obtain ⟨_, _, -, hreturn⟩ := Run.bind_eq_ok_iff.mp hclose
  cases hreturn
  exact hfailed

theorem ignoresReadings_measureCpu :
    Attempt.IgnoresReadings (measureCpu i b o : Attempt σ (Trace.CpuSamples Float)) := by
  rw [measureCpu_eq]
  exact ignoresReadings_withSession o (ignoresReadings_work i o _ _)

theorem ignoresReadings_measureHeaps (n : Nat) :
    Attempt.IgnoresReadings (measureHeaps i b o n : Attempt σ (List Float)) := by
  have hheap : Attempt.IgnoresReadings (measureHeap i b o : Attempt σ Float) := by
    rw [measureHeap_eq]
    refine .bind (ignoresReadings_withSession o (ignoresReadings_work i o _ _)) fun heaps => ?_
    obtain ⟨heap, -, heq⟩ | ⟨e, heq⟩ := onlyHeap_cases (σ := σ) b heaps <;> rw [heq]
    · exact Run.IgnoresReadings.pure _
    · exact Run.IgnoresReadings.pure _
  induction n with
  | zero => exact Run.IgnoresReadings.pure _
  | succ n ih => exact .bind hheap fun _ => .bind ih fun _ => Run.IgnoresReadings.pure _

/-! ## Runs -/

theorem uses_persist_only (samples : Samples) (expected : Nat) :
    Attempt.Uses ⟨fun _ => False, fun _ => False, False, True⟩
      (Attempt.persist o i b samples expected : Attempt σ Unit) :=
  uses_persist i b o trivial samples expected

section

variable {i b o} {w : World σ} {terms : Terms σ} {s s' : Situation σ} {measuring : Attempt σ α}
  {values : α → List Float} {warnings : α → List String} {trace : List Exchange} {e : Exchange}
  {error : SessionError} {result : Except RunError Unit × List String}

/-- Writing what was measured does not depend on readings. -/
theorem sameUnlessFailing_measureThenWrite (h : Attempt.IgnoresReadings measuring)
    (hagree : terms.world.AgreeBut Request.ReadsHeap w) :
    Run.SameUnlessFailing w (measureThenWrite i b o measuring values warnings) terms s := by
  have hfailed (e : RunError) : Run.IgnoresReadings (fun _ => none)
      (pure (.error e, []) : Run σ (Except RunError Unit × List String)) := .pure _
  have hwritten (a : α) : Run.IgnoresReadings (fun _ => none)
      ((Attempt.persist o i b (.timed (values a)) (o.iterationsFor b.kind)).run >>= fun written =>
        pure (written, warnings a) : Run σ (Except RunError Unit × List String)) :=
    .ofUses (Run.Uses.bind (uses_persist_only i b o _ _) fun _ => .pure _)
      fun _ hr => (hr.elim id id).elim
  refine (h.same hagree s).bind h.uses (fun measured => ?_) fun measured mid => ?_
  · cases measured with
    | error e => exact (hfailed e).uses
    | ok a => exact (hwritten a).uses
  · cases measured with
    | error e => exact (hfailed e).same hagree mid
    | ok a => exact (hwritten a).same hagree mid

/-- A failed reading is reported, and nothing is written. -/
theorem failed_of_measureThenWrite (h : Attempt.IgnoresReadings measuring)
    (huses : Attempt.Uses (.exceptClosing False) measuring)
    (hrun : measureThenWrite i b o measuring values warnings terms s = (.ok result, s'))
    (hasked : Asked s trace s') (he : e ∈ trace) (herror : e.readingFailure? = some error) :
    result = (.error (.session error), []) ∧ s'.disk = s.disk := by
  obtain ⟨failed, hmeasure, hresult⟩ | ⟨a, mid, written, hmeasure, hpersist, -⟩ :=
    measureThenWrite_cases hrun
  · cases failed with
    | error halt => cases hresult
    | ok cause =>
      cases hresult
      have hcause := h.fails hmeasure hasked he herror
      have hdisk := Run.Uses.disk_eq huses id terms s
      rw [hmeasure] at hdisk
      cases hcause
      exact ⟨rfl, hdisk⟩
  · obtain ⟨before, hbefore⟩ := h.uses.asked terms s
    rw [hmeasure] at hbefore
    have hsame := hbefore.trans (asked_of_persist hpersist).1
    rw [List.append_nil] at hsame
    cases h.fails hmeasure hbefore (hsame.unique hasked ▸ he) herror

/-- The startup audits read no heap. -/
theorem ignoresReadings_runStartup :
    Run.IgnoresReadings (fun _ => none) (runStartup i b o : Attempt σ Unit).run := by
  have haudits : Attempt.Uses ⟨fun r => ∃ url, r = .audit url o, fun _ => False, False, True⟩
      (auditTimes (o.urlFor i) o (o.iterationsFor .startup) : Attempt σ (List StartupMetrics)) :=
    Run.Uses.mono (uses_auditTimes o _ _) (fun _ => id) (fun _ => id) id False.elim
  refine .ofUses (Attempt.Uses.bind haudits fun _ => uses_persist i b o trivial _ _) ?_
  rintro _ (⟨url, rfl⟩ | hnone) ⟨session, hreads⟩
  · cases hreads
  · exact hnone

theorem sameUnlessFailing_runBenchmark (hagree : terms.world.AgreeBut Request.ReadsHeap w) :
    Run.SameUnlessFailing w
      (runBenchmark i b o : Run σ (Except RunError Unit × List String)) terms s := by
  cases hkind : b.kind with
  | cpu =>
    rw [runBenchmark_cpu_eq hkind]
    exact sameUnlessFailing_measureThenWrite (ignoresReadings_measureCpu i b o) hagree
  | memory =>
    rw [runBenchmark_memory_eq hkind]
    exact sameUnlessFailing_measureThenWrite (ignoresReadings_measureHeaps i b o _) hagree
  | startup =>
    rw [runBenchmark, hkind]
    have hstartup : Run.IgnoresReadings (fun _ => none) (runStartup i b o : Attempt σ Unit).run :=
      ignoresReadings_runStartup
    exact (hstartup.same hagree s).bind hstartup.uses (fun _ => .pure _) fun _ _ journal =>
      Or.inr (Or.inr ⟨journal, rfl⟩)

/-- A benchmark in which a reading fails ends with the failure, and writes nothing. -/
theorem failed_of_runBenchmark (hrun : runBenchmark i b o terms s = (.ok result, s'))
    (hasked : Asked s trace s') (he : e ∈ trace) (herror : e.readingFailure? = some error) :
    result = (.error (.session error), []) ∧ s'.disk = s.disk := by
  cases hkind : b.kind with
  | cpu =>
    rw [runBenchmark_cpu_eq hkind] at hrun
    exact failed_of_measureThenWrite (ignoresReadings_measureCpu i b o) (uses_measureCpu i b o)
      hrun hasked he herror
  | memory =>
    rw [runBenchmark_memory_eq hkind] at hrun
    exact failed_of_measureThenWrite (ignoresReadings_measureHeaps i b o _)
      (uses_measureHeaps i b o _) hrun hasked he herror
  | startup =>
    rw [runBenchmark, hkind] at hrun
    obtain ⟨startup, mid, hstartup, hreturn⟩ := Run.bind_eq_ok_iff.mp hrun
    cases hreturn
    cases ignoresReadings_runStartup.fails hstartup hasked he herror

end

/-! ## Requests -/

/-- What was asked since the start is in the journal. -/
theorem mem_journal_iff {outside : σ} {disk : Disk} {trace : List Exchange} {s : Situation σ}
    (h : Asked (.start outside disk) trace s) {e : Exchange} : e ∈ s.journal ↔ e ∈ trace := by
  rw [show s.journal = trace.reverse ++ [] from h, List.append_nil, List.mem_reverse]

theorem not_readingFailed {outside : σ} {disk : Disk} {s : Situation σ}
    (h : ∀ e ∈ s.journal, e.readingFailure? = none) : ¬ReadingFailed (.start outside disk) s := by
  rintro ⟨trace, hasked, e, he, herror⟩
  exact herror (h e ((mem_journal_iff hasked).mpr he))

/-- What a reading of the heap answers makes no difference to the response or to the disk, in
any two outsides in which no reading fails. A run that returns although a reading failed has
reported that failure and written nothing. -/
theorem heap_reading_counts_only_if_failed (custom : List TimedBenchmark) (q : WorkerRequest)
    (terms : Terms σ) (outside : σ) (disk : Disk) :
    let run (w : World σ) :=
      (execute custom q).outcome { terms with world := w } (.start outside disk)
    (∀ w w', w.AgreeBut Request.ReadsHeap w' →
      (∀ e ∈ (run w).2.journal ++ (run w').2.journal, e.readingFailure? = none) →
      (run w').1 = (run w).1 ∧ (run w').2.disk = (run w).2.disk) ∧
    ∀ w, ∀ e ∈ (run w).2.journal, ∀ error, e.readingFailure? = some error →
      ∀ response, (run w).1 = .ok response →
        response = .completed (some (RunError.session error).message) [] ∧
          (run w).2.disk = disk := by
  dsimp only
  obtain ⟨text, hexecute, -⟩ | ⟨b, htarget, -⟩ := execute_eq (σ := σ) custom q
  · rw [hexecute]
    exact ⟨fun _ _ _ _ => ⟨rfl, rfl⟩, fun _ _ he => (List.not_mem_nil he).elim⟩
  · simp only [outcome_of_target htarget]
    constructor
    · intro w w' hagree hread
      have hsame : Run.SameUnlessFailing w' (runBenchmark q.implementation b q.options)
          { terms with world := w } (.start outside disk) := sameUnlessFailing_runBenchmark hagree
      rcases hsame [] with hfailed | hfailed | ⟨journal, hrun'⟩
      · exact absurd hfailed (not_readingFailed fun e he => hread e (List.mem_append_left _ he))
      · exact absurd hfailed (not_readingFailed fun e he => hread e (List.mem_append_right _ he))
      · exact ⟨congrArg (·.1.map respond) hrun', congrArg (·.2.disk) hrun'⟩
    · intro w e he error herror response hresponse
      obtain ⟨trace, hasked⟩ := (uses_runBenchmark q.implementation b q.options).asked
        { terms with world := w } (.start outside disk)
      rcases hrun : runBenchmark q.implementation b q.options { terms with world := w }
        (.start outside disk) with ⟨halt | result, s'⟩
      · rw [hrun] at hresponse
        cases hresponse
      · rw [hrun] at hasked hresponse he
        obtain ⟨rfl, hdisk⟩ :=
          failed_of_runBenchmark hrun hasked ((mem_journal_iff hasked).mp he) herror
        cases hresponse
        exact ⟨rfl, hdisk⟩

/-- The run of a memory benchmark in an outside. -/
def idleRun (w : World Bool) : Except Halt WorkerResponse × Situation Bool :=
  (execute [idleHeap] idleRequest).outcome ⟨w, none, 1⟩ (.start true (.empty []))

/-- A session that closes while the heap is read fails the request. What the heap reads
otherwise changes nothing. -/
theorem heap_reading_counts_only_if_failed_idle :
    let w := World.steady [] (.ok ())
    (∀ e ∈ (idleRun w).2.journal ++ (idleRun (w.withReadings (.ok 9))).2.journal,
      e.readingFailure? = none) ∧
    (idleRun (w.withReadings (.ok 9))).1 = (idleRun w).1 ∧
    (∃ e ∈ (idleRun (w.withReadings (.error .closed))).2.journal,
      e.readingFailure? = some .closed) ∧
    (idleRun (w.withReadings (.error .closed))).1 =
      .ok (.completed (some (RunError.session .closed).message) []) := by
  intro w
  have htarget : target [idleHeap] idleRequest = some (.timed idleHeap) := rfl
  have hread : ∀ e ∈ (idleRun w).2.journal ++ (idleRun (w.withReadings (.ok 9))).2.journal,
      e.readingFailure? = none := by
    rw [idleRun, idleRun, outcome_of_target htarget, outcome_of_target htarget]
    decide +kernel
  have hfails : (∃ e ∈ (idleRun (w.withReadings (.error .closed))).2.journal,
      e.readingFailure? = some .closed) ∧
      (idleRun (w.withReadings (.error .closed))).1.isOk := by
    rw [idleRun, outcome_of_target htarget]
    decide +kernel
  obtain ⟨⟨e, he, herror⟩, hreturns⟩ := hfails
  obtain ⟨response, hresponse⟩ := exists_of_isOk hreturns
  have h := heap_reading_counts_only_if_failed [idleHeap] idleRequest ⟨w, none, 1⟩ true (.empty [])
  dsimp only at h
  refine ⟨hread, ?_, ⟨e, he, herror⟩, ?_⟩
  · unfold idleRun at hread ⊢
    exact (h.1 w _ (.withReadings w (.ok 9)) hread).1
  · unfold idleRun at he hresponse ⊢
    rw [hresponse, (h.2 _ e he .closed herror response hresponse).1]

/-- A reading of the heap that fails changes the response to a request for a memory benchmark. -/
theorem failing_heap_reading_counts :
    ¬∀ (custom : List TimedBenchmark) (q : WorkerRequest) (terms : Terms Bool) (w : World Bool)
      (outside : Bool) (disk : Disk), (∃ b, target custom q = some b ∧ b.kind = .memory) →
      terms.world.AgreeBut Request.ReadsHeap w →
      ((execute custom q).outcome { terms with world := w } (.start outside disk)).1 =
        ((execute custom q).outcome terms (.start outside disk)).1 ∧
      ((execute custom q).outcome { terms with world := w } (.start outside disk)).2.disk =
        ((execute custom q).outcome terms (.start outside disk)).2.disk := by
  intro h
  obtain ⟨mid, hmeasure⟩ := measureHeaps_heapTerms
  obtain ⟨paths, d', hpersist⟩ := persist_heapRequest
  have hdisk : mid.disk = .empty [] := disk_of_measureHeaps hmeasure
  rw [← hdisk] at hpersist
  have htarget : target [idleHeap] heapRequest = some (.timed idleHeap) := rfl
  have hread : ((execute [idleHeap] heapRequest).outcome heapTerms (.start true (.empty []))).1 =
      .ok (.completed none []) :=
    execute_memory_ok htarget rfl hmeasure hpersist
  have hfails : ((execute [idleHeap] heapRequest).outcome
      { heapTerms with world := heapTerms.world.withReadings (.error .closed) }
      (.start true (.empty []))).1.toOption = some (.completed (some "Session is closed") []) := by
    rw [outcome_of_target htarget]
    decide +kernel
  obtain ⟨hsame, -⟩ := h [idleHeap] heapRequest heapTerms
    (heapTerms.world.withReadings (.error .closed)) true (.empty []) ⟨_, htarget, rfl⟩
    (.withReadings _ _)
  rw [hsame, hread] at hfails
  cases hfails

end Worker

end PaintBench
