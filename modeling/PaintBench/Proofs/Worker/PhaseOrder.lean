import PaintBench.Proofs.Worker.Course

/-!
# The order of phases

The calls on a session that do not look at its page or act on it follow a fixed order,
`sessionCalls`, up to the first failure, and the session is closed at the end. The calls on the
page lie where the hooks are, and a hook is carried out right after the marker of its phase
(`HookInPlace`). `phases_of_run` puts this together for every session of a run.
-/

namespace PaintBench

variable {σ α : Type}

/-- The call on a session, unless it looks at the page or acts on it. -/
def Exchange.plain? (session : SessionId) (e : Exchange) : Option Call :=
  match e.request with
  | .call k c => if k = session ∧ !c.isDom then some c else none
  | _ => none

/-- The rate that a call slows the processor down to. -/
def Call.rate? : Call → Option Float
  | .setThrottling rate => some rate
  | _ => none

/-- The rate that the processor is slowed down to, if a call does so. -/
def Exchange.rate? (e : Exchange) : Option Float :=
  match e.request with
  | .call _ c => c.rate?
  | _ => none

/-- The hook after the marker of a phase. -/
def Benchmark.hookOf (b : Benchmark) : Phase → List Step
  | .init => b.initHook
  | .run => b.runHook
  | .finished => b.afterHook
  | .after => []

namespace Worker

/-! ## Calls of a session -/

section

variable (i : Implementation) (b : Benchmark) (o : RunOptions) (forceGc : Bool)

/-- The calls of an iteration beside those of the hooks. -/
def iterationCalls : List Call :=
  [.navigate (o.urlFor i), .mark .init] ++ (if forceGc then [.collectGarbage] else []) ++
    b.info.throttle.toList.map .setThrottling ++ [.mark .run] ++
    (if b.info.throttle.isSome && o.resetThrottle then [.setThrottling 1] else []) ++
    (if forceGc then [.collectGarbage, .usedHeap] else []) ++ [.mark .finished, .mark .after]

/-- The calls of a session beside those of the hooks, the drains and the closing: one iteration
where memory is measured, and all of them otherwise. -/
def sessionCalls : List Call :=
  match b.kind with
  | .memory => iterationCalls i b o true
  | .cpu | .startup =>
    (List.replicate (o.iterationsFor .cpu) (iterationCalls i b o false)).flatten

/-- The parts of a session. -/
def sessionPlan : List Part :=
  match b.kind with
  | .memory => memoryPlan i b o
  | .cpu | .startup => cpuPlan i b o

end

namespace Part

/-- The call that a part consists of. -/
def call? : Part → Option Call
  | call c => some c
  | start | hook .. => none

/-- The rate that the processor is slowed down to by a part. -/
def rate? (part : Part) : Option Float :=
  part.call?.bind Call.rate?

end Part

variable {i : Implementation} {b : Benchmark} {o : RunOptions}

theorem filterMap_call?_iterationPlan (forceGc : Bool) :
    (iterationPlan i b o forceGc).filterMap Part.call? = iterationCalls i b o forceGc := by
  cases hthrottle : b.info.throttle <;> cases forceGc <;> cases hreset : o.resetThrottle <;>
    simp [iterationPlan, preparePlan, measurePlan, finishPlan, iterationCalls, Part.call?,
      List.filterMap_cons, hthrottle, hreset]

theorem filterMap_call?_sessionPlan :
    (sessionPlan i b o).filterMap Part.call? = sessionCalls i b o := by
  have hcpu (n : Nat) : (List.replicate n (iterationPlan i b o false)).flatten.filterMap Part.call? =
      (List.replicate n (iterationCalls i b o false)).flatten := by
    rw [List.filterMap_flatten, List.map_replicate, filterMap_call?_iterationPlan]
  unfold sessionPlan sessionCalls
  cases b.kind with
  | memory => exact filterMap_call?_iterationPlan true
  | cpu | startup => exact hcpu _

theorem isDom_of_mem_iterationCalls {forceGc : Bool} {c : Call}
    (h : c ∈ iterationCalls i b o forceGc) : c.isDom = false := by
  simp only [iterationCalls, List.mem_append, List.mem_map] at h
  grind [Call.isDom]

theorem isDom_of_mem_sessionCalls {c : Call} (h : c ∈ sessionCalls i b o) : c.isDom = false := by
  unfold sessionCalls at h
  split at h
  · exact isDom_of_mem_iterationCalls h
  · obtain ⟨calls, hcalls, hc⟩ := List.mem_flatten.mp h
    rw [List.eq_of_mem_replicate hcalls] at hc
    exact isDom_of_mem_iterationCalls hc
  · obtain ⟨calls, hcalls, hc⟩ := List.mem_flatten.mp h
    rw [List.eq_of_mem_replicate hcalls] at hc
    exact isDom_of_mem_iterationCalls hc

/-! ## Hooks of a session -/

/-- The rate set last by some parts. -/
def lastRate (plan : List Part) : Option Float :=
  (plan.filterMap Part.rate?).getLast?

/-- After some parts no slowdown is on, if slowdowns end with the run hook at all. -/
def Unslowed (o : RunOptions) (plan : List Part) : Prop :=
  o.resetThrottle → lastRate plan = none ∨ lastRate plan = some 1

/-- A hook is the one of its phase and comes right after the marker of the phase. None but the
run hook is slowed down. -/
structure HookInPlace (b : Benchmark) (o : RunOptions) (before : List Part) (phase : Phase)
    (steps : List Step) : Prop where
  steps_eq : steps = b.hookOf phase
  marked : before.getLast? = some (.call (.mark phase))
  unslowed : phase ≠ .run → Unslowed o before

/-- All hooks of a plan that is carried out after some parts are in their places. -/
def HooksInPlace (b : Benchmark) (o : RunOptions) (before plan : List Part) : Prop :=
  ∀ earlier phase steps later, plan = earlier ++ .hook phase steps :: later →
    HookInPlace b o (before ++ earlier) phase steps

theorem hooksInPlace_nil (before : List Part) : HooksInPlace b o before [] := by
  rintro earlier phase steps later h
  simp at h

theorem hooksInPlace_cons {before : List Part} {part : Part} {rest : List Part} :
    HooksInPlace b o before (part :: rest) ↔
      (∀ phase steps, part = .hook phase steps → HookInPlace b o before phase steps) ∧
        HooksInPlace b o (before ++ [part]) rest := by
  constructor
  · intro h
    refine ⟨?_, ?_⟩
    · rintro phase steps rfl
      simpa using h [] phase steps rest rfl
    · rintro earlier phase steps later rfl
      simpa using h (part :: earlier) phase steps later rfl
  · rintro ⟨hpart, hrest⟩ earlier phase steps later heq
    cases earlier with
    | nil =>
      obtain ⟨rfl, -⟩ := List.cons.inj heq
      simpa using hpart phase steps rfl
    | cons first earlier =>
      obtain ⟨rfl, rfl⟩ := List.cons.inj heq
      simpa using hrest earlier phase steps later rfl

theorem hooksInPlace_append {before plan rest : List Part} :
    HooksInPlace b o before (plan ++ rest) ↔
      HooksInPlace b o before plan ∧ HooksInPlace b o (before ++ plan) rest := by
  induction plan generalizing before with
  | nil => simp [hooksInPlace_nil]
  | cons part plan ih => simp [hooksInPlace_cons, ih, and_assoc]

theorem lastRate_append (before plan : List Part) :
    lastRate (before ++ plan) = (lastRate plan).or (lastRate before) := by
  simp [lastRate]

theorem Unslowed.append {before plan : List Part} (h : Unslowed o before)
    (hplan : lastRate plan = none ∨ lastRate plan = some 1) : Unslowed o (before ++ plan) := by
  intro hreset
  rw [lastRate_append]
  obtain hnone | hone := hplan
  · rw [hnone]
    exact h hreset
  · rw [hone]
    exact Or.inr rfl

/-- A hook right after its marker is in its place, unless a slowdown is on that should have
ended. -/
theorem HookInPlace.of_mark {before : List Part} {phase : Phase}
    (h : phase ≠ .run → Unslowed o before) :
    HookInPlace b o (before ++ [.call (.mark phase)]) phase (b.hookOf phase) where
  steps_eq := rfl
  marked := List.getLast?_concat
  unslowed hphase := (h hphase).append (Or.inl rfl)

/-! ### The hooks of an iteration -/

variable {before : List Part} {forceGc : Bool}

theorem hooksInPlace_preparePlan (h : Unslowed o before) :
    HooksInPlace b o before (preparePlan i b o forceGc) := by
  have hinit : HookInPlace b o (before ++ [.call (.navigate (o.urlFor i))] ++ [.call (.mark .init)])
      .init b.initHook := .of_mark fun _ => h.append (Or.inl rfl)
  cases forceGc <;> simpa [preparePlan, hooksInPlace_cons, hooksInPlace_nil] using hinit

theorem Unslowed.append_preparePlan (h : Unslowed o before) :
    Unslowed o (before ++ preparePlan i b o forceGc) :=
  h.append (Or.inl (by cases forceGc <;> rfl))

theorem hooksInPlace_measurePlan : HooksInPlace b o before (measurePlan b o) := by
  have hrun (slowdown : List Part) :
      HookInPlace b o (before ++ slowdown ++ [.call (.mark .run)]) .run b.runHook :=
    .of_mark fun hne => absurd rfl hne
  cases hthrottle : b.info.throttle with
  | none => simpa [measurePlan, hthrottle, hooksInPlace_cons, hooksInPlace_nil] using hrun []
  | some rate =>
    have hslowed := hrun [.call (.setThrottling rate)]
    cases hreset : o.resetThrottle <;>
      simpa [measurePlan, hthrottle, hreset, hooksInPlace_cons, hooksInPlace_nil] using hslowed

/-- The slowdown ends with the run hook. -/
theorem Unslowed.append_measurePlan (h : Unslowed o before) :
    Unslowed o (before ++ measurePlan b o) := by
  cases hthrottle : b.info.throttle with
  | none =>
    refine h.append (Or.inl ?_)
    simp [measurePlan, hthrottle, lastRate, Part.rate?, Part.call?, Call.rate?, List.filterMap_cons]
  | some rate =>
    intro hreset
    refine Or.inr ?_
    rw [lastRate_append]
    simp [measurePlan, hthrottle, hreset, lastRate, Part.rate?, Part.call?, Call.rate?,
        List.filterMap_cons]

theorem hooksInPlace_finishPlan (h : Unslowed o before) :
    HooksInPlace b o before (finishPlan b forceGc) := by
  have hafter (collection : List Part) (hnone : lastRate collection = none) :
      HookInPlace b o (before ++ collection ++ [.call (.mark .finished)]) .finished b.afterHook :=
    .of_mark fun _ => h.append (Or.inl hnone)
  cases forceGc with
  | false => simpa [finishPlan, hooksInPlace_cons, hooksInPlace_nil] using hafter [] rfl
  | true =>
    simpa [finishPlan, hooksInPlace_cons, hooksInPlace_nil] using
      hafter [.call .collectGarbage, .call .usedHeap] rfl

theorem Unslowed.append_finishPlan (h : Unslowed o before) :
    Unslowed o (before ++ finishPlan b forceGc) :=
  h.append (Or.inl (by cases forceGc <;> rfl))

/-- An iteration that starts without a slowdown has its hooks in their places. -/
theorem hooksInPlace_iterationPlan (h : Unslowed o before) :
    HooksInPlace b o before (iterationPlan i b o forceGc) := by
  have hstart : Unslowed o (before ++ [.start]) := h.append (Or.inl rfl)
  have hprepare : Unslowed o (before ++ [.start] ++ preparePlan i b o forceGc) :=
    hstart.append_preparePlan
  rw [iterationPlan, hooksInPlace_cons, hooksInPlace_append, hooksInPlace_append]
  exact ⟨fun _ _ h => Part.noConfusion h, hooksInPlace_preparePlan hstart,
    hooksInPlace_measurePlan, hooksInPlace_finishPlan hprepare.append_measurePlan⟩

/-- An iteration that starts without a slowdown ends without one. -/
theorem Unslowed.append_iterationPlan (h : Unslowed o before) :
    Unslowed o (before ++ iterationPlan i b o forceGc) := by
  have hstart : Unslowed o (before ++ [.start]) := h.append (Or.inl rfl)
  have hprepare : Unslowed o (before ++ [.start] ++ preparePlan i b o forceGc) :=
    hstart.append_preparePlan
  have hmeasure : Unslowed o (before ++ [.start] ++ preparePlan i b o forceGc ++ measurePlan b o) :=
    hprepare.append_measurePlan
  have hfinish : Unslowed o (before ++ [.start] ++ preparePlan i b o forceGc ++ measurePlan b o ++
    finishPlan b forceGc) := hmeasure.append_finishPlan
  simpa [iterationPlan] using hfinish

/-- A session has all its hooks in their places. -/
theorem hooksInPlace_sessionPlan : HooksInPlace b o [] (sessionPlan i b o) := by
  have hcpu (n : Nat) (before : List Part) (h : Unslowed o before) :
      HooksInPlace b o before (List.replicate n (iterationPlan i b o false)).flatten := by
    induction n generalizing before with
    | zero => exact hooksInPlace_nil before
    | succ n ih =>
      rw [List.replicate_succ, List.flatten_cons, hooksInPlace_append]
      exact ⟨hooksInPlace_iterationPlan h, ih _ h.append_iterationPlan⟩
  have hnone : Unslowed o [] := fun _ => Or.inl rfl
  unfold sessionPlan
  cases b.kind with
  | memory => exact hooksInPlace_iterationPlan hnone
  | cpu | startup => exact hcpu _ _ hnone

/-! ## Deeds of a session -/

/-- The calls that some deeds consist of, beside those of the hooks. -/
def doneCalls (deeds : List Deed) : List Call :=
  (deeds.map (·.part)).filterMap Part.call?

/-- What was done in a session is in order: `calls` are all calls on the session. -/
structure PhaseOrder (i : Implementation) (b : Benchmark) (o : RunOptions) (session : SessionId)
    (deeds : List Deed) (drains : List Exchange) (close : Exchange) (calls : List Exchange) :
    Prop where
  calls_eq : calls = deeds.flatMap (·.calls) ++ drains ++ [close]
  /-- Beside those on the page there are some calls, drains and the closing. -/
  plain : calls.filterMap (·.plain? session) =
    doneCalls deeds ++ List.replicate drains.length .drain ++ [.close]
  planned : doneCalls deeds <+: sessionCalls i b o
  /-- The log is drained when everything else was done, up to the first empty batch. -/
  drained : drains = [] ∨
    doneCalls deeds = sessionCalls i b o ∧ ∃ events, Drained session drains events
  /-- Everything is done exactly if nothing fails. -/
  complete : (doneCalls deeds = sessionCalls i b o ∧ ∃ events, Drained session drains (.ok events)) ↔
    (∀ deed ∈ deeds, deed.failure = none) ∧ ∀ e ∈ drains, e.failed = false
  /-- Nothing is done after the first failure. -/
  stopped : ∀ earlier deed later, deeds = earlier ++ deed :: later → deed.failure.isSome →
    later = [] ∧ drains = []
  /-- Deeds that are calls make this one call, and fail exactly if it fails. Those that are
  hooks make calls on the page only. -/
  fits : ∀ deed ∈ deeds, deed.Fits session
  /-- Hooks come right after the markers of their phases, and only the run hook is slowed down
  where slowdowns end with it. -/
  hooks : ∀ earlier deed later phase steps, deeds = earlier ++ deed :: later →
    deed.part = .hook phase steps → steps = b.hookOf phase ∧
      (∃ before mark, earlier.flatMap (·.calls) = before ++ [mark] ∧
        mark.request = .call session (.mark phase)) ∧
      (o.resetThrottle → phase ≠ .run →
        ((earlier.flatMap (·.calls)).filterMap (·.rate?)).getLast? = none ∨
        ((earlier.flatMap (·.calls)).filterMap (·.rate?)).getLast? = some 1)

theorem plain?_of_request {session : SessionId} {c : Call} {e : Exchange}
    (h : e.request = .call session c) :
    e.plain? session = if c.isDom then none else some c := by
  cases hdom : c.isDom <;> simp [Exchange.plain?, h, hdom]

theorem rate?_of_request {session : SessionId} {c : Call} {e : Exchange}
    (h : e.request = .call session c) : e.rate? = c.rate? := by
  simp [Exchange.rate?, h]

theorem rate?_of_isDom {c : Call} (h : c.isDom) : c.rate? = none := by
  cases c with
  | setThrottling rate => cases h
  | _ => rfl

variable {session : SessionId} {deed : Deed} {deeds : List Deed} {drains : List Exchange}

namespace Deed

theorem Fits.filterMap_plain? (h : deed.Fits session)
    (hplain : ∀ c, deed.part = .call c → c.isDom = false) :
    deed.calls.filterMap (·.plain? session) = deed.part.call?.toList := by
  obtain ⟨part, calls, failure⟩ := deed
  cases part with
  | start => rw [show calls = [] from h.1]; rfl
  | call c =>
    obtain ⟨call, hcalls, hrequest, -⟩ := h
    simp [show calls = [call] from hcalls, plain?_of_request hrequest, hplain c rfl, Part.call?]
  | hook phase steps =>
    refine List.filterMap_eq_nil_iff.mpr fun e he => ?_
    obtain ⟨c, hdom, hrequest⟩ := h e he
    rw [plain?_of_request hrequest, if_pos hdom]

theorem Fits.filterMap_rate? (h : deed.Fits session) :
    deed.calls.filterMap (·.rate?) = deed.part.rate?.toList := by
  obtain ⟨part, calls, failure⟩ := deed
  cases part with
  | start => rw [show calls = [] from h.1]; rfl
  | call c =>
    obtain ⟨call, hcalls, hrequest, -⟩ := h
    cases hrate : c.rate? <;>
      simp [show calls = [call] from hcalls, rate?_of_request hrequest, Part.rate?, Part.call?,
        hrate]
  | hook phase steps =>
    refine List.filterMap_eq_nil_iff.mpr fun e he => ?_
    obtain ⟨c, hdom, hrequest⟩ := h e he
    rw [rate?_of_request hrequest, rate?_of_isDom hdom]

end Deed

theorem filterMap_plain?_flatMap (h : ∀ deed ∈ deeds, deed.Fits session)
    (hplain : ∀ c ∈ doneCalls deeds, c.isDom = false) :
    (deeds.flatMap (·.calls)).filterMap (·.plain? session) = doneCalls deeds := by
  induction deeds with
  | nil => rfl
  | cons deed deeds ih =>
    have hdone : doneCalls (deed :: deeds) = deed.part.call?.toList ++ doneCalls deeds := by
      cases hcall : deed.part.call? <;> simp [doneCalls, hcall]
    rw [hdone] at hplain ⊢
    have hfirst : deed.calls.filterMap (·.plain? session) = deed.part.call?.toList := by
      refine (h deed List.mem_cons_self).filterMap_plain? fun c hc => hplain c ?_
      simp [hc, Part.call?]
    rw [List.flatMap_cons, List.filterMap_append, hfirst,
      ih (fun deed hdeed => h deed (List.mem_cons_of_mem _ hdeed))
        fun c hc => hplain c (List.mem_append_right _ hc)]

theorem filterMap_rate?_flatMap (h : ∀ deed ∈ deeds, deed.Fits session) :
    (deeds.flatMap (·.calls)).filterMap (·.rate?) =
      (deeds.map (·.part)).filterMap Part.rate? := by
  induction deeds with
  | nil => rfl
  | cons deed deeds ih =>
    rw [List.flatMap_cons, List.filterMap_append, (h deed List.mem_cons_self).filterMap_rate?,
      ih fun deed hdeed => h deed (List.mem_cons_of_mem _ hdeed)]
    cases hrate : deed.part.rate? <;> simp [hrate]

namespace Drained

variable {events : Except RunError (List (Event Float))}

theorem filterMap_plain? (h : Drained session drains events) :
    drains.filterMap (·.plain? session) = List.replicate drains.length .drain := by
  have hrequest := h.request
  clear h
  induction drains with
  | nil => rfl
  | cons e drains ih =>
    have he : e.plain? session = some .drain :=
      plain?_of_request (hrequest e List.mem_cons_self)
    rw [List.filterMap_cons_some he, List.length_cons, List.replicate_succ,
      ih fun e he => hrequest e (List.mem_cons_of_mem _ he)]

/-- Draining works out exactly if no drain fails. -/
theorem isOk_iff (h : Drained session drains events) :
    (∃ drained, events = .ok drained) ↔ ∀ e ∈ drains, e.failed = false := by
  induction h with
  | empty => simp [Exchange.failed]
  | fails => simp [Exchange.failed]
  | @more time batch drains events _ _ ih =>
    cases events with
    | ok drained => simpa [Exchange.failed, Except.map] using ih
    | error e => simpa [Exchange.failed, Except.map] using ih

end Drained

/-! ## Courses in order -/

variable {s s' opened : Situation σ} {terms : Terms σ} {result : Except RunError α}
  {measured : List (Event Float) → Except (Soundness Float) α} {close : Exchange}

/-- After a failed deed nothing more is done. -/
theorem Carried.stopped {d : Dom} {plan : List Part} {captured : Captured}
    (h : Carried d terms plan captured s deeds s') {earlier later : List Deed}
    (hdeeds : deeds = earlier ++ deed :: later) (hfailure : deed.failure.isSome) : later = [] := by
  obtain ⟨-, hnone⟩ | ⟨before, last, hlast, hnone, -⟩ := h.ends
  · rw [hnone deed (by simp [hdeeds])] at hfailure
    cases hfailure
  · obtain rfl | ⟨between, final, rfl⟩ := later.eq_nil_or_concat
    · rfl
    · have hbefore : before ++ [last] = (earlier ++ deed :: between) ++ [final] := by
        rw [← hlast, hdeeds]
        simp
      rw [(List.append_inj' hbefore rfl).1] at hnone
      rw [hnone deed (by simp)] at hfailure
      cases hfailure

/-- The hooks among deeds are in their places, as they are in the plan. -/
theorem Carried.hooks {d : Dom} {captured : Captured}
    (h : Carried d terms (sessionPlan i b o) captured s deeds s') {earlier later : List Deed}
    {phase : Phase} {steps : List Step} (hdeeds : deeds = earlier ++ deed :: later)
    (hdeed : deed.part = .hook phase steps) :
    steps = b.hookOf phase ∧
      (∃ before mark, earlier.flatMap (·.calls) = before ++ [mark] ∧
        mark.request = .call d.session (.mark phase)) ∧
      (o.resetThrottle → phase ≠ .run →
        ((earlier.flatMap (·.calls)).filterMap (·.rate?)).getLast? = none ∨
        ((earlier.flatMap (·.calls)).filterMap (·.rate?)).getLast? = some 1) := by
  have hfits : ∀ deed ∈ earlier, deed.Fits d.session := fun deed hdeed =>
    h.fits deed (by simp [hdeeds, hdeed])
  obtain ⟨rest, hrest⟩ := h.parts_prefix
  have hplan : sessionPlan i b o =
      earlier.map (·.part) ++ .hook phase steps :: (later.map (·.part) ++ rest) := by
    rw [← hrest, hdeeds]
    simp [hdeed]
  obtain ⟨hsteps, hmarked, hunslowed⟩ := hooksInPlace_sessionPlan _ phase steps _ hplan
  refine ⟨hsteps, ?_, fun hreset hphase => ?_⟩
  · obtain rfl | ⟨before, mark, rfl⟩ := earlier.eq_nil_or_concat
    · cases hmarked
    · have hmark : mark.part = .call (.mark phase) := by simpa using hmarked
      have hfit := hfits mark (by simp)
      rw [Deed.Fits, hmark] at hfit
      obtain ⟨e, hcalls, hrequest, -⟩ := hfit
      exact ⟨before.flatMap (·.calls), e, by simp [hcalls], hrequest⟩
  · rw [filterMap_rate?_flatMap hfits]
    exact hunslowed hphase hreset

/-- What was done in a session that took its course is in order. -/
theorem Course.phaseOrder
    (h : Course i o (sessionPlan i b o) measured terms s result s' opened deeds drains close) :
    PhaseOrder i b o s.sessions deeds drains close
      (deeds.flatMap (·.calls) ++ drains ++ [close]) := by
  obtain ⟨mid, hcarried⟩ := h.carried
  have hfits : ∀ deed ∈ deeds, deed.Fits s.sessions := hcarried.fits
  have hplanned : doneCalls deeds <+: sessionCalls i b o := by
    rw [← filterMap_call?_sessionPlan]
    exact hcarried.parts_prefix.filterMap Part.call?
  have hplain : (deeds.flatMap (·.calls)).filterMap (·.plain? s.sessions) = doneCalls deeds :=
    filterMap_plain?_flatMap hfits fun c hc => isDom_of_mem_sessionCalls (hplanned.subset hc)
  have hclose : [close].filterMap (·.plain? s.sessions) = [.close] :=
    List.filterMap_cons_some (plain?_of_request h.request)
  obtain ⟨e, hfailure, rfl, -⟩ | ⟨hnone, drained, hdrained, -⟩ := h.outcome
  · -- a deed failed, so nothing was drained
    have hfailed : ¬∀ deed ∈ deeds, deed.failure = none := by
      rw [← List.findSome?_eq_none_iff, hfailure]
      nofun
    refine ⟨rfl, ?_, hplanned, Or.inl rfl, ?_, ?_, hfits, ?_⟩
    · rw [List.filterMap_append, List.filterMap_append, hplain, hclose]
      rfl
    · constructor
      · rintro ⟨-, events, hdrained⟩
        cases hdrained
      · rintro ⟨hnone, -⟩
        exact absurd hnone hfailed
    · exact fun earlier deed later hdeeds hdeed => ⟨hcarried.stopped hdeeds hdeed, rfl⟩
    · exact fun earlier deed later phase steps hdeeds hdeed => hcarried.hooks hdeeds hdeed
  · -- no deed failed, so the whole plan was carried out
    have hall : ∀ deed ∈ deeds, deed.failure = none := List.findSome?_eq_none_iff.mp hnone
    have hdone : doneCalls deeds = sessionCalls i b o := by
      obtain ⟨hplan, -⟩ | ⟨before, last, hdeeds, -, hlast⟩ := hcarried.ends
      · rw [doneCalls, hplan, filterMap_call?_sessionPlan]
      · rw [hall last (by simp [hdeeds])] at hlast
        cases hlast
    refine ⟨rfl, ?_, hplanned, Or.inr ⟨hdone, drained, hdrained⟩, ?_, ?_, hfits, ?_⟩
    · rw [List.filterMap_append, List.filterMap_append, hplain, hclose, hdrained.filterMap_plain?]
    · constructor
      · rintro ⟨-, events, hdrained⟩
        exact ⟨hall, hdrained.isOk_iff.mp ⟨events, rfl⟩⟩
      · rintro ⟨-, hdrains⟩
        obtain ⟨events, rfl⟩ := hdrained.isOk_iff.mpr hdrains
        exact ⟨hdone, events, hdrained⟩
    · intro earlier deed later hdeeds hdeed
      rw [hall deed (by simp [hdeeds])] at hdeed
      cases hdeed
    · exact fun earlier deed later phase steps hdeeds hdeed => hcarried.hooks hdeeds hdeed

/-! ## Runs in order -/

/-- A run comes to open a session: a heap was measured in each session before it. (Where no
memory is measured, the only session is the first one.) -/
def ComesToOpen (i : Implementation) (b : Benchmark) (o : RunOptions) (terms : Terms σ)
    (s : Situation σ) (session : SessionId) (opened : Situation σ) : Prop :=
  ∃ heaps before, (measureHeaps i b o session).run terms s = (.ok (.ok heaps), before) ∧
    (Attempt.openSession o).run terms before = (.ok (.ok session), opened)

/-- The phases of every session of a run that ends are in order. -/
theorem phases_of_run {outside : σ} {disk : Disk}
    {response : Except RunError Unit × List String} (hkind : b.kind ≠ .startup)
    (hrun : (runBenchmark i b o).outcome terms (.start outside disk) = (.ok response, s')) :
    ∀ session < s'.sessions, ∃ opened deeds drains close,
      ComesToOpen i b o terms (.start outside disk) session opened ∧
      (∃ mid, Carried (Dom.ofSession session i o) terms (sessionPlan i b o) [] opened deeds mid) ∧
      PhaseOrder i b o session deeds drains close
        (s'.journal.reverse.filter (·.isOn session)) := by
  intro session hsession
  rw [Run.outcome] at hrun
  cases hb : b.kind with
  | startup => exact absurd hb hkind
  | cpu =>
    have hplan : sessionPlan i b o = cpuPlan i b o := by rw [sessionPlan, hb]
    rw [runBenchmark_cpu_eq hb] at hrun
    obtain ⟨samples, mid, hmeasure, hasked, hsessions⟩ := asked_of_measureThenWrite hrun
    rw [measureCpu_eq] at hmeasure
    obtain ⟨hsame, -⟩ | ⟨opened, deeds, drains, close, hcourse⟩ :=
      withSession_cases (call_not_mem_cpuPlan (Or.inl rfl) i b o) hmeasure
    · rw [hsessions, hsame] at hsession
      exact absurd hsession (Nat.not_lt_zero session)
    · rw [← hplan] at hcourse
      obtain rfl : session = 0 := by
        rw [hsessions, hcourse.sessions] at hsession
        exact Nat.lt_one_iff.mp hsession
      have hcalls := hcourse.filter_isOn hasked (List.forall_mem_nil _) (List.forall_mem_nil _)
      refine ⟨opened, deeds, drains, close, ⟨[], _, rfl, hcourse.opens⟩, hcourse.carried, ?_⟩
      rw [show s'.journal.reverse.filter (·.isOn 0) = _ from hcalls]
      exact hcourse.phaseOrder
  | memory =>
    have hplan : sessionPlan i b o = memoryPlan i b o := by rw [sessionPlan, hb]
    rw [runBenchmark_memory_eq hb] at hrun
    obtain ⟨heaps, mid, hmeasure, hasked, hsessions⟩ := asked_of_measureThenWrite hrun
    rw [hsessions] at hsession
    obtain ⟨before, earlier, result, after, opened, deeds, drains, close, rfl, hearlier, hcourse,
      hcalls, -⟩ := course_of_measureHeaps hmeasure hasked hsession
    rw [← hplan] at hcourse
    refine ⟨opened, deeds, drains, close, ⟨earlier, before, hearlier, hcourse.opens⟩,
      hcourse.carried, ?_⟩
    rw [hcalls]
    exact hcourse.phaseOrder

/-- A cpu benchmark with a slowdown, whose run hook clicks once. -/
def slowedClick : TimedBenchmark :=
  ⟨⟨"slowed-click", "slowed", "", .cpu, some 4⟩, [], [.clickId "run"], []⟩

/-- Options for two iterations of it. -/
def slowedOptions : RunOptions :=
  { RunOptions.standard with repeatRun := 2 }

/-- The phases of two iterations in one session are in order, though no sample is found in the
trace and the session cannot be closed. -/
theorem phases_of_slowed_run :
    ∃ response s', (runBenchmark idleRequest.implementation (.timed slowedClick)
        slowedOptions).outcome (silentTerms (.error .closed)) (.start true (.empty [])) =
        (.ok response, s') ∧ s'.sessions = 1 ∧
      ∃ deeds drains close, PhaseOrder idleRequest.implementation (.timed slowedClick) slowedOptions
        0 deeds drains close (s'.journal.reverse.filter (·.isOn 0)) := by
  have hreturned : ((runBenchmark idleRequest.implementation (.timed slowedClick)
      slowedOptions).outcome (silentTerms (.error .closed)) (.start true (.empty []))).1.isOk := by
    decide +kernel
  have hsessions : ((runBenchmark idleRequest.implementation (.timed slowedClick)
      slowedOptions).outcome (silentTerms (.error .closed)) (.start true (.empty []))).2.sessions =
      1 := by
    decide +kernel
  obtain ⟨⟨result, s'⟩, hrun⟩ : ∃ run, (runBenchmark idleRequest.implementation (.timed slowedClick)
      slowedOptions).outcome (silentTerms (.error .closed)) (.start true (.empty [])) = run :=
    ⟨_, rfl⟩
  rw [hrun] at hreturned hsessions
  obtain ⟨response, rfl⟩ := exists_of_isOk hreturned
  have hfirst : 0 < s'.sessions := by rw [hsessions]; exact Nat.zero_lt_one
  have hkind : (Benchmark.timed slowedClick).kind ≠ .startup := by decide
  obtain ⟨opened, deeds, drains, close, -, -, horder⟩ := phases_of_run hkind hrun 0 hfirst
  exact ⟨response, s', hrun, hsessions, deeds, drains, close, horder⟩

end Worker

end PaintBench
