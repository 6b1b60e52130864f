import PaintBench.Proofs.Worker.Sessions

/-!
# Courses of sessions

What was done in a run that returned. A plan is carried out as a list of deeds, of which at
most the last one failed (`Carried`, `carried_of_carryOutAll`). Draining a log stops at the
first empty batch or at a failure (`Drained`). A session is opened, worked on and closed
(`withSession_cases`), and a memory benchmark does so for one iteration after the other
(`measureHeaps_cases`).
-/

namespace PaintBench

variable {σ α β : Type}

/-! ## Steps of a run that returned -/

/-- What an attempt of two steps ends with, if it ends. -/
theorem Attempt.bind_cases {act : Attempt σ α} {next : α → Attempt σ β} {terms : Terms σ}
    {s s' : Situation σ} {result : Except RunError β}
    (h : (act >>= next).run terms s = (.ok result, s')) :
    (∃ e, act.run terms s = (.ok (.error e), s') ∧ result = .error e) ∨
    ∃ a mid, act.run terms s = (.ok (.ok a), mid) ∧ (next a).run terms mid = (.ok result, s') := by
  obtain ⟨first, mid, hact, hnext⟩ := Run.bind_eq_ok_iff.mp h
  cases first with
  | error e =>
    cases hnext
    exact Or.inl ⟨e, hact, rfl⟩
  | ok a => exact Or.inr ⟨a, mid, hact, hnext⟩

/-- What an attempt ends with when its value is of no interest. -/
theorem Attempt.discard_cases {act : Attempt σ α} {terms : Terms σ} {s s' : Situation σ}
    {result : Except RunError Unit} (h : (discard act).run terms s = (.ok result, s')) :
    ∃ kept, act.run terms s = (.ok kept, s') ∧ result = kept.map fun _ => () := by
  have hdiscard : discard act = act >>= fun _ => pure () := by
    rw [bind_pure_comp, discard, LawfulFunctor.map_const]
    rfl
  rw [hdiscard] at h
  obtain ⟨e, hact, rfl⟩ | ⟨a, mid, hact, hreturn⟩ := Attempt.bind_cases h
  · exact ⟨_, hact, rfl⟩
  · cases hreturn
    exact ⟨_, hact, rfl⟩

/-- What a hook of two steps ends with, if it ends. -/
theorem Hook.bind_cases {hook : Hook σ α} {next : α → Hook σ β} {terms : Terms σ}
    {s s' : Situation σ} {captured captured' : Captured} {result : Except RunError β}
    (h : (hook >>= next).run.run captured terms s = (.ok (result, captured'), s')) :
    (∃ e, hook.run.run captured terms s = (.ok (.error e, captured'), s') ∧ result = .error e) ∨
    ∃ a between mid, hook.run.run captured terms s = (.ok (.ok a, between), mid) ∧
      (next a).run.run between terms mid = (.ok (result, captured'), s') := by
  obtain ⟨⟨first, between⟩, mid, hhook, hnext⟩ := Run.bind_eq_ok_iff.mp h
  cases first with
  | error e =>
    cases hnext
    exact Or.inl ⟨e, hhook, rfl⟩
  | ok a => exact Or.inr ⟨a, between, mid, hhook, hnext⟩

/-- A request that ends was answered. -/
theorem Run.answer_of_ask {r : Request} {terms : Terms σ} {s s' : Situation σ} {answer : r.Answer}
    (h : Run.ask r terms s = (.ok answer, s')) :
    (∃ now, Asked s [⟨now, r, answer⟩] s') ∧ s'.sessions = s.sessions ∧ s'.disk = s.disk := by
  obtain ⟨answer', now, outside, hask⟩ | ⟨halt, now, outside, hask⟩ := Run.ask_cases r terms s
  · cases hask.symm.trans h
    exact ⟨⟨now, rfl⟩, rfl, rfl⟩
  · cases hask.symm.trans h

/-- A call that ends was answered. -/
theorem Attempt.answer_of_call {session : SessionId} {c : Call} {terms : Terms σ}
    {s s' : Situation σ} {result : Except RunError c.Reply}
    (h : (Attempt.call session c).run terms s = (.ok result, s')) :
    ∃ now, ∃ answer : Except SessionError c.Reply, Asked s [⟨now, .call session c, answer⟩] s' ∧
      result = answer.mapError .session := by
  obtain ⟨answer, mid, hask, hreturn⟩ := Run.bind_eq_ok_iff.mp h
  obtain ⟨⟨now, hasked⟩, -⟩ := Run.answer_of_ask hask
  cases hreturn
  exact ⟨now, answer, hasked, rfl⟩

namespace Exchange

/-- Whether a call failed. -/
def failed : Exchange → Bool
  | ⟨_, .call _ _, .error _⟩ => true
  | _ => false

/-- The records that a drain of a session handed out. -/
def batch? (session : SessionId) : Exchange → Option (List String)
  | ⟨_, .call k .drain, .ok batch⟩ => if k = session then some batch else none
  | _ => none

end Exchange

namespace Worker

/-! ## Deeds -/

/-- A part that was carried out, with the calls it made and how it failed, if it did. -/
structure Deed where
  part : Part
  calls : List Exchange
  failure : Option RunError

/-- The failure of a result, if it is one. -/
def failureOf : Except RunError Unit → Option RunError
  | .ok () => none
  | .error e => some e

/-- The deeds of carrying out a plan from a situation on, and the situation they lead to. -/
inductive Carried (d : Dom) (terms : Terms σ) :
    List Part → Captured → Situation σ → List Deed → Situation σ → Prop
  | done (captured : Captured) (s : Situation σ) : Carried d terms [] captured s [] s
  | next {part : Part} {rest : List Part} {captured captured' : Captured} {s mid s' : Situation σ}
    {calls : List Exchange} {deeds : List Deed} :
    (part.carryOut d).run.run captured terms s = (.ok (.ok (), captured'), mid) →
    Asked s calls mid → Carried d terms rest captured' mid deeds s' →
    Carried d terms (part :: rest) captured s (⟨part, calls, none⟩ :: deeds) s'
  | stop {part : Part} {rest : List Part} {captured captured' : Captured} {s s' : Situation σ}
    {calls : List Exchange} {e : RunError} :
    (part.carryOut d).run.run captured terms s = (.ok (.error e, captured'), s') →
    Asked s calls s' → Carried d terms (part :: rest) captured s [⟨part, calls, some e⟩] s'

/-- The calls of a part are those on the page of the session, if it is a hook, or the one call
it consists of. -/
def Deed.Fits (session : SessionId) (deed : Deed) : Prop :=
  match deed.part with
  | .start => deed.calls = [] ∧ deed.failure = none
  | .call c => ∃ e, deed.calls = [e] ∧ e.request = .call session c ∧
      (deed.failure.isSome ↔ e.failed)
  | .hook _ _ => ∀ e ∈ deed.calls, ∃ c : Call, c.isDom ∧ e.request = .call session c

theorem isOn_of_request {session : SessionId} {c : Call} {e : Exchange}
    (h : e.request = .call session c) : e.isOn session := by
  simp [Exchange.isOn, h]

theorem Deed.Fits.isOn {session : SessionId} {deed : Deed} (h : deed.Fits session) :
    ∀ e ∈ deed.calls, e.isOn session := by
  obtain ⟨part, calls, failure⟩ := deed
  intro e he
  cases part with
  | start => rw [show calls = [] from h.1] at he; cases he
  | call c =>
    obtain ⟨call, hcalls, hrequest, -⟩ := h
    rw [show calls = [call] from hcalls] at he
    rw [List.mem_singleton.mp he]
    exact isOn_of_request hrequest
  | hook phase steps =>
    obtain ⟨c, -, hrequest⟩ := h e he
    exact isOn_of_request hrequest

theorem fits_of_carryOut {d : Dom} {part : Part} {captured captured' : Captured} {terms : Terms σ}
    {s s' : Situation σ} {result : Except RunError Unit}
    (h : (part.carryOut d).run.run captured terms s = (.ok (result, captured'), s')) :
    ∃ calls, Asked s calls s' ∧ Deed.Fits d.session ⟨part, calls, failureOf result⟩ := by
  cases part with
  | start =>
    cases h
    exact ⟨[], rfl, rfl, rfl⟩
  | call c =>
    obtain ⟨dropped, mid, hdropped, hreturn⟩ := Run.bind_eq_ok_iff.mp h
    obtain ⟨reply, hcall, rfl⟩ := Attempt.discard_cases hdropped
    obtain ⟨now, answer, hasked, rfl⟩ := Attempt.answer_of_call hcall
    cases answer <;> cases hreturn <;>
      exact ⟨[_], hasked, _, rfl, rfl, Iff.rfl⟩
  | hook phase steps =>
    obtain ⟨calls, hleads⟩ := (d.uses_runHook steps captured).leads terms s
    have hs' : ((d.runHook steps).run.run captured terms s).2 = s' := congrArg (·.2) h
    rw [hs'] at hleads
    exact ⟨calls, hleads.asked, fun e he => (hleads.used e he).resolve_right id⟩

namespace Carried

variable {d : Dom} {terms : Terms σ} {plan : List Part} {captured : Captured}
  {s s' : Situation σ} {deeds : List Deed}

/-- Carrying out a plan that ends is a list of deeds, and a failure is that of a deed. -/
theorem of_carryOutAll {captured' : Captured} {result : Except RunError Unit}
    (h : (Part.carryOutAll d plan).run.run captured terms s = (.ok (result, captured'), s')) :
    ∃ deeds, Carried d terms plan captured s deeds s' ∧
      failureOf result = deeds.findSome? (·.failure) := by
  induction plan generalizing captured s with
  | nil =>
    cases h
    exact ⟨[], .done _ _, rfl⟩
  | cons part rest ih =>
    obtain ⟨e, hpart, rfl⟩ | ⟨⟨⟩, between, mid, hpart, hrest⟩ := Hook.bind_cases h
    · obtain ⟨calls, hasked, -⟩ := fits_of_carryOut hpart
      exact ⟨_, .stop hpart hasked, rfl⟩
    · obtain ⟨calls, hasked, -⟩ := fits_of_carryOut hpart
      obtain ⟨deeds, hdeeds, hresult⟩ := ih hrest
      exact ⟨_, .next hpart hasked hdeeds, hresult⟩

theorem asked (h : Carried d terms plan captured s deeds s') :
    Asked s (deeds.flatMap (·.calls)) s' := by
  induction h with
  | done captured s => exact .refl s
  | next _ hasked _ ih => exact hasked.trans ih
  | stop _ hasked => simpa using hasked

theorem fits (h : Carried d terms plan captured s deeds s') :
    ∀ deed ∈ deeds, deed.Fits d.session := by
  induction h with
  | done => exact List.forall_mem_nil _
  | next hpart hasked _ ih =>
    obtain ⟨calls, hcalls, hfits⟩ := fits_of_carryOut hpart
    rw [hcalls.unique hasked] at hfits
    intro deed hdeed
    rcases List.mem_cons.mp hdeed with rfl | hdeed
    · exact hfits
    · exact ih deed hdeed
  | stop hpart hasked =>
    obtain ⟨calls, hcalls, hfits⟩ := fits_of_carryOut hpart
    rw [hcalls.unique hasked] at hfits
    intro deed hdeed
    obtain rfl := List.mem_singleton.mp hdeed
    exact hfits

theorem parts_prefix (h : Carried d terms plan captured s deeds s') :
    deeds.map (·.part) <+: plan := by
  induction h with
  | done => exact List.prefix_refl []
  | next _ _ _ ih => exact List.prefix_cons_inj _ |>.mpr ih
  | stop => exact List.prefix_cons_inj _ |>.mpr (List.nil_prefix)

/-- Either the whole plan was carried out without a failure, or the last deed failed and no
other one did. -/
theorem ends (h : Carried d terms plan captured s deeds s') :
    (deeds.map (·.part) = plan ∧ ∀ deed ∈ deeds, deed.failure = none) ∨
    ∃ before last, deeds = before ++ [last] ∧ (∀ deed ∈ before, deed.failure = none) ∧
      last.failure.isSome := by
  induction h with
  | done => exact Or.inl ⟨rfl, List.forall_mem_nil _⟩
  | stop => exact Or.inr ⟨[], _, rfl, List.forall_mem_nil _, rfl⟩
  | next _ _ _ ih =>
    obtain ⟨hplan, hnone⟩ | ⟨before, last, rfl, hnone, hlast⟩ := ih
    · exact Or.inl ⟨by rw [List.map_cons, hplan], by simpa using hnone⟩
    · exact Or.inr ⟨_ :: before, last, rfl, by simpa using hnone, hlast⟩

end Carried

/-! ## Drains -/

/-- Drains of a log up to the first empty batch or to a failure, and what becomes of the records
they hand out. -/
inductive Drained (session : SessionId) :
    List Exchange → Except RunError (List (Event Float)) → Prop
  | empty (time : Nat) :
    Drained session
      [⟨time, .call session .drain, (.ok ([] : List String) : Except SessionError (List String))⟩]
      (.ok [])
  | fails (time : Nat) (e : SessionError) :
    Drained session
      [⟨time, .call session .drain, (.error e : Except SessionError (List String))⟩]
      (.error (.session e))
  | more (time : Nat) {batch : List String} {drains : List Exchange}
    {events : Except RunError (List (Event Float))} :
    batch ≠ [] → Drained session drains events →
    Drained session
      (⟨time, .call session .drain, (.ok batch : Except SessionError (List String))⟩ :: drains)
      (events.map (batch.filterMap Trace.classify ++ ·))

theorem Drained.request {session : SessionId} {drains : List Exchange}
    {events : Except RunError (List (Event Float))} (h : Drained session drains events) :
    ∀ e ∈ drains, e.request = .call session .drain := by
  induction h with
  | empty | fails => simp
  | more _ _ _ ih => simpa using ih

/-- What draining hands out are the events of all batches. -/
theorem Drained.events_eq {session : SessionId} {drains : List Exchange}
    {events : List (Event Float)} (h : Drained session drains (.ok events)) :
    events = (drains.filterMap (·.batch? session)).flatten.filterMap Trace.classify := by
  generalize hresult : (Except.ok events : Except RunError (List (Event Float))) = result at h
  induction h generalizing events with
  | empty =>
    cases hresult
    simp [Exchange.batch?]
  | fails => cases hresult
  | @more time batch drains result _ _ ih =>
    cases result with
    | error e => cases hresult
    | ok later =>
      cases hresult
      have hbatch : Exchange.batch? session
          ⟨time, .call session .drain, (.ok batch : Except SessionError (List String))⟩ =
          some batch := if_pos rfl
      rw [List.filterMap_cons_some hbatch, List.flatten_cons, List.filterMap_append, ← ih rfl]

theorem drained_of_drainAll {session : SessionId} {times : Nat} {terms : Terms σ}
    {s s' : Situation σ} {events : Except RunError (List (Event Float))}
    (h : (Trace.drainAll session times).run terms s = (.ok events, s')) :
    ∃ drains, Asked s drains s' ∧ Drained session drains events := by
  induction times generalizing s events with
  | zero =>
    obtain ⟨halt, now, hhang⟩ :=
      Run.hang_apply (α := Except RunError (List (Event Float))) terms s
    cases hhang.symm.trans h
  | succ times ih =>
    obtain ⟨e, hcall, rfl⟩ | ⟨batch, mid, hcall, hrest⟩ := Attempt.bind_cases h
    · obtain ⟨now, answer, hasked, hanswer⟩ := Attempt.answer_of_call hcall
      cases answer <;> cases hanswer
      exact ⟨_, hasked, .fails now _⟩
    · obtain ⟨now, answer, hasked, hanswer⟩ := Attempt.answer_of_call hcall
      cases answer <;> cases hanswer
      cases batch with
      | nil =>
        cases hrest
        exact ⟨_, hasked, .empty now⟩
      | cons record batch =>
        obtain ⟨e, hdrain, rfl⟩ | ⟨later, mid', hdrain, hreturn⟩ := Attempt.bind_cases hrest
        · obtain ⟨drains, hdrains, hevents⟩ := ih hdrain
          exact ⟨_, hasked.trans hdrains, .more now (List.cons_ne_nil record batch) hevents⟩
        · cases hreturn
          obtain ⟨drains, hdrains, hevents⟩ := ih hdrain
          exact ⟨_, hasked.trans hdrains, .more now (List.cons_ne_nil record batch) hevents⟩

theorem drained_of_collect {session : SessionId} {terms : Terms σ} {s s' : Situation σ}
    {events : Except RunError (List (Event Float))}
    (h : (Trace.collect session).run terms s = (.ok events, s')) :
    ∃ drains drained, Asked s drains s' ∧ Drained session drains drained ∧
      events = drained.map Trace.chronological := by
  obtain ⟨e, hpatience, -⟩ | ⟨times, mid, hpatience, hrest⟩ := Attempt.bind_cases h
  · cases hpatience
  · cases hpatience
    obtain ⟨e, hdrain, rfl⟩ | ⟨drained, mid', hdrain, hreturn⟩ := Attempt.bind_cases hrest
    · obtain ⟨drains, hasked, hdrained⟩ := drained_of_drainAll hdrain
      exact ⟨drains, _, hasked, hdrained, rfl⟩
    · cases hreturn
      obtain ⟨drains, hasked, hdrained⟩ := drained_of_drainAll hdrain
      exact ⟨drains, _, hasked, hdrained, rfl⟩

/-- The events that a session handed out, in the order of their times. -/
def eventsOf (session : SessionId) (trace : List Exchange) : List (Event Float) :=
  Trace.chronological ((trace.filterMap (·.batch? session)).flatten.filterMap Trace.classify)

theorem batch?_of_not_isOn {session : SessionId} {e : Exchange} (h : e.isOn session = false) :
    e.batch? session = none := by
  unfold Exchange.batch?
  split
  · next k batch =>
    have hne : k ≠ session := by simpa [Exchange.isOn] using h
    exact if_neg hne
  · rfl

theorem batch?_of_request {session : SessionId} {c : Call} {e : Exchange}
    (h : e.request = .call session c) (hc : c ≠ .drain) : e.batch? session = none := by
  unfold Exchange.batch?
  split
  · cases h
    exact absurd rfl hc
  · rfl

theorem Deed.Fits.filterMap_batch? {session : SessionId} {deed : Deed} (h : deed.Fits session)
    (hpart : deed.part ≠ .call .drain) : deed.calls.filterMap (·.batch? session) = [] := by
  obtain ⟨part, calls, failure⟩ := deed
  refine List.filterMap_eq_nil_iff.mpr fun e he => ?_
  cases part with
  | start => rw [show calls = [] from h.1] at he; cases he
  | call c =>
    obtain ⟨call, hcalls, hrequest, -⟩ := h
    rw [show calls = [call] from hcalls] at he
    rw [List.mem_singleton.mp he]
    exact batch?_of_request hrequest fun hc => hpart (congrArg Part.call hc)
  | hook phase steps =>
    obtain ⟨c, hdom, hrequest⟩ := h e he
    refine batch?_of_request hrequest ?_
    rintro rfl
    cases hdom

/-- Only calls on the session count. -/
theorem eventsOf_filter (session : SessionId) (trace : List Exchange) :
    eventsOf session (trace.filter (·.isOn session)) = eventsOf session trace := by
  have hbatches : (trace.filter (·.isOn session)).filterMap (·.batch? session) =
      trace.filterMap (·.batch? session) := by
    rw [List.filterMap_filter]
    congr 1
    funext e
    split
    · rfl
    · next hoff => exact (batch?_of_not_isOn (Bool.eq_false_iff.mpr hoff)).symm
  rw [eventsOf, eventsOf, hbatches]

/-! ## Sessions -/

/-- What is done in a session that ends: a plan is carried out, and if nothing failed, the log is
drained and the events are measured. -/
theorem work_cases {i : Implementation} {o : RunOptions} {plan : List Part}
    {measured : List (Event Float) → Except (Soundness Float) α} {session : SessionId}
    {terms : Terms σ} {s s' : Situation σ} {result : Except RunError α}
    (h : (work i o plan measured session).run terms s = (.ok result, s')) :
    ∃ deeds mid drains, Carried (Dom.ofSession session i o) terms plan [] s deeds mid ∧
      Asked mid drains s' ∧
      ((∃ e, deeds.findSome? (·.failure) = some e ∧ drains = [] ∧ result = .error e) ∨
        deeds.findSome? (·.failure) = none ∧ ∃ drained, Drained session drains drained ∧
          result = drained.bind fun events =>
            (measured (Trace.chronological events)).mapError .soundness) := by
  obtain ⟨e, hplan, rfl⟩ | ⟨⟨⟩, mid, hplan, hrest⟩ := Attempt.bind_cases h
  · obtain ⟨⟨carried, captured⟩, mid, hcarried, hreturn⟩ := Run.bind_eq_ok_iff.mp hplan
    cases hreturn
    obtain ⟨deeds, hdeeds, hfailure⟩ := Carried.of_carryOutAll hcarried
    exact ⟨deeds, s', [], hdeeds, .refl s', Or.inl ⟨e, hfailure.symm, rfl, rfl⟩⟩
  · obtain ⟨⟨carried, captured⟩, mid', hcarried, hreturn⟩ := Run.bind_eq_ok_iff.mp hplan
    cases hreturn
    obtain ⟨deeds, hdeeds, hfailure⟩ := Carried.of_carryOutAll hcarried
    obtain ⟨e, hcollect, rfl⟩ | ⟨events, mid', hcollect, hmeasured⟩ := Attempt.bind_cases hrest
    · obtain ⟨drains, drained, hasked, hdrained, hevents⟩ := drained_of_collect hcollect
      refine ⟨deeds, mid, drains, hdeeds, hasked, Or.inr ⟨hfailure.symm, drained, hdrained, ?_⟩⟩
      cases drained <;> cases hevents
      rfl
    · obtain ⟨drains, drained, hasked, hdrained, hevents⟩ := drained_of_collect hcollect
      cases hmeasured
      refine ⟨deeds, mid, drains, hdeeds, hasked, Or.inr ⟨hfailure.symm, drained, hdrained, ?_⟩⟩
      cases drained <;> cases hevents
      rfl

/-- The course of a session: it was opened in a situation, a plan was carried out, and if nothing
failed, the log was drained and the events were measured; then it was closed. -/
structure Course (i : Implementation) (o : RunOptions) (plan : List Part)
    (measured : List (Event Float) → Except (Soundness Float) α) (terms : Terms σ)
    (s : Situation σ) (result : Except RunError α) (s' opened : Situation σ) (deeds : List Deed)
    (drains : List Exchange) (close : Exchange) : Prop where
  opens : (Attempt.openSession o).run terms s = (.ok (.ok s.sessions), opened)
  opening : ∃ time, Asked s [⟨time, .openSession o, .ok ()⟩] opened
  carried : ∃ mid, Carried (Dom.ofSession s.sessions i o) terms plan [] opened deeds mid
  outcome : (∃ e, deeds.findSome? (·.failure) = some e ∧ drains = [] ∧ result = .error e) ∨
    deeds.findSome? (·.failure) = none ∧ ∃ drained, Drained s.sessions drains drained ∧
      result = drained.bind fun events =>
        (measured (Trace.chronological events)).mapError .soundness
  request : close.request = .call s.sessions .close
  asked : Asked opened (deeds.flatMap (·.calls) ++ drains ++ [close]) s'
  sessions : s'.sessions = s.sessions + 1

section

variable {i : Implementation} {b : Benchmark} {o : RunOptions} {terms : Terms σ}
  {s s' : Situation σ}

/-- A session of its own that ends either was not opened or took its course. -/
theorem withSession_cases {plan : List Part}
    {measured : List (Event Float) → Except (Soundness Float) α} {result : Except RunError α}
    (hplan : ∀ part ∈ plan, part ≠ .call .close)
    (h : (withSession o (work i o plan measured)).run terms s = (.ok result, s')) :
    (s'.sessions = s.sessions ∧ ∃ e, result = .error e) ∨
    ∃ opened deeds drains close,
      Course i o plan measured terms s result s' opened deeds drains close := by
  obtain ⟨e, hopen, rfl⟩ | ⟨session, opened, hopen, hrest⟩ := Attempt.bind_cases h
  · refine Or.inl ⟨?_, e, rfl⟩
    rw [Attempt.openSession_apply] at hopen
    split at hopen
    · cases hopen
    · next hask =>
      cases hopen
      exact (Run.answer_of_ask hask).2.1
    · cases hopen
  · obtain ⟨worked', worked, hwork, hclose⟩ := Run.bind_eq_ok_iff.mp hrest
    obtain ⟨⟨⟩, mid, hrelease, hreturn⟩ := Run.bind_eq_ok_iff.mp hclose
    cases hreturn
    rw [release, Run.discard_eq] at hrelease
    obtain ⟨answer, mid', hask, hdrop⟩ := Run.bind_eq_ok_iff.mp hrelease
    cases hdrop
    obtain ⟨⟨time, hcloses⟩, hsessions, -⟩ := Run.answer_of_ask hask
    have hstays : ((work i o plan measured session).run terms opened).2.sessions =
      opened.sessions := (uses_work session i o hplan).sessions_eq id terms opened
    rw [hwork] at hstays
    obtain ⟨deeds, done, drains, hcarried, hdrains, houtcome⟩ := work_cases hwork
    have hopens := hopen
    rw [Attempt.openSession_apply] at hopen
    split at hopen
    · next hopening =>
      cases hopen
      obtain ⟨⟨opening, hasked⟩, hcount, -⟩ := Run.answer_of_ask hopening
      rw [hcount] at hopens hcarried houtcome hcloses
      exact Or.inr ⟨_, deeds, drains, _, hopens, ⟨opening, hasked⟩, ⟨done, hcarried⟩, houtcome, rfl,
        (hcarried.asked.trans hdrains).trans hcloses, hsessions.trans (hstays.trans (by rw [hcount]))⟩
    · cases hopen
    · cases hopen

section

variable {plan : List Part} {measured : List (Event Float) → Except (Soundness Float) α}
  {result : Except RunError α} {opened : Situation σ} {deeds : List Deed} {drains : List Exchange}
  {close : Exchange}

/-- The calls of a session that took its course are all calls on it, if none were made on it
before or after. -/
theorem Course.filter_isOn
    (h : Course i o plan measured terms s result s' opened deeds drains close)
    {s'' : Situation σ} {later : List Exchange} (hlater : Asked s' later s'')
    (hbefore : ∀ e ∈ s.journal, e.isOn s.sessions = false)
    (hafter : ∀ e ∈ later, e.isOn s.sessions = false) :
    s''.journal.reverse.filter (·.isOn s.sessions) =
      deeds.flatMap (·.calls) ++ drains ++ [close] := by
  obtain ⟨mid, hcarried⟩ := h.carried
  obtain ⟨time, hopening⟩ := h.opening
  have hdrains : ∀ e ∈ drains, e.isOn s.sessions := by
    intro e he
    obtain ⟨-, -, rfl, -⟩ | ⟨-, drained, hdrained, -⟩ := h.outcome
    · cases he
    · exact isOn_of_request (hdrained.request e he)
  have hcalls : ∀ e ∈ deeds.flatMap (·.calls) ++ drains ++ [close], e.isOn s.sessions := by
    intro e he
    simp only [List.mem_append, List.mem_flatMap, List.mem_singleton] at he
    obtain (⟨deed, hdeed, he⟩ | he) | rfl := he
    · exact (hcarried.fits deed hdeed).isOn e he
    · exact hdrains e he
    · exact isOn_of_request h.request
  have hjournal : s''.journal.reverse =
      s.journal.reverse ++ (⟨time, .openSession o, .ok ()⟩ ::
        (deeds.flatMap (·.calls) ++ drains ++ [close] ++ later)) := by
    rw [hlater, h.asked, hopening]
    simp
  rw [hjournal, List.filter_append, List.filter_eq_nil_iff.mpr (by simpa using hbefore),
    List.nil_append, List.filter_cons_of_neg (by simp [Exchange.isOn]), List.filter_append,
    List.filter_eq_self.mpr hcalls, List.filter_eq_nil_iff.mpr (by simpa using hafter),
    List.append_nil]

/-- The result of a course that succeeds is measured from the events its session handed out. -/
theorem Course.measured_eventsOf {a : α}
    (h : Course i o plan measured terms s (.ok a) s' opened deeds drains close)
    (hplan : ∀ part ∈ plan, part ≠ .call .drain) :
    measured (eventsOf s.sessions (deeds.flatMap (·.calls) ++ drains ++ [close])) = .ok a := by
  obtain ⟨mid, hcarried⟩ := h.carried
  have hdeeds : (deeds.flatMap (·.calls)).filterMap (·.batch? s.sessions) = [] := by
    refine List.filterMap_eq_nil_iff.mpr fun e he => ?_
    obtain ⟨deed, hdeed, he⟩ := List.mem_flatMap.mp he
    have hpart : deed.part ≠ .call .drain :=
      hplan _ (hcarried.parts_prefix.subset (List.mem_map_of_mem hdeed))
    exact List.filterMap_eq_nil_iff.mp ((hcarried.fits deed hdeed).filterMap_batch? hpart) e he
  have hclose : [close].filterMap (·.batch? s.sessions) = [] :=
    List.filterMap_cons_none (batch?_of_request h.request nofun)
  rw [eventsOf, List.filterMap_append, List.filterMap_append, hdeeds, hclose, List.nil_append,
    List.append_nil]
  obtain ⟨e, -, -, herror⟩ | ⟨-, drained, hdrained, hresult⟩ := h.outcome
  · cases herror
  · cases drained with
    | error e => cases hresult
    | ok events =>
      rw [← hdrained.events_eq]
      change _ = (measured (Trace.chronological events)).mapError RunError.soundness at hresult
      cases hmeasured : measured (Trace.chronological events) with
      | error e => rw [hmeasured] at hresult; cases hresult
      | ok value => rw [hmeasured] at hresult; cases hresult; rfl

end

/-- Measuring a heap takes a session of its own, unless none can be opened. -/
theorem measureHeap_cases {heap : Except RunError Float}
    (h : (measureHeap i b o).run terms s = (.ok heap, s')) :
    (s'.sessions = s.sessions ∧ ∃ e, heap = .error e) ∨
    ∃ heaps opened deeds drains close,
      Course i o (memoryPlan i b o) Trace.memorySamples terms s heaps s' opened deeds drains close ∧
      ∀ value, heap = .ok value → heaps = .ok [value] := by
  rw [measureHeap_eq] at h
  have hplan := call_not_mem_iterationPlan (Or.inl rfl) i b o true
  obtain ⟨e, hsession, rfl⟩ | ⟨heaps, mid, hsession, hreturn⟩ := Attempt.bind_cases h
  · obtain ⟨hsame, -⟩ | ⟨opened, deeds, drains, close, hcourse⟩ := withSession_cases hplan hsession
    · exact Or.inl ⟨hsame, e, rfl⟩
    · exact Or.inr ⟨_, _, _, _, _, hcourse, fun value hok => nomatch hok⟩
  · obtain ⟨-, e, herror⟩ | ⟨opened, deeds, drains, close, hcourse⟩ :=
      withSession_cases hplan hsession
    · cases herror
    · obtain ⟨only, rfl, heq⟩ | ⟨e, heq⟩ := onlyHeap_cases (σ := σ) b heaps <;>
        rw [heq] at hreturn <;> cases hreturn
      · refine Or.inr ⟨_, _, _, _, _, hcourse, ?_⟩
        rintro _ ⟨⟩
        rfl
      · exact Or.inr ⟨_, _, _, _, _, hcourse, fun value hok => nomatch hok⟩

/-- Heaps take one session each. -/
theorem measureHeaps_ok {n : Nat} {heaps : List Float}
    (h : (measureHeaps i b o n).run terms s = (.ok (.ok heaps), s')) :
    s'.sessions = s.sessions + n ∧ heaps.length = n := by
  induction n generalizing s heaps with
  | zero =>
    cases h
    exact ⟨rfl, rfl⟩
  | succ n ih =>
    obtain ⟨e, -, herror⟩ | ⟨heap, mid, hheap, hrest⟩ := Attempt.bind_cases h
    · cases herror
    · obtain ⟨e, -, herror⟩ | ⟨heaps', mid', hheaps, hreturn⟩ := Attempt.bind_cases hrest
      · cases herror
      · cases hreturn
        obtain ⟨-, e, herror⟩ | ⟨_, _, _, _, _, hcourse, -⟩ := measureHeap_cases hheap
        · cases herror
        · obtain ⟨hsessions, hlength⟩ := ih hheaps
          rw [hsessions, hcourse.sessions]
          exact ⟨by omega, congrArg (· + 1) hlength⟩

/-- Measuring heaps makes no calls on sessions that were opened before. -/
theorem not_isOn_of_measureHeaps {n : Nat} {heaps : Except Halt (Except RunError (List Float))}
    (h : (measureHeaps i b o n).run terms s = (heaps, s')) {k : SessionId} (hk : k < s.sessions) :
    ∃ trace, Asked s trace s' ∧ ∀ e ∈ trace, e.isOn k = false := by
  obtain ⟨trace, occupancy, hasked, hsteps, -⟩ := attends_measureHeaps i b o n terms s
  rw [h] at hasked
  refine ⟨trace, hasked, fun e he => Bool.eq_false_iff.mpr fun hon => ?_⟩
  obtain hcurrent | hle := hsteps.le_of_isOn he hon
  · cases hcurrent
  · exact Nat.not_lt.mpr hle hk

/-- Each session of a memory benchmark took its course after heaps were measured in the ones
before it, and before anything was done in the ones after it. -/
theorem measureHeaps_cases {n : Nat} {heaps : Except RunError (List Float)}
    (h : (measureHeaps i b o n).run terms s = (.ok heaps, s')) {j : Nat}
    (hj : s.sessions + j < s'.sessions) :
    ∃ before earlier mid heap,
      (measureHeaps i b o j).run terms s = (.ok (.ok earlier), before) ∧
      (measureHeap i b o).run terms before = (.ok heap, mid) ∧ before.sessions < mid.sessions ∧
      (∃ later, Asked mid later s' ∧ ∀ e ∈ later, e.isOn (s.sessions + j) = false) ∧
      ∀ values, heaps = .ok values → ∃ value, heap = .ok value ∧ values[j]? = some value := by
  induction n generalizing s heaps j with
  | zero =>
    cases h
    exact absurd hj (Nat.not_lt.mpr (Nat.le_add_right _ j))
  | succ n ih =>
    obtain ⟨e, hheap, rfl⟩ | ⟨heap, mid, hheap, hrest⟩ := Attempt.bind_cases h
    · -- the first heap could not be measured, and there is no session after its own
      obtain ⟨hsame, -⟩ | ⟨_, _, _, _, _, hcourse, -⟩ := measureHeap_cases hheap
      · exact absurd hj (by omega)
      · obtain rfl : j = 0 := by
          have := hcourse.sessions
          omega
        exact ⟨s, [], s', _, rfl, hheap, hj, ⟨[], .refl s', List.forall_mem_nil _⟩,
          fun values hok => nomatch hok⟩
    · obtain ⟨-, e, herror⟩ | ⟨_, _, _, _, _, hcourse, -⟩ := measureHeap_cases hheap
      · cases herror
      have hrest' : ∃ result, (measureHeaps i b o n).run terms mid = (.ok result, s') ∧
          ∀ values, heaps = .ok values → ∃ later, result = .ok later ∧ values = heap :: later := by
        obtain ⟨e, hlater, rfl⟩ | ⟨later, mid', hlater, hreturn⟩ := Attempt.bind_cases hrest
        · exact ⟨_, hlater, fun values hok => nomatch hok⟩
        · cases hreturn
          refine ⟨_, hlater, ?_⟩
          rintro _ ⟨⟩
          exact ⟨later, rfl, rfl⟩
      obtain ⟨result, hlater, hvalues⟩ := hrest'
      cases j with
      | zero =>
        have hbefore : s.sessions < mid.sessions := by
          have := hcourse.sessions
          omega
        refine ⟨s, [], mid, _, rfl, hheap, hbefore, not_isOn_of_measureHeaps hlater hbefore, ?_⟩
        intro values hok
        obtain ⟨later, -, rfl⟩ := hvalues values hok
        exact ⟨heap, rfl, rfl⟩
      | succ j =>
        have hsessions : s.sessions + (j + 1) = mid.sessions + j := by
          have := hcourse.sessions
          omega
        rw [hsessions] at hj ⊢
        obtain ⟨before, earlier, mid', heap', hearlier, hheap', hopens, hafter, hvalue⟩ :=
          ih hlater hj
        refine ⟨before, heap :: earlier, mid', heap', ?_, hheap', hopens, hafter, ?_⟩
        · refine Run.bind_eq_ok_iff.mpr ⟨_, mid, hheap, ?_⟩
          exact Run.bind_eq_ok_iff.mpr ⟨_, before, hearlier, rfl⟩
        · intro values hok
          obtain ⟨later, rfl, rfl⟩ := hvalues values hok
          exact hvalue later rfl

/-- From the start on, measuring heaps makes no calls on sessions that are opened afterwards. -/
theorem not_isOn_of_start {n : Nat} {outside : σ} {disk : Disk}
    {heaps : Except Halt (Except RunError (List Float))}
    (h : (measureHeaps i b o n).run terms (.start outside disk) = (heaps, s)) :
    ∀ e ∈ s.journal, e.isOn s.sessions = false := by
  obtain ⟨trace, occupancy, hasked, hsteps, hopened, -⟩ :=
    attends_measureHeaps i b o n terms (.start outside disk)
  rw [h] at hasked hopened
  have hlater := (Occupancy.Accounts.start.steps hsteps).later s.sessions (Nat.le_of_eq hopened)
  intro e he
  rw [show s.journal = trace.reverse ++ [] from hasked] at he
  have hnone := List.filter_eq_nil_iff.mp hlater e (by simpa using he)
  simpa using hnone

/-- The sessions of a memory benchmark, and the calls on each of them. A heap was measured in
each session before. -/
theorem course_of_measureHeaps {n : Nat} {outside : σ} {disk : Disk} {s'' : Situation σ}
    {heaps : Except RunError (List Float)}
    (h : (measureHeaps i b o n).run terms (.start outside disk) = (.ok heaps, s'))
    (hlater : Asked s' [] s'') {session : SessionId} (hsession : session < s'.sessions) :
    ∃ before earlier result after opened deeds drains close, before.sessions = session ∧
      (measureHeaps i b o session).run terms (.start outside disk) = (.ok (.ok earlier), before) ∧
      Course i o (memoryPlan i b o) Trace.memorySamples terms before result after opened deeds drains
        close ∧
      s''.journal.reverse.filter (·.isOn session) = deeds.flatMap (·.calls) ++ drains ++ [close] ∧
      ∀ values, heaps = .ok values → ∃ value, values[session]? = some value ∧
        result = .ok [value] := by
  have hfirst : (Situation.start outside disk).sessions + session = session := Nat.zero_add session
  obtain ⟨before, earlier, after, heap, hearlier, hheap, hopens, ⟨later, hafter, hnone⟩, hvalues⟩ :=
    measureHeaps_cases h (j := session) (by rw [hfirst]; exact hsession)
  obtain rfl : before.sessions = session := by rw [(measureHeaps_ok hearlier).1, hfirst]
  obtain ⟨hsame, -⟩ | ⟨result, opened, deeds, drains, close, hcourse, hvalue⟩ :=
    measureHeap_cases hheap
  · exact absurd hsame (Nat.ne_of_gt hopens)
  · rw [hfirst] at hnone
    refine ⟨before, earlier, result, after, opened, deeds, drains, close, rfl, hearlier, hcourse,
      hcourse.filter_isOn (hafter.trans hlater) (not_isOn_of_start hearlier) (by simpa using hnone),
      fun values hok => ?_⟩
    obtain ⟨value, rfl, hget⟩ := hvalues values hok
    exact ⟨value, hget, hvalue value rfl⟩

/-! ## Runs -/

/-- How an attempt to persist ends. -/
def persisted : PersistOutcome → Except Halt (Except RunError Unit)
  | .written _ => .ok (.ok ())
  | .failed e => .ok (.error e)
  | .unordered range => .error (.crashed range.message)

theorem persist_apply {samples : Samples} {expected : Nat} {outcome : PersistOutcome} {d : Disk}
    (h : (ResultWriter.ofOptions o).persist i b samples expected s.disk = (outcome, d)) :
    (Attempt.persist o i b samples expected).run terms s =
      (persisted outcome, { s with disk := d }) := by
  have hdisk : Run.onDisk ((ResultWriter.ofOptions o).persist i b samples expected) terms s =
      (.ok outcome, { s with disk := d }) := by
    rw [Run.onDisk, h]
  refine (Run.bind_apply _ _ terms s).trans ?_
  rw [hdisk]
  cases outcome <;> rfl

/-- Writing the results asks for nothing. -/
theorem asked_of_persist {samples : Samples} {expected : Nat}
    {written : Except Halt (Except RunError Unit)}
    (h : (Attempt.persist o i b samples expected).run terms s = (written, s')) :
    Asked s [] s' ∧ s'.sessions = s.sessions := by
  have huses : Run.Uses (⟨fun _ => False, fun _ => False, False, True⟩ : Usage)
      (Attempt.persist o i b samples expected : Attempt σ Unit).run :=
    uses_persist i b o trivial samples expected
  obtain ⟨trace, hleads⟩ := huses.leads terms s
  rw [h] at hleads
  cases trace with
  | nil => exact ⟨hleads.asked, hleads.sessions.resolve_left id⟩
  | cons e trace => exact (hleads.used e List.mem_cons_self).elim False.elim False.elim

/-- What is measured is written when it is there, and else the run has failed. -/
theorem measureThenWrite_cases {measuring : Attempt σ α} {values : α → List Float}
    {warnings : α → List String} {result : Except Halt (Except RunError Unit × List String)}
    (h : measureThenWrite i b o measuring values warnings terms s = (result, s')) :
    (∃ failed : Except Halt RunError, measuring.run terms s = (failed.map .error, s') ∧
      result = failed.map fun e => (.error e, [])) ∨
    ∃ a mid written, measuring.run terms s = (.ok (.ok a), mid) ∧
      (Attempt.persist o i b (.timed (values a)) (o.iterationsFor b.kind)).run terms mid =
        (written, s') ∧
      result = written.map (·, warnings a) := by
  rw [measureThenWrite, Run.bind_apply] at h
  obtain ⟨⟨measured, mid⟩, hmeasure⟩ : ∃ p, measuring.run terms s = p := ⟨_, rfl⟩
  rw [hmeasure] at h
  obtain halt | ⟨e | a⟩ := measured
  · cases h
    exact Or.inl ⟨.error halt, hmeasure, rfl⟩
  · cases h
    exact Or.inl ⟨.ok e, hmeasure, rfl⟩
  · obtain ⟨⟨written, mid'⟩, hpersist⟩ : ∃ p, (Attempt.persist o i b (.timed (values a))
      (o.iterationsFor b.kind)).run terms mid = p := ⟨_, rfl⟩
    dsimp only at h
    rw [Run.bind_apply, hpersist] at h
    cases written <;> cases h <;> exact Or.inr ⟨a, mid, _, hmeasure, hpersist, rfl⟩

/-- A run that ends has measured, and has asked for nothing after that. -/
theorem asked_of_measureThenWrite {measuring : Attempt σ α} {values : α → List Float}
    {warnings : α → List String} {response : Except RunError Unit × List String}
    (h : measureThenWrite i b o measuring values warnings terms s = (.ok response, s')) :
    ∃ measured mid, measuring.run terms s = (.ok measured, mid) ∧ Asked mid [] s' ∧
      s'.sessions = mid.sessions := by
  obtain ⟨failed, hmeasure, hresult⟩ | ⟨a, mid, written, hmeasure, hpersist, -⟩ :=
    measureThenWrite_cases h
  · cases failed <;> cases hresult
    exact ⟨_, s', hmeasure, .refl s', rfl⟩
  · exact ⟨_, mid, hmeasure, asked_of_persist hpersist⟩

end

end Worker

end PaintBench
