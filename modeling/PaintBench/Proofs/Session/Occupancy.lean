import PaintBench.Proofs.Session.Uses

/-!
# One session at a time

`Occupancy.Step` says what may happen next while a session is open, or while none is, and a
run may keep to it (`Run.Attends`). What that means for the sessions is read off the journal
(`Occupancy.Accounts`, `Run.Attends.orderly`).
-/

namespace PaintBench

variable {σ α β : Type}

/-! ## Exchanges -/

namespace Exchange

/-- Whether a session was asked for. -/
def asksForSession (e : Exchange) : Bool :=
  match e.request with
  | .openSession _ => true
  | _ => false

/-- Whether a session was opened. -/
def opensSession : Exchange → Bool
  | ⟨_, .openSession _, .ok _⟩ => true
  | _ => false

/-- Whether a call was made on a session. -/
def isOn (session : SessionId) (e : Exchange) : Bool :=
  match e.request with
  | .call k _ => k == session
  | _ => false

/-- Whether a session was closed, or closing it was tried. -/
def closes (session : SessionId) (e : Exchange) : Bool :=
  match e.request with
  | .call k .close => k == session
  | _ => false

theorem closes_of_not_isOn {session : SessionId} {e : Exchange} (h : e.isOn session = false) :
    e.closes session = false := by
  unfold isOn at h
  unfold closes
  split at h
  · next hcall =>
    rw [hcall]
    split
    · next hclose =>
      cases hclose
      exact h
    · rfl
  · next hcall =>
    split
    · next hclose => exact absurd hclose (hcall _ _)
    · rfl

end Exchange

/-- A session was opened and not closed since. Sessions are numbered in the order in which
they were opened. -/
def OpenAfter (trace : List Exchange) (session : SessionId) : Prop :=
  session < trace.countP Exchange.opensSession ∧ ∀ e ∈ trace, e.closes session = false

/-- A session was closed once, and nothing was asked of it afterwards. -/
def ClosedLast (trace : List Exchange) (session : SessionId) : Prop :=
  ∃ calls close, trace.filter (·.isOn session) = calls ++ [close] ∧ close.closes session ∧
    ∀ e ∈ calls, e.closes session = false

/-- What holds of the sessions of a run. They are counted. Once the run has returned, each of
them was closed last. At no moment are two of them open, and none is when another one is asked
for. -/
structure OrderlySessions (trace : List Exchange) (sessions : Nat) (returned : Prop) : Prop where
  counted : trace.countP Exchange.opensSession = sessions
  closed : returned → ∀ session < sessions, ClosedLast trace session
  alone : ∀ earlier, earlier <+: trace →
    ∀ k k', OpenAfter earlier k → OpenAfter earlier k' → k = k'
  oneAfterAnother : ∀ earlier e later, trace = earlier ++ e :: later → e.asksForSession →
    ∀ k, ¬OpenAfter earlier k

/-! ## Occupancies -/

/-- How many sessions were opened, and which one is open. -/
structure Occupancy where
  opened : Nat
  current : Option SessionId

namespace Occupancy

/-- What may happen next. Calls are made on the session that is open, and another one is
opened when none is. -/
inductive Step : Occupancy → Exchange → Occupancy → Prop
  | opens (n time : Nat) (o : RunOptions) :
    Step ⟨n, none⟩ ⟨time, .openSession o, .ok ()⟩ ⟨n + 1, some n⟩
  | refuses (n time : Nat) (o : RunOptions) (e : SessionError) :
    Step ⟨n, none⟩ ⟨time, .openSession o, .error e⟩ ⟨n, none⟩
  | calls (n time : Nat) (k : SessionId) {c : Call} (answer : (Request.call k c).Answer) :
    c ≠ .close → Step ⟨n, some k⟩ ⟨time, .call k c, answer⟩ ⟨n, some k⟩
  | closes (n time : Nat) (k : SessionId) (answer : (Request.call k .close).Answer) :
    Step ⟨n, some k⟩ ⟨time, .call k .close, answer⟩ ⟨n, none⟩
  | audits (n time : Nat) (url : String) (o : RunOptions) (answer : (Request.audit url o).Answer) :
    Step ⟨n, none⟩ ⟨time, .audit url o, answer⟩ ⟨n, none⟩

theorem Step.current_of_asksForSession {o o' : Occupancy} {e : Exchange} (h : Step o e o')
    (hasks : e.asksForSession) : o.current = none := by
  cases h with
  | opens | refuses | audits => rfl
  | calls | closes => exact Bool.noConfusion hasks

/-- What may happen one after the other. -/
inductive Steps : Occupancy → List Exchange → Occupancy → Prop
  | nil (o : Occupancy) : Steps o [] o
  | cons {o mid o' : Occupancy} {e : Exchange} {trace : List Exchange} :
    Step o e mid → Steps mid trace o' → Steps o (e :: trace) o'

theorem Steps.append {o mid o' : Occupancy} {trace trace' : List Exchange}
    (h : Steps o trace mid) (h' : Steps mid trace' o') : Steps o (trace ++ trace') o' := by
  induction h with
  | nil => exact h'
  | cons hstep _ ih => exact .cons hstep (ih h')

theorem Steps.split {o o' : Occupancy} {trace trace' : List Exchange}
    (h : Steps o (trace ++ trace') o') : ∃ mid, Steps o trace mid ∧ Steps mid trace' o' := by
  induction trace generalizing o with
  | nil => exact ⟨o, .nil o, h⟩
  | cons e trace ih =>
    cases h with
    | cons hstep h =>
      obtain ⟨mid, hfirst, hrest⟩ := ih h
      exact ⟨mid, .cons hstep hfirst, hrest⟩

/-- Calls are made on the session that was open at first and on later ones. -/
theorem Steps.le_of_isOn {o o' : Occupancy} {trace : List Exchange} (h : Steps o trace o')
    {e : Exchange} (he : e ∈ trace) {k : SessionId} (hon : e.isOn k) :
    o.current = some k ∨ o.opened ≤ k := by
  induction h with
  | nil => cases he
  | cons hstep _ ih =>
    rcases List.mem_cons.mp he with rfl | hlater
    · cases hstep with
      | opens | refuses | audits => cases hon
      | calls | closes => exact Or.inl (congrArg some (eq_of_beq hon))
    · cases hstep with
      | refuses | audits | calls => exact ih hlater
      | closes => exact Or.inr ((ih hlater).resolve_left nofun)
      | opens =>
        rcases ih hlater with hcurrent | hle
        · exact Or.inr (Nat.le_of_eq (Option.some.inj hcurrent))
        · exact Or.inr (Nat.le_of_succ_le hle)

/-- What an occupancy says about what happened before. -/
structure Accounts (o : Occupancy) (trace : List Exchange) : Prop where
  opened : trace.countP Exchange.opensSession = o.opened
  later : ∀ k, o.opened ≤ k → trace.filter (·.isOn k) = []
  current : ∀ k, o.current = some k → k < o.opened ∧ ∀ e ∈ trace, e.closes k = false
  earlier : ∀ k < o.opened, o.current ≠ some k → ClosedLast trace k

theorem Accounts.start : Accounts ⟨0, none⟩ [] where
  opened := rfl
  later _ _ := rfl
  current _ h := nomatch h
  earlier _ h := absurd h (Nat.not_lt_zero _)

theorem Accounts.closes_of_later {o : Occupancy} {trace : List Exchange} (h : Accounts o trace)
    {k : SessionId} (hk : o.opened ≤ k) {e : Exchange} (he : e ∈ trace) : e.closes k = false := by
  have hnone := List.filter_eq_nil_iff.mp (h.later k hk) e he
  exact Exchange.closes_of_not_isOn (by simpa using hnone)

/-- What happens on no session changes nothing in the accounts. -/
theorem Accounts.append_idle {o : Occupancy} {trace : List Exchange} (h : Accounts o trace)
    {e : Exchange} (hopens : e.opensSession = false) (hidle : ∀ k, e.isOn k = false) :
    Accounts o (trace ++ [e]) where
  opened := by simp [hopens, h.opened]
  later k hk := by simp [hidle, h.later k hk]
  current k hk := by
    simpa [Exchange.closes_of_not_isOn (hidle k), or_imp, forall_and] using h.current k hk
  earlier k hk hne := by simpa [ClosedLast, hidle] using h.earlier k hk hne

/-- A call on the open session changes nothing in the accounts of the other ones. -/
theorem Accounts.append_other {n k : Nat} {trace : List Exchange}
    (h : Accounts ⟨n, some k⟩ trace) {e : Exchange} (hon : ∀ k', k' ≠ k → e.isOn k' = false) :
    (∀ k', n ≤ k' → (trace ++ [e]).filter (·.isOn k') = []) ∧
    ∀ k' < n, k' ≠ k → ClosedLast (trace ++ [e]) k' := by
  constructor
  · intro k' hk'
    have hlt : k < n := (h.current k rfl).1
    have hne : k' ≠ k := by omega
    simpa [hon k' hne] using h.later k' hk'
  · intro k' hk' hne
    have hother : some k ≠ some k' := fun heq => hne (Option.some.inj heq).symm
    simpa [ClosedLast, hon k' hne] using h.earlier k' hk' hother

theorem Accounts.step {o o' : Occupancy} {trace : List Exchange} {e : Exchange}
    (h : Accounts o trace) (hstep : Step o e o') : Accounts o' (trace ++ [e]) := by
  cases hstep with
  | refuses n time o e => exact h.append_idle rfl fun _ => rfl
  | audits n time url o answer => exact h.append_idle rfl fun _ => rfl
  | opens n time o =>
    refine ⟨by simp [h.opened, Exchange.opensSession], fun k hk => ?_, ?_, fun k hk hne => ?_⟩
    · simpa [Exchange.isOn] using h.later k (Nat.le_of_succ_le hk)
    · rintro k ⟨⟩
      refine ⟨Nat.lt_succ_self n, fun e he => ?_⟩
      rcases List.mem_append.mp he with he | he
      · exact h.closes_of_later (Nat.le_refl n) he
      · rw [List.mem_singleton.mp he]
        rfl
    · have hkn : k ≠ n := fun hkn => hne (congrArg some hkn.symm)
      have hlt : k < n := Nat.lt_of_le_of_ne (Nat.le_of_lt_succ hk) hkn
      simpa [ClosedLast, Exchange.isOn] using h.earlier k hlt nofun
  | @calls n time k c answer hc =>
    have hon (k' : SessionId) (hne : k' ≠ k) : (⟨time, .call k c, answer⟩ : Exchange).isOn k' = false :=
      beq_false_of_ne hne.symm
    obtain ⟨hlater, hearlier⟩ := h.append_other hon
    refine ⟨by simp [h.opened, Exchange.opensSession], hlater, ?_, fun k' hk' hne =>
      hearlier k' hk' fun heq => hne (congrArg some heq.symm)⟩
    rintro k' ⟨⟩
    refine ⟨(h.current k rfl).1, fun e he => ?_⟩
    rcases List.mem_append.mp he with he | he
    · exact (h.current k rfl).2 e he
    · rw [List.mem_singleton.mp he]
      cases c <;> first | rfl | exact absurd rfl hc
  | closes n time k answer =>
    have hon (k' : SessionId) (hne : k' ≠ k) :
        (⟨time, .call k .close, answer⟩ : Exchange).isOn k' = false :=
      beq_false_of_ne hne.symm
    obtain ⟨hlater, hearlier⟩ := h.append_other hon
    refine ⟨by simp [h.opened, Exchange.opensSession], hlater, nofun, fun k' hk' _ => ?_⟩
    by_cases hne : k' = k
    · subst hne
      refine ⟨trace.filter (·.isOn k'), ⟨time, .call k' .close, answer⟩, ?_, ?_, fun e he => ?_⟩
      · simp [Exchange.isOn]
      · simp [Exchange.closes]
      · exact (h.current k' rfl).2 e (List.mem_filter.mp he).1
    · exact hearlier k' hk' hne

theorem Accounts.steps {o o' : Occupancy} {past trace : List Exchange} (h : Accounts o past)
    (hsteps : Steps o trace o') : Accounts o' (past ++ trace) := by
  induction hsteps generalizing past with
  | nil => simpa using h
  | cons hstep _ ih => simpa using ih (h.step hstep)

theorem Accounts.openAfter_iff {o : Occupancy} {trace : List Exchange} (h : Accounts o trace)
    {k : SessionId} : OpenAfter trace k ↔ o.current = some k := by
  constructor
  · rintro ⟨hlt, hopen⟩
    rw [h.opened] at hlt
    refine Decidable.byContradiction fun hne => ?_
    obtain ⟨calls, close, hcalls, hclose, -⟩ := h.earlier k hlt hne
    have hmem : close ∈ trace.filter (·.isOn k) := by simp [hcalls]
    rw [hopen close (List.mem_filter.mp hmem).1] at hclose
    cases hclose
  · intro hcurrent
    rw [OpenAfter, h.opened]
    exact h.current k hcurrent

end Occupancy

/-! ## Runs -/

/-- A run that starts while a certain session is open, or none, keeps to what may happen,
however it ends. It asks for so many sessions at most. If it returns, it has asked for so
many at least, and what is open afterwards depends on its result. -/
def Run.Attends (run : Run σ α) (before : Option SessionId) (afterwards : α → Option SessionId)
    (least most : Nat) : Prop :=
  ∀ terms s, ∃ trace o, Asked s trace (run terms s).2 ∧
    Occupancy.Steps ⟨s.sessions, before⟩ trace o ∧ o.opened = (run terms s).2.sessions ∧
    trace.countP Exchange.asksForSession ≤ most ∧
    ∀ a, (run terms s).1 = .ok a →
      o.current = afterwards a ∧ least ≤ trace.countP Exchange.asksForSession

namespace Run.Attends

variable {before : Option SessionId} {least least' most most' : Nat}

theorem mono {run : Run σ α} {afterwards : α → Option SessionId}
    (h : Attends run before afterwards least most) (hleast : least' ≤ least)
    (hmost : most ≤ most') : Attends run before afterwards least' most' := by
  intro terms s
  obtain ⟨trace, o, hasked, hsteps, hopened, hcount, hreturn⟩ := h terms s
  exact ⟨trace, o, hasked, hsteps, hopened, Nat.le_trans hcount hmost, fun a ha =>
    ⟨(hreturn a ha).1, Nat.le_trans hleast (hreturn a ha).2⟩⟩

theorem pure {afterwards : α → Option SessionId} {a : α} (h : before = afterwards a) :
    Attends (Pure.pure a : Run σ α) before afterwards 0 0 := by
  intro terms s
  refine ⟨[], ⟨s.sessions, before⟩, rfl, .nil _, rfl, Nat.le_refl 0, ?_⟩
  rintro _ ⟨⟩
  exact ⟨h, Nat.le_refl 0⟩

theorem bind {run : Run σ α} {next : α → Run σ β} {mid : α → Option SessionId}
    {afterwards : β → Option SessionId} (h : Attends run before mid least most)
    (hnext : ∀ a, Attends (next a) (mid a) afterwards least' most') :
    Attends (run >>= next) before afterwards (least + least') (most + most') := by
  intro terms s
  obtain ⟨trace, o, hasked, hsteps, hopened, hcount, hreturn⟩ := h terms s
  rw [bind_apply]
  split
  · next a s' hrun =>
    rw [hrun] at hasked hopened hreturn
    obtain ⟨hcurrent, hleast⟩ := hreturn a rfl
    obtain ⟨trace', o', hasked', hsteps', hopened', hcount', hreturn'⟩ := hnext a terms s'
    have ho : o = ⟨s'.sessions, mid a⟩ := by rw [← hopened, ← hcurrent]
    rw [ho] at hsteps
    refine ⟨trace ++ trace', o', hasked.trans hasked', hsteps.append hsteps', hopened', ?_,
      fun b hb => ⟨(hreturn' b hb).1, ?_⟩⟩
    · rw [List.countP_append]
      exact Nat.add_le_add hcount hcount'
    · rw [List.countP_append]
      exact Nat.add_le_add hleast (hreturn' b hb).2
  · next halt s' hrun =>
    rw [hrun] at hasked hopened
    exact ⟨trace, o, hasked, hsteps, hopened, Nat.le_add_right_of_le hcount, nofun⟩

/-- A second step that asks for no session. -/
theorem bindIdle {run : Run σ α} {next : α → Run σ β} {mid : α → Option SessionId}
    {afterwards : β → Option SessionId} (h : Attends run before mid least most)
    (hnext : ∀ a, Attends (next a) (mid a) afterwards 0 0) :
    Attends (run >>= next) before afterwards least most :=
  h.bind hnext

/-- After a failure nothing more is done. -/
theorem attempt {act : Attempt σ α} {next : α → Attempt σ β}
    (h : Attends act.run before (fun _ => before) least most)
    (hnext : ∀ a, Attends (next a).run before (fun _ => before) 0 most') :
    Attends (act >>= next).run before (fun _ => before) least (most + most') := by
  have hcont (result : Except RunError α) :
      Attends (ExceptT.bindCont next result) before (fun _ => before) 0 most' := by
    cases result with
    | ok a => exact hnext a
    | error e => exact mono (pure (a := Except.error e) rfl) (Nat.le_refl 0) (Nat.zero_le most')
  exact h.bind hcont

/-- What stays with the same session, or with none, opens none. -/
theorem ofUses {u : Usage} {run : Run σ α} (h : Uses u run) (hopens : ¬u.opens)
    (hstays : ∀ n time r (answer : r.Answer), u.heeds r ∨ u.ignores r →
      Occupancy.Step ⟨n, before⟩ ⟨time, r, answer⟩ ⟨n, before⟩) :
    Attends run before (fun _ => before) 0 0 := by
  intro terms s
  obtain ⟨trace, hleads⟩ := h.leads terms s
  have hsteps (n : Nat) : Occupancy.Steps ⟨n, before⟩ trace ⟨n, before⟩ := by
    have hused := hleads.used
    clear hleads
    induction trace with
    | nil => exact .nil _
    | cons e trace ih =>
      exact .cons (hstays n e.time e.request e.answer (hused e (by simp)))
        (ih fun e he => hused e (by simp [he]))
  have hnone : ∀ e ∈ trace, ¬e.asksForSession := by
    rintro ⟨time, r, answer⟩ he hasks
    cases r with
    | openSession o => cases hstays 0 0 (.openSession o) (.ok ()) (hleads.used _ he)
    | call | audit => cases hasks
  refine ⟨trace, _, hleads.asked, hsteps s.sessions,
    (hleads.sessions.resolve_left hopens).symm, ?_, fun _ _ => ⟨rfl, Nat.zero_le _⟩⟩
  exact Nat.le_of_eq (List.countP_eq_zero.mpr hnone)

/-- What attending means for the sessions, from the start on. -/
theorem orderly {run : Run σ α} (h : Attends run none (fun _ => none) least most)
    (terms : Terms σ) (outside : σ) (disk : Disk) :
    OrderlySessions (run terms (.start outside disk)).2.journal.reverse
      (run terms (.start outside disk)).2.sessions
      (∃ a, (run terms (.start outside disk)).1 = .ok a) := by
  obtain ⟨trace, o, hasked, hsteps, hopened, -, hreturn⟩ := h terms (.start outside disk)
  have htrace : (run terms (.start outside disk)).2.journal.reverse = trace := by
    rw [hasked]
    simp [Situation.start]
  have haccounts : o.Accounts trace := Occupancy.Accounts.start.steps hsteps
  rw [htrace, ← hopened]
  refine ⟨haccounts.opened, ?_, ?_, ?_⟩
  · rintro ⟨a, ha⟩ session hsession
    exact haccounts.earlier session hsession (by simp [(hreturn a ha).1])
  · rintro earlier ⟨later, rfl⟩ k k' hk hk'
    obtain ⟨mid, hearlier, -⟩ := hsteps.split
    have hmid : mid.Accounts earlier := Occupancy.Accounts.start.steps hearlier
    exact Option.some.inj ((hmid.openAfter_iff.mp hk).symm.trans (hmid.openAfter_iff.mp hk'))
  · rintro earlier e later rfl hasks k hk
    obtain ⟨mid, hearlier, hrest⟩ := hsteps.split
    have hmid : mid.Accounts earlier := Occupancy.Accounts.start.steps hearlier
    cases hrest with
    | cons hstep _ =>
      have hcurrent := hmid.openAfter_iff.mp hk
      rw [hstep.current_of_asksForSession hasks] at hcurrent
      cases hcurrent

/-- How often attending asks for a session, from the start on. -/
theorem countP_asksForSession {run : Run σ α} (h : Attends run none (fun _ => none) least most)
    (terms : Terms σ) (outside : σ) (disk : Disk) :
    (run terms (.start outside disk)).2.journal.reverse.countP Exchange.asksForSession ≤ most ∧
    ((∃ a, (run terms (.start outside disk)).1 = .ok a) →
      least ≤ (run terms (.start outside disk)).2.journal.reverse.countP
        Exchange.asksForSession) := by
  obtain ⟨trace, o, hasked, -, -, hmost, hreturn⟩ := h terms (.start outside disk)
  have htrace : (run terms (.start outside disk)).2.journal.reverse = trace := by
    rw [hasked]
    simp [Situation.start]
  rw [htrace]
  exact ⟨hmost, fun ⟨a, ha⟩ => (hreturn a ha).2⟩

end Run.Attends

end PaintBench
