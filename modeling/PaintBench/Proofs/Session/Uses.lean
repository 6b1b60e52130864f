import PaintBench.Session.Run

/-!
# What a run makes use of

`Run.Uses` says of a run which requests it puts to the outside, and whether it opens
sessions or works on the disk. Requests fall into those whose answers count and those
whose answers are dropped. The relation follows the way runs are put together, so that
every function has one lemma about it.

Three facts are read off: what enters the journal (`Run.Uses.leads`), that the session
count and the disk stay (`Run.Uses.sessions_eq`, `Run.Uses.disk_eq`), and that answers
which are dropped make no difference (`Run.Uses.sameIn`).
-/

namespace PaintBench

variable {σ α β : Type}

/-! ## Steps of a run -/

namespace Run

theorem bind_apply (run : Run σ α) (next : α → Run σ β) (terms : Terms σ)
    (s : Situation σ) :
    (run >>= next) terms s =
      match run terms s with
      | (.ok a, s') => next a terms s'
      | (.error halt, s') => (.error halt, s') := by
  change (let (x, s') := run terms s; ExceptT.bindCont (fun a => next a terms) x s') = _
  rcases run terms s with ⟨a | halt, s'⟩ <;> rfl

theorem discard_eq (run : Run σ α) : discard run = run >>= fun _ => pure () := rfl

/-- A run of two steps returns exactly if the first step does, and the second one after
it. -/
theorem bind_eq_ok_iff {run : Run σ α} {next : α → Run σ β} {terms : Terms σ}
    {s s' : Situation σ} {b : β} :
    (run >>= next) terms s = (.ok b, s') ↔
      ∃ a mid, run terms s = (.ok a, mid) ∧ next a terms mid = (.ok b, s') := by
  rw [bind_apply]
  rcases run terms s with ⟨halt | a, mid⟩
  · constructor
    · intro h
      cases h
    · rintro ⟨a, mid', h, -⟩
      cases h
  · constructor
    · intro h
      exact ⟨a, mid, rfl, h⟩
    · rintro ⟨a', mid', h, hnext⟩
      cases h
      exact hnext

end Run

namespace Attempt

/-- An attempt of two steps. -/
theorem bind_apply (act : Attempt σ α) (next : α → Attempt σ β) (terms : Terms σ)
    (s : Situation σ) :
    (act >>= next).run terms s =
      match act.run terms s with
      | (.ok (.ok a), mid) => (next a).run terms mid
      | (.ok (.error e), mid) => (.ok (.error e), mid)
      | (.error halt, mid) => (.error halt, mid) := by
  refine (Run.bind_apply act.run _ terms s).trans ?_
  rcases act.run terms s with ⟨halt | ⟨e | a⟩, mid⟩ <;> rfl

variable {act : Attempt σ α} {next : α → Attempt σ β} {terms : Terms σ} {s mid s' : Situation σ}

/-- After a first step that succeeds comes the second one. -/
theorem bind_of_ok {a : α} {result : Except Halt (Except RunError β)}
    (h : act.run terms s = (.ok (.ok a), mid)) (hnext : (next a).run terms mid = (result, s')) :
    (act >>= next).run terms s = (result, s') := by
  rw [bind_apply, h]
  exact hnext

/-- A first step that fails is the last one. -/
theorem bind_of_error {e : RunError} (h : act.run terms s = (.ok (.error e), s')) :
    (act >>= next).run terms s = (.ok (.error e), s') := by
  rw [bind_apply, h]

end Attempt

/-- The exchanges that took place between two situations, in their order. -/
def Asked (s : Situation σ) (trace : List Exchange) (s' : Situation σ) : Prop :=
  s'.journal = trace.reverse ++ s.journal

namespace Asked

variable {s mid s' : Situation σ}

theorem refl (s : Situation σ) : Asked s [] s := rfl

theorem trans {trace trace' : List Exchange} (h : Asked s trace mid) (h' : Asked mid trace' s') :
    Asked s (trace ++ trace') s' := by
  rw [Asked, h', h, List.reverse_append, List.append_assoc]

theorem mem_journal {trace : List Exchange} {e : Exchange} (h : Asked s trace s')
    (he : e ∈ trace) : e ∈ s'.journal :=
  h ▸ List.mem_append_left _ (List.mem_reverse.mpr he)

theorem unique {trace trace' : List Exchange} (h : Asked s trace s') (h' : Asked s trace' s') :
    trace = trace' := by
  have hreverse : trace.reverse = trace'.reverse := List.append_cancel_right (h.symm.trans h')
  exact List.reverse_inj.mp hreverse

end Asked

/-! ## Uses -/

/-- What a run may make use of. -/
structure Usage where
  /-- requests whose answers count -/
  heeds : Request → Prop
  /-- requests whose answers are dropped -/
  ignores : Request → Prop
  /-- whether sessions are opened -/
  opens : Prop
  /-- whether the disk is worked on -/
  writes : Prop

/-- Nothing but some requests, the answers to which count. -/
def Usage.only (heeds : Request → Prop) : Usage :=
  ⟨heeds, fun _ => False, False, False⟩

/-- A run makes use of nothing else. -/
inductive Run.Uses (u : Usage) : {α : Type} → Run σ α → Prop
  | pure {α : Type} (a : α) : Uses u (pure a)
  | bind {α β : Type} {run : Run σ α} {next : α → Run σ β} :
    Uses u run → (∀ a, Uses u (next a)) → Uses u (run >>= next)
  | ask {r : Request} : u.heeds r → Uses u (Run.ask r)
  | askInVain {r : Request} : u.ignores r → Uses u (discard (Run.ask r))
  | hang {α : Type} : Uses u (Run.hang : Run σ α)
  | sleep (ms : Nat) : Uses u (Run.sleep ms)
  | clock : Uses u Run.clock
  | endTurn : Uses u Run.endTurn
  | patience : Uses u Run.patience
  | crash {α : Type} (text : String) : Uses u (Run.crash text : Run σ α)
  | within {α : Type} (limit : Nat) {run : Run σ α} : Uses u run → Uses u (Run.within limit run)
  | nextSession : u.opens → Uses u Run.nextSession
  | onDisk {α : Type} (work : Disk → α × Disk) : u.writes → Uses u (Run.onDisk work)

/-- What makes use of less makes use of nothing else either. -/
theorem Run.Uses.mono {u u' : Usage} {run : Run σ α} (h : Uses u run)
    (hheeds : ∀ r, u.heeds r → u'.heeds r) (hignores : ∀ r, u.ignores r → u'.ignores r)
    (hopens : u.opens → u'.opens) (hwrites : u.writes → u'.writes) : Uses u' run := by
  induction h with
  | pure a => exact .pure a
  | bind _ _ ihrun ihnext => exact .bind ihrun ihnext
  | ask hr => exact .ask (hheeds _ hr)
  | askInVain hr => exact .askInVain (hignores _ hr)
  | hang => exact .hang
  | sleep ms => exact .sleep ms
  | clock => exact .clock
  | endTurn => exact .endTurn
  | patience => exact .patience
  | crash text => exact .crash text
  | within limit _ ih => exact .within limit ih
  | nextSession h => exact .nextSession (hopens h)
  | onDisk work h => exact .onDisk work (hwrites h)

namespace Run

variable {u : Usage} {run : Run σ α}

/-! ### The journal, the session count and the disk -/

/-- Waiting in vain changes nothing but the time. -/
theorem hang_apply (terms : Terms σ) (s : Situation σ) :
    ∃ halt now, (hang : Run σ α) terms s = (.error halt, { s with now }) := by
  cases h : terms.deadline with
  | none => exact ⟨.stuck, s.now, by rw [hang, h]⟩
  | some deadline => exact ⟨.expired, max s.now deadline, by rw [hang, h]⟩

/-- Waiting changes nothing but the time. -/
theorem sleep_apply (ms : Nat) (terms : Terms σ) (s : Situation σ) :
    ∃ result now, sleep ms terms s = (result, { s with now }) := by
  rw [sleep]
  split
  · exact ⟨_, _, rfl⟩
  · obtain ⟨halt, now, h⟩ := hang_apply (α := Unit) terms s
    exact ⟨_, now, h⟩

/-- The end of a turn changes nothing. -/
theorem endTurn_apply (terms : Terms σ) (s : Situation σ) :
    ∃ result, endTurn terms s = (result, s) := by
  rw [endTurn]
  split
  · exact ⟨_, rfl⟩
  · split <;> exact ⟨_, rfl⟩

/-- A request that takes some time is answered at the end of it, if that is in time. -/
theorem ask_of_after {r : Request} {terms : Terms σ} {s : Situation σ} {ms : Nat} {outside : σ}
    (h : terms.world.receive r s.outside = (.after ms, outside)) :
    ask r terms s =
      if Terms.allows terms (s.now + ms) then
        (.ok (terms.world.answer r (s.now + ms) outside).1,
          { s with
            now := s.now + ms
            outside := (terms.world.answer r (s.now + ms) outside).2
            journal :=
              ⟨s.now + ms, r, (terms.world.answer r (s.now + ms) outside).1⟩ :: s.journal })
      else hang terms { s with outside } := by
  simp only [ask, h]

theorem ask_of_never {r : Request} {terms : Terms σ} {s : Situation σ} {outside : σ}
    (h : terms.world.receive r s.outside = (.never, outside)) :
    ask r terms s = hang terms { s with outside } := by
  simp only [ask, h]

theorem ask_of_crash {r : Request} {terms : Terms σ} {s : Situation σ} {text : String}
    {outside : σ} (h : terms.world.receive r s.outside = (.crash text, outside)) :
    ask r terms s = (.error (.crashed text), { s with outside }) := by
  simp only [ask, h]

/-- A request is answered and noted, or it ends the run and is not noted. -/
theorem ask_cases (r : Request) (terms : Terms σ) (s : Situation σ) :
    (∃ answer now outside, ask r terms s = (.ok answer,
      { s with now, outside, journal := ⟨now, r, answer⟩ :: s.journal })) ∨
    ∃ halt now outside, ask r terms s = (.error halt, { s with now, outside }) := by
  rcases h : terms.world.receive r s.outside with ⟨receipt, outside⟩
  obtain ⟨halt, now, hlate⟩ := hang_apply (α := r.Answer) terms { s with outside }
  cases receipt with
  | crash text => exact Or.inr ⟨_, _, outside, ask_of_crash h⟩
  | never => exact Or.inr ⟨halt, now, outside, (ask_of_never h).trans hlate⟩
  | after ms =>
    by_cases hallows : Terms.allows terms (s.now + ms)
    · exact Or.inl ⟨_, _, _, (ask_of_after h).trans (if_pos hallows)⟩
    · exact Or.inr ⟨halt, now, outside, (ask_of_after h).trans ((if_neg hallows).trans hlate)⟩

/-- The terms with a deadline some milliseconds from now, or the one there is if that
comes first. -/
def Terms.limited (terms : Terms σ) (now limit : Nat) : Terms σ :=
  { terms with deadline := some ((terms.deadline.map (min · (now + limit))).getD (now + limit)) }

/-- What a limit makes of the end of a run: that it expired is a result, unless the outer
deadline has passed as well. -/
def endWithin (terms : Terms σ) (time : Nat) : Except Halt α → Except Halt (Option α)
  | .ok a => .ok (some a)
  | .error .expired => if Terms.allows terms time then .ok none else .error .expired
  | .error .stuck => .error .stuck
  | .error (.crashed text) => .error (.crashed text)

theorem within_apply (limit : Nat) (run : Run σ α) (terms : Terms σ) (s : Situation σ) :
    within limit run terms s =
      (endWithin terms (s.now + limit) (run (Terms.limited terms s.now limit) s).1,
        (run (Terms.limited terms s.now limit) s).2) := by
  rw [within, Terms.limited]
  cases terms.deadline
  all_goals
    simp only [Option.map_none, Option.map_some, Option.getD_none, Option.getD_some]
    rcases run _ s with ⟨halt | a, s'⟩
    · cases halt with
      | expired => exact (apply_ite (·, s') _ _ _).symm
      | stuck | crashed => rfl
    · rfl

end Run

/-- Without a deadline, a call is answered when its answer is due. -/
theorem Attempt.call_of_after {w : World σ} {session : SessionId} {c : Call} {s : Situation σ}
    {ms : Nat} {mid outside : σ} {answer : Except SessionError c.Reply}
    (hreceive : w.receive (.call session c) s.outside = (.after ms, mid))
    (hanswer : w.answer (.call session c) (s.now + ms) mid = (answer, outside)) (patience : Nat) :
    (Attempt.call session c).run ⟨w, none, patience⟩ s =
      (.ok (answer.mapError .session), { s with
        now := s.now + ms
        outside := outside
        journal := ⟨s.now + ms, .call session c, answer⟩ :: s.journal }) := by
  refine Run.bind_eq_ok_iff.mpr ⟨answer, _, ?_, rfl⟩
  rw [Run.ask_of_after hreceive, hanswer]
  rfl

/-- What may become of a situation by a run that makes use of something. -/
structure Usage.Leads (u : Usage) (s : Situation σ) (trace : List Exchange)
    (s' : Situation σ) : Prop where
  asked : Asked s trace s'
  used : ∀ e ∈ trace, u.heeds e.request ∨ u.ignores e.request
  sessions : u.opens ∨ s'.sessions = s.sessions
  disk : u.writes ∨ s'.disk = s.disk

namespace Usage.Leads

variable {u : Usage} {s mid s' : Situation σ}

theorem refl (u : Usage) (s : Situation σ) : u.Leads s [] s :=
  ⟨rfl, by simp, Or.inr rfl, Or.inr rfl⟩

theorem trans {trace trace' : List Exchange} (h : u.Leads s trace mid)
    (h' : u.Leads mid trace' s') : u.Leads s (trace ++ trace') s' where
  asked := h.asked.trans h'.asked
  used e he := (List.mem_append.mp he).elim (h.used e) (h'.used e)
  sessions := h.sessions.elim Or.inl fun hs => h'.sessions.imp_right (·.trans hs)
  disk := h.disk.elim Or.inl fun hd => h'.disk.imp_right (·.trans hd)

end Usage.Leads

namespace Run.Uses

variable {u : Usage} {run : Run σ α}

/-- A run does to a situation what its uses allow, however it ends. -/
theorem leads (h : Uses u run) (terms : Terms σ) (s : Situation σ) :
    ∃ trace, u.Leads s trace (run terms s).2 := by
  induction h generalizing terms s with
  | bind _ _ ihrun ihnext =>
    obtain ⟨trace, htrace⟩ := ihrun terms s
    rw [bind_apply]
    split
    · next a mid hrun =>
      rw [hrun] at htrace
      obtain ⟨trace', htrace'⟩ := ihnext a terms mid
      exact ⟨_, htrace.trans htrace'⟩
    · next halt mid hrun =>
      rw [hrun] at htrace
      exact ⟨trace, htrace⟩
  | @ask r hr =>
    obtain ⟨answer, now, outside, h⟩ | ⟨halt, now, outside, h⟩ := ask_cases r terms s
    · rw [h]
      exact ⟨[⟨now, r, answer⟩], rfl, by simp [hr], Or.inr rfl, Or.inr rfl⟩
    · rw [h]
      exact ⟨[], rfl, by simp, Or.inr rfl, Or.inr rfl⟩
  | @askInVain r hr =>
    rw [discard_eq, bind_apply]
    obtain ⟨answer, now, outside, h⟩ | ⟨halt, now, outside, h⟩ := ask_cases r terms s
    · rw [h]
      exact ⟨[⟨now, r, answer⟩], rfl, by simp [hr], Or.inr rfl, Or.inr rfl⟩
    · rw [h]
      exact ⟨[], rfl, by simp, Or.inr rfl, Or.inr rfl⟩
  | within limit _ ih =>
    rw [within_apply]
    exact ih (Terms.limited terms s.now limit) s
  | hang =>
    obtain ⟨halt, now, h⟩ := hang_apply terms s
    rw [h]
    exact ⟨[], rfl, by simp, Or.inr rfl, Or.inr rfl⟩
  | sleep ms =>
    obtain ⟨result, now, h⟩ := sleep_apply ms terms s
    rw [h]
    exact ⟨[], rfl, by simp, Or.inr rfl, Or.inr rfl⟩
  | endTurn =>
    obtain ⟨result, h⟩ := endTurn_apply terms s
    rw [h]
    exact ⟨[], .refl u s⟩
  | nextSession hopens => exact ⟨[], rfl, by simp, Or.inl hopens, Or.inr rfl⟩
  | onDisk work hwrites => exact ⟨[], rfl, by simp, Or.inr rfl, Or.inl hwrites⟩
  | pure | clock | patience | crash => exact ⟨[], .refl u s⟩

theorem sessions_eq (h : Uses u run) (hopens : ¬u.opens) (terms : Terms σ)
    (s : Situation σ) : (run terms s).2.sessions = s.sessions :=
  (h.leads terms s).elim fun _ hleads => hleads.sessions.resolve_left hopens

theorem disk_eq (h : Uses u run) (hwrites : ¬u.writes) (terms : Terms σ)
    (s : Situation σ) : (run terms s).2.disk = s.disk :=
  (h.leads terms s).elim fun _ hleads => hleads.disk.resolve_left hwrites

end Run.Uses

/-! ### Answers that make no difference -/

/-- Outsides that differ at most in how they answer some requests. -/
structure World.AgreeBut (differ : Request → Prop) (w w' : World σ) : Prop where
  receive : w'.receive = w.receive
  state : ∀ r time s, (w'.answer r time s).2 = (w.answer r time s).2
  answer : ∀ r, ¬differ r → ∀ time s, (w'.answer r time s).1 = (w.answer r time s).1

namespace Run

/-- A run does the same in another outside, whatever was noted so far: it has the same
result and leaves the same situation up to the journal. -/
def SameIn (w : World σ) (run : Run σ α) (terms : Terms σ) (s : Situation σ) : Prop :=
  ∀ journal, ∃ journal', run { terms with world := w } { s with journal } =
    ((run terms s).1, { (run terms s).2 with journal := journal' })

theorem sameIn_hang (w : World σ) (terms : Terms σ) (s : Situation σ) :
    SameIn w (hang : Run σ α) terms s := by
  intro journal
  refine ⟨journal, ?_⟩
  unfold hang
  cases terms.deadline <;> rfl

theorem sameIn_sleep (w : World σ) (ms : Nat) (terms : Terms σ) (s : Situation σ) :
    SameIn w (sleep ms) terms s := by
  intro journal
  by_cases h : Terms.allows terms (s.now + min ms longestSleep)
  · exact ⟨journal, by
      rw [sleep, sleep, if_pos h]
      exact if_pos h⟩
  · obtain ⟨journal', hhang⟩ := sameIn_hang (α := Unit) w terms s journal
    exact ⟨journal', by
      rw [sleep, sleep, if_neg h, ← hhang]
      exact if_neg h⟩

theorem sameIn_endTurn (w : World σ) (terms : Terms σ) (s : Situation σ) :
    SameIn w endTurn terms s := by
  intro journal
  refine ⟨journal, ?_⟩
  unfold endTurn
  dsimp only
  cases terms.deadline with
  | none => rfl
  | some deadline => dsimp only; split <;> rfl

variable {w : World σ} {terms : Terms σ} {s : Situation σ}

theorem SameIn.bind {run : Run σ α} {next : α → Run σ β} (h : SameIn w run terms s)
    (hnext : ∀ a s, SameIn w (next a) terms s) : SameIn w (run >>= next) terms s := by
  intro journal
  obtain ⟨journal', hrun⟩ := h journal
  simp only [bind_apply, hrun]
  rcases run terms s with ⟨halt | a, mid⟩
  · exact ⟨journal', rfl⟩
  · exact hnext a mid journal'

theorem SameIn.within {run : Run σ α} (limit : Nat)
    (h : SameIn w run (Terms.limited terms s.now limit) s) :
    SameIn w (Run.within limit run) terms s := by
  intro journal
  obtain ⟨journal', hrun⟩ := h journal
  refine ⟨journal', ?_⟩
  have hlimited : Terms.limited { terms with world := w } s.now limit =
      { Terms.limited terms s.now limit with world := w } := rfl
  simp only [within_apply, hlimited, hrun]
  congr 1

/-- A request is received alike in outsides that agree, and answered alike as far as they
agree on the answer. -/
theorem ask_agree {differ : Request → Prop} (hagree : terms.world.AgreeBut differ w)
    (r : Request) (s : Situation σ) (journal : List Exchange) :
    (∃ halt mid journal', ask r terms s = (.error halt, mid) ∧
      ask r { terms with world := w } { s with journal } =
        (.error halt, { mid with journal := journal' })) ∨
    ∃ answer answer' mid journal', ask r terms s = (.ok answer, mid) ∧
      ask r { terms with world := w } { s with journal } =
        (.ok answer', { mid with journal := journal' }) ∧ (¬differ r → answer' = answer) := by
  rcases h : terms.world.receive r s.outside with ⟨receipt, outside⟩
  have h' : w.receive r s.outside = (receipt, outside) := by rw [hagree.receive, h]
  obtain ⟨halt, mid, journal', hlate, hlate'⟩ : ∃ halt mid journal',
      (hang : Run σ r.Answer) terms { s with outside } = (.error halt, mid) ∧
      (hang : Run σ r.Answer) { terms with world := w } { s with outside, journal } =
        (.error halt, { mid with journal := journal' }) := by
    obtain ⟨halt, now, hhang⟩ := hang_apply (α := r.Answer) terms { s with outside }
    obtain ⟨journal', hhang'⟩ :=
      sameIn_hang (α := r.Answer) w terms { s with outside } journal
    rw [hhang] at hhang'
    exact ⟨halt, _, journal', hhang, hhang'⟩
  cases receipt with
  | crash text => exact Or.inl ⟨_, _, journal, ask_of_crash h, ask_of_crash h'⟩
  | never =>
    exact Or.inl ⟨halt, mid, journal', (ask_of_never h).trans hlate, (ask_of_never h').trans hlate'⟩
  | after ms =>
    rw [ask_of_after h, ask_of_after h']
    by_cases hallows : Terms.allows terms (s.now + ms)
    · refine Or.inr ⟨_, (w.answer r (s.now + ms) outside).1, _,
        ⟨s.now + ms, r, (w.answer r (s.now + ms) outside).1⟩ :: journal, if_pos hallows,
        (if_pos hallows).trans ?_, fun hr => hagree.answer r hr _ _⟩
      rw [← hagree.state]
    · exact Or.inl ⟨halt, mid, journal', (if_neg hallows).trans hlate,
        (if_neg hallows).trans hlate'⟩

/-- The answers that a run does not use make no difference to it. -/
theorem Uses.sameIn {u : Usage} {run : Run σ α} (h : Uses u run) {differ : Request → Prop}
    (hheeds : ∀ r, u.heeds r → ¬differ r) (hagree : terms.world.AgreeBut differ w)
    (s : Situation σ) : SameIn w run terms s := by
  induction h generalizing terms s with
  | bind _ _ ihrun ihnext => exact (ihrun hagree s).bind fun a mid => ihnext a hagree mid
  | @ask r hr =>
    intro journal
    obtain ⟨halt, mid, journal', h, h'⟩ | ⟨answer, answer', mid, journal', h, h', hsame⟩ :=
      ask_agree hagree r s journal
    · exact ⟨journal', by rw [h, h']⟩
    · exact ⟨journal', by rw [h, h', hsame (hheeds r hr)]⟩
  | @askInVain r hr =>
    intro journal
    obtain ⟨halt, mid, journal', h, h'⟩ | ⟨answer, answer', mid, journal', h, h', -⟩ :=
      ask_agree hagree r s journal
    · exact ⟨journal', by simp only [discard_eq, bind_apply, h, h']⟩
    · exact ⟨journal', by simp only [discard_eq, bind_apply, h, h']; rfl⟩
  | within limit _ ih =>
    exact .within limit (@ih (Terms.limited terms s.now limit) hagree s)
  | hang => exact sameIn_hang w terms s
  | sleep ms => exact sameIn_sleep w ms terms s
  | endTurn => exact sameIn_endTurn w terms s
  | pure | clock | patience | crash | nextSession | onDisk =>
    exact fun journal => ⟨journal, rfl⟩

end Run

namespace Attempt

/-- Opening a session asks for it and numbers it, or fails as the outside does. -/
theorem openSession_apply (o : RunOptions) (terms : Terms σ) (s : Situation σ) :
    (openSession o : Attempt σ SessionId).run terms s =
      match Run.ask (.openSession o) terms s with
      | (.ok (.ok ()), s') => (.ok (.ok s'.sessions), { s' with sessions := s'.sessions + 1 })
      | (.ok (.error e), s') => (.ok (.error (.session e)), s')
      | (.error halt, s') => (.error halt, s') := by
  refine (Run.bind_apply (Run.ask (.openSession o)) _ terms s).trans ?_
  rcases Run.ask (.openSession o) terms s with ⟨halt | answer, s'⟩
  · rfl
  · cases answer <;> rfl

end Attempt

end PaintBench
