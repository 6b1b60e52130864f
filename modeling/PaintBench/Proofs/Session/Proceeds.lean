import PaintBench.Proofs.Page.Uses

/-!
# How runs proceed

A `Procedure` relates what is asked to how it ends. A run that proceeds by one (`Run.Proceeds`)
does so in every outside and from every situation, also when it is stopped on the way. The
procedure of a run is put together from those of its steps (`Run.Proceeds.bind`,
`Attempt.Proceeds.bind`); a single request is answered or stops the run (`Run.proceeds_ask`). A
wait polls its condition until it holds (`Attempt.proceeds_waitUntil`).
-/

namespace PaintBench

variable {σ α β : Type}

/-- What may be asked, and how it may end then. -/
abbrev Procedure (α : Type) := List Exchange → Except Halt α → Prop

/-- A request is answered, or stops the run. -/
inductive Answered (r : Request) : Procedure r.Answer
  | answer (time : Nat) (answer : r.Answer) : Answered r [⟨time, r, answer⟩] (.ok answer)
  | halt (halt : Halt) : Answered r [] (.error halt)

theorem Answered.eq_nil {r : Request} {trace : List Exchange} {halt : Halt}
    (h : Answered r trace (.error halt)) : trace = [] := by
  cases h
  rfl

theorem Answered.exists_eq {r : Request} {trace : List Exchange} {answer : r.Answer}
    (h : Answered r trace (.ok answer)) : ∃ time, trace = [⟨time, r, answer⟩] := by
  cases h
  exact ⟨_, rfl⟩

/-- A call is answered, which makes an exchange, or stops the run. -/
inductive Called (exchange : Nat → Except SessionError α → Exchange) :
    Procedure (Except RunError α)
  | answer (time : Nat) (answer : Except SessionError α) :
    Called exchange [exchange time answer] (.ok (answer.mapError .session))
  | halt (halt : Halt) : Called exchange [] (.error halt)

namespace Called

variable {exchange : Nat → Except SessionError α → Exchange} {trace : List Exchange}

theorem exists_answer {result : Except RunError α} (h : Called exchange trace (.ok result)) :
    ∃ time answer, trace = [exchange time answer] ∧ result = answer.mapError .session := by
  cases h with
  | answer time answer => exact ⟨time, answer, rfl, rfl⟩

theorem exists_success {a : α} (h : Called exchange trace (.ok (.ok a))) :
    ∃ time, trace = [exchange time (.ok a)] := by
  obtain ⟨time, failure | a', rfl, hresult⟩ := h.exists_answer
  · cases hresult
  · cases hresult
    exact ⟨time, rfl⟩

theorem exists_failure {e : RunError} (h : Called exchange trace (.ok (.error e))) :
    ∃ time failure, trace = [exchange time (.error failure)] ∧ e = .session failure := by
  obtain ⟨time, failure | a, rfl, hresult⟩ := h.exists_answer
  · cases hresult
    exact ⟨time, failure, rfl, rfl⟩
  · cases hresult

end Called

namespace Run

/-- A run asks and ends as a procedure allows, whatever the answers are. -/
def Proceeds (p : Procedure α) (run : Run σ α) : Prop :=
  ∀ terms s, ∃ trace, Asked s trace (run terms s).2 ∧ p trace (run terms s).1

namespace Proceeds

variable {run : Run σ α} {next : α → Run σ β} {p : Procedure α} {q : α → Procedure β}
  {r : Procedure β}

theorem pure {a : α} (h : p [] (.ok a)) : Proceeds p (Pure.pure a : Run σ α) :=
  fun _ s => ⟨[], .refl s, h⟩

/-- A run of two steps proceeds by the first one alone, or by both in turn. -/
theorem bind (h : Proceeds p run) (hnext : ∀ a, Proceeds (q a) (next a))
    (hhalt : ∀ {trace halt}, p trace (.error halt) → r trace (.error halt))
    (hgoesOn : ∀ {first a rest result}, p first (.ok a) → q a rest result →
      r (first ++ rest) result) : Proceeds r (run >>= next) := by
  intro terms s
  obtain ⟨first, hfirst, hp⟩ := h terms s
  rw [bind_apply]
  rcases hrun : run terms s with ⟨halt | a, mid⟩
  · rw [hrun] at hfirst hp
    exact ⟨first, hfirst, hhalt hp⟩
  · rw [hrun] at hfirst hp
    obtain ⟨rest, hrest, hq⟩ := hnext a terms mid
    exact ⟨first ++ rest, hfirst.trans hrest, hgoesOn hp hq⟩

/-- With a limit nothing else is asked, and what is returned is what was returned in time. -/
theorem within (limit : Nat) (h : Proceeds p run) :
    Proceeds (fun trace result => ∃ inner, p trace inner ∧
      ∀ a, result = .ok (some a) ↔ inner = .ok a) (Run.within limit run) := by
  intro terms s
  obtain ⟨trace, hasked, hp⟩ := h (Terms.limited terms s.now limit) s
  rw [within_apply]
  refine ⟨trace, hasked, _, hp, fun a => ?_⟩
  rcases (run (Terms.limited terms s.now limit) s).1 with (_ | _ | text) | a'
  · rw [endWithin]
    split <;> simp
  · simp [endWithin]
  · simp [endWithin]
  · simp [endWithin]

end Proceeds

theorem proceeds_ask (r : Request) : Proceeds (Answered r) (ask r : Run σ r.Answer) := by
  intro terms s
  obtain ⟨answer, now, outside, h⟩ | ⟨halt, now, outside, h⟩ := ask_cases r terms s
  · rw [h]
    exact ⟨[⟨now, r, answer⟩], rfl, .answer now answer⟩
  · rw [h]
    exact ⟨[], rfl, .halt halt⟩

/-- A run that makes use of no requests asks nothing. -/
theorem Uses.proceeds {run : Run σ α} (h : Uses (.only fun _ => False) run) :
    Proceeds (fun trace _ => trace = []) run := by
  intro terms s
  obtain ⟨trace, hleads⟩ := h.leads terms s
  refine ⟨trace, hleads.asked, ?_⟩
  exact List.eq_nil_iff_forall_not_mem.mpr fun e he => (hleads.used e he).elim id id

/-- A first step that asks nothing adds nothing. -/
theorem Proceeds.after_silent {run : Run σ α} {next : α → Run σ β} {p : Procedure β}
    (hrun : Uses (.only fun _ => False) run) (hnext : ∀ a, Proceeds p (next a))
    (hhalt : ∀ halt, p [] (.error halt)) : Proceeds p (run >>= next) := by
  refine hrun.proceeds.bind hnext ?_ ?_
  · rintro _ halt rfl
    exact hhalt halt
  · rintro _ a rest result rfl hp
    exact hp

end Run

namespace Attempt

/-- An attempt asks and ends as a procedure allows. -/
def Proceeds (p : Procedure (Except RunError α)) (act : Attempt σ α) : Prop :=
  Run.Proceeds p act.run

namespace Proceeds

variable {act : Attempt σ α} {next : α → Attempt σ β} {p : Procedure (Except RunError α)}
  {q : α → Procedure (Except RunError β)} {r : Procedure (Except RunError β)}

theorem pure {a : α} (h : p [] (.ok (.ok a))) : Attempt.Proceeds p (Pure.pure a : Attempt σ α) :=
  Run.Proceeds.pure h

theorem fail {e : RunError} (h : p [] (.ok (.error e))) :
    Attempt.Proceeds p (Attempt.fail e : Attempt σ α) :=
  Run.Proceeds.pure h

/-- A run that cannot fail is an attempt. -/
theorem lift {p : Procedure α} {run : Run σ α} (h : Run.Proceeds p run) :
    Attempt.Proceeds (fun trace result => ∃ inner, p trace inner ∧ result = inner.map .ok)
      (ExceptT.lift run : Attempt σ α) := by
  refine Run.Proceeds.bind h (q := fun a trace result => trace = [] ∧ result = .ok (.ok a))
    (fun a => .pure ⟨rfl, rfl⟩) (fun hhalt => ⟨_, hhalt, rfl⟩) ?_
  rintro first a rest result hfirst ⟨rfl, rfl⟩
  exact ⟨.ok a, by rwa [List.append_nil], rfl⟩

/-- The second step of an attempt is taken if the first one succeeds. -/
theorem bind (h : Attempt.Proceeds p act) (hnext : ∀ a, Attempt.Proceeds (q a) (next a))
    (hhalt : ∀ {trace halt}, p trace (.error halt) → r trace (.error halt))
    (hfail : ∀ {trace e}, p trace (.ok (.error e)) → r trace (.ok (.error e)))
    (hgoesOn : ∀ {first a rest result}, p first (.ok (.ok a)) → q a rest result →
      r (first ++ rest) result) : Attempt.Proceeds r (act >>= next) := by
  intro terms s
  obtain ⟨first, hfirst, hp⟩ := h terms s
  rw [bind_apply]
  rcases hrun : act.run terms s with ⟨halt | ⟨e | a⟩, mid⟩
  · rw [hrun] at hfirst hp
    exact ⟨first, hfirst, hhalt hp⟩
  · rw [hrun] at hfirst hp
    exact ⟨first, hfirst, hfail hp⟩
  · rw [hrun] at hfirst hp
    obtain ⟨rest, hrest, hq⟩ := hnext a terms mid
    exact ⟨first ++ rest, hfirst.trans hrest, hgoesOn hp hq⟩

end Proceeds

theorem proceeds_call (session : SessionId) (c : Call) :
    Attempt.Proceeds (Called fun time answer => ⟨time, .call session c, answer⟩)
      (Attempt.call session c : Attempt σ c.Reply) := by
  refine Run.Proceeds.bind (Run.proceeds_ask (.call session c))
    (q := fun answer trace result => trace = [] ∧ result = .ok (Except.mapError .session answer))
    (fun answer => .pure ⟨rfl, rfl⟩) ?_ ?_
  · intro trace halt h
    obtain rfl := Answered.eq_nil h
    exact .halt halt
  · rintro first answer rest result h ⟨rfl, rfl⟩
    obtain ⟨time, rfl⟩ := Answered.exists_eq h
    exact .answer time answer

end Attempt

/-! ## Polling -/

/-- Polls of a condition until it holds, or until the run is stopped in a poll or between two. -/
inductive Polled (p : Procedure (Except RunError Bool)) : Procedure Unit
  | holds {poll : List Exchange} : p poll (.ok (.ok true)) → Polled p poll (.ok ())
  | notYet {poll rest : List Exchange} {held : Except RunError Bool} {result : Except Halt Unit} :
    p poll (.ok held) → held ≠ .ok true → Polled p rest result → Polled p (poll ++ rest) result
  | halts {poll : List Exchange} {halt : Halt} : p poll (.error halt) → Polled p poll (.error halt)
  | stops (halt : Halt) : Polled p [] (.error halt)

variable {condition : Attempt σ Bool} {p : Procedure (Except RunError Bool)}

/-- There are polls in which the condition does not hold or fails, and a last one, in which it
holds or which is not finished. -/
theorem Polled.exists_polls {trace : List Exchange} {result : Except Halt Unit}
    (h : Polled p trace result) : ∃ (earlier : List (List Exchange)) (last : List Exchange),
      trace = earlier.flatten ++ last ∧
      (∀ poll ∈ earlier, ∃ held, held ≠ .ok true ∧ p poll (.ok held)) ∧
      (result = .ok () ∧ p last (.ok (.ok true)) ∨
        ∃ halt, result = .error halt ∧ (p last (.error halt) ∨ last = [])) := by
  induction h with
  | holds h => exact ⟨[], _, rfl, fun _ h => absurd h List.not_mem_nil, Or.inl ⟨rfl, h⟩⟩
  | @notYet poll rest held result hpoll hheld _ ih =>
    obtain ⟨earlier, last, rfl, hearlier, hlast⟩ := ih
    refine ⟨poll :: earlier, last, ?_, ?_, hlast⟩
    · rw [List.flatten_cons, List.append_assoc]
    · exact List.forall_mem_cons.mpr ⟨⟨held, hheld, hpoll⟩, hearlier⟩
  | halts h =>
    exact ⟨[], _, rfl, fun _ h => absurd h List.not_mem_nil, Or.inr ⟨_, rfl, Or.inl h⟩⟩
  | stops halt =>
    exact ⟨[], [], rfl, fun _ h => absurd h List.not_mem_nil, Or.inr ⟨halt, rfl, Or.inr rfl⟩⟩

theorem Run.proceeds_pollUntil (interval : Nat) (h : Attempt.Proceeds p condition) :
    ∀ polls pauses, Proceeds (Polled p) (pollUntil interval condition pauses polls)
  | 0, _ => by
    intro terms s
    obtain ⟨halt, now, hhang⟩ := hang_apply (α := Unit) terms s
    rw [pollUntil, hhang]
    exact ⟨[], rfl, .stops halt⟩
  | polls + 1, pauses => by
    rw [pollUntil]
    refine .after_silent .clock (fun start => ?_) .stops
    refine Run.Proceeds.bind h (q := fun held rest result => ∀ poll, p poll (.ok held) →
      Polled p (poll ++ rest) result) ?_ .halts fun hpoll hq => hq _ hpoll
    intro held
    split
    · refine .pure fun poll hpoll => ?_
      rw [List.append_nil]
      exact .holds hpoll
    · next hheld =>
      have hmore (pauses : Nat) := proceeds_pollUntil interval h polls pauses
      have hrest (finish : Nat) := Proceeds.after_silent (uses_pause interval
        (if finish = start then pauses else pausesPerTurn - 1)) hmore .stops
      exact fun terms s => (Proceeds.after_silent .clock hrest .stops terms s).imp
        fun rest hpolled => ⟨hpolled.1, fun poll hpoll => .notYet hpoll hheld hpolled.2⟩

/-- A wait asks what its polls ask, and succeeds if the condition holds in the last one. -/
theorem Attempt.proceeds_waitUntil (interval : Duration) (description : String) (limit : Duration)
    (h : Attempt.Proceeds p condition) :
    Attempt.Proceeds (fun trace result => ∃ polling, Polled p trace polling ∧
        (result = .ok (.ok ()) ↔ polling = .ok ()))
      (Attempt.waitUntil interval description limit condition) := by
  rw [Attempt.waitUntil]
  refine Run.Proceeds.after_silent (Run.uses_pollBudget interval.ticks limit.ticks)
    (fun polls => ?_) fun halt => ⟨_, .stops halt, by simp⟩
  refine Run.Proceeds.bind
    ((Run.proceeds_pollUntil interval.ticks h polls Run.pausesPerTurn).within limit.ticks)
    (q := fun held trace result => trace = [] ∧ (result = .ok (.ok ()) ↔ held = some ())) ?_ ?_ ?_
  · intro held
    cases held with
    | none => exact .pure ⟨rfl, by simp⟩
    | some => exact .pure ⟨rfl, by simp⟩
  · rintro trace halt ⟨polling, hpolled, hreturned⟩
    exact ⟨polling, hpolled, by simp [← hreturned]⟩
  · rintro first held rest result ⟨polling, hpolled, hreturned⟩ ⟨rfl, hresult⟩
    rw [List.append_nil]
    exact ⟨polling, hpolled, by simp [hresult, ← hreturned]⟩

end PaintBench
