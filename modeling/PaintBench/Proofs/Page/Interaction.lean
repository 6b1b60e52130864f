import PaintBench.Proofs.Page.Lookup
import PaintBench.Proofs.Page.Settles

/-!
# Interactions happen at most once

An `Interaction` is a call that does something with one node, such as a click or the reading of a
text. It is tried five times at most. In a trial the target is looked up and, if it is found, the
call is made on the node that was found (`Dom.Tried`).

`Dom.Interacts` says how an interaction goes whatever the session answers: it succeeds exactly if
some of its calls did, and this call is the last one and the only one that succeeded; it fails
after five trials, with the failure of the last one. Clicks and readings go like this
(`Dom.interactions_happen_at_most_once`).
-/

namespace PaintBench

variable {σ α : Type}

/-- An element that is only at the end of a list splits it there. -/
theorem split_append_singleton {l before after : List α} {x e : α}
    (h : l ++ [x] = before ++ e :: after) (hnot : e ∉ l) : before = l ∧ e = x ∧ after = [] := by
  rcases List.eq_nil_or_concat after with rfl | ⟨after, y, rfl⟩
  · obtain ⟨rfl, hx⟩ := List.append_inj' h rfl
    exact ⟨rfl, (List.singleton_inj.mp hx).symm, rfl⟩
  · have hl : l ++ [x] = (before ++ e :: after) ++ [y] := by simpa using h
    obtain ⟨rfl, -⟩ := List.append_inj' hl rfl
    exact absurd List.mem_append_cons_self hnot

/-! ## Retries -/

/-- One of several trials: what was asked, and how it ended. -/
structure Trial (α : Type) where
  calls : List Exchange
  result : Except Halt (Except RunError α)

/-- A trial that may be followed by another one. -/
def Trial.Failed (trial : Trial α) : Prop :=
  ∃ e, trial.result = .ok (.error e)

/-- Trials one after the other, as long as they fail, with some retries at most. -/
structure Retried (p : Procedure (Except RunError α)) (retries : Nat) (trials : List (Trial α))
    (result : Except Halt (Except RunError α)) : Prop where
  tried : ∀ trial ∈ trials, p trial.calls trial.result
  length_le : trials.length ≤ retries + 1
  /-- The last trial counts, and all before it failed. -/
  last : ∃ earlier last, trials = earlier ++ [last] ∧ last.result = result ∧
    ∀ trial ∈ earlier, trial.Failed
  /-- There is a failure only after the last retry. -/
  exhausted : ∀ e, result = .ok (.error e) → trials.length = retries + 1

namespace Retried

variable {p : Procedure (Except RunError α)} {retries : Nat} {calls : List Exchange}
  {result : Except Halt (Except RunError α)}

theorem once (h : p calls result) (hend : ∀ e, result = .ok (.error e) → retries = 0) :
    Retried p retries [⟨calls, result⟩] result where
  tried := List.forall_mem_singleton.mpr h
  length_le := Nat.le_add_left 1 retries
  last := ⟨[], _, rfl, rfl, fun _ h => absurd h List.not_mem_nil⟩
  exhausted e he := by rw [hend e he, List.length_singleton]

theorem again {e : RunError} {trials : List (Trial α)} (h : p calls (.ok (.error e)))
    (hrest : Retried p retries trials result) :
    Retried p (retries + 1) (⟨calls, .ok (.error e)⟩ :: trials) result where
  tried := List.forall_mem_cons.mpr ⟨h, hrest.tried⟩
  length_le := Nat.succ_le_succ hrest.length_le
  last := by
    obtain ⟨earlier, last, rfl, hresult, hearlier⟩ := hrest.last
    exact ⟨_ :: earlier, last, rfl, hresult, List.forall_mem_cons.mpr ⟨⟨e, rfl⟩, hearlier⟩⟩
  exhausted e' he' := congrArg Nat.succ (hrest.exhausted e' he')

end Retried

theorem Attempt.proceeds_retry {p : Procedure (Except RunError α)} {act : Attempt σ α}
    (h : Attempt.Proceeds p act) : ∀ retries, Attempt.Proceeds
      (fun trace result => ∃ trials, Retried p retries trials result ∧
        trace = trials.flatMap Trial.calls) (Dom.retry act retries)
  | 0 => fun terms s => by
    obtain ⟨trace, hasked, hp⟩ := h terms s
    exact ⟨trace, hasked, _, .once hp fun _ _ => rfl, (List.append_nil _).symm⟩
  | retries + 1 => by
    refine Run.Proceeds.bind h (q := fun first rest result => ∀ calls, p calls (.ok first) →
      ∃ trials, Retried p (retries + 1) trials result ∧
        calls ++ rest = trials.flatMap Trial.calls) ?_ ?_ ?_
    · intro first
      cases first with
      | ok a =>
        exact .pure fun calls hp => ⟨_, .once hp nofun, rfl⟩
      | error e =>
        intro terms s
        obtain ⟨rest, hasked, trials, htrials, rfl⟩ := proceeds_retry h retries terms s
        exact ⟨_, hasked, fun calls hp => ⟨_, .again hp htrials, rfl⟩⟩
    · intro trace halt hp
      exact ⟨_, .once hp nofun, (List.append_nil _).symm⟩
    · intro first a rest result hp hq
      exact hq first hp

/-! ## Trials of an interaction -/

/-- A call that does something with a node. It is not one that looks for nodes, and the exchange
tells the node and the answer. -/
structure Interaction (α : Type) where
  exchange : SessionId → Node → Nat → Except SessionError α → Exchange
  not_looks (session : SessionId) (node : Node) (time : Nat) (answer : Except SessionError α) :
    ¬(exchange session node time answer).request.Looks
  inj {session session' : SessionId} {node node' : Node} {time time' : Nat}
    {answer answer' : Except SessionError α} :
    exchange session node time answer = exchange session' node' time' answer' →
      node = node' ∧ answer = answer'

namespace Interaction

/-- A click. -/
def click : Interaction Unit where
  exchange session node time answer := ⟨time, .call session (.click node), answer⟩
  not_looks _ _ _ _ := id
  inj h := by
    cases h
    exact ⟨rfl, rfl⟩

/-- The reading of a text. -/
def reading : Interaction String where
  exchange session node time answer := ⟨time, .call session (.text node), answer⟩
  not_looks _ _ _ _ := id
  inj h := by
    cases h
    exact ⟨rfl, rfl⟩

variable (act : Interaction α)

/-- An exchange in which something is done with a node. -/
def ActsOn (e : Exchange) (node : Node) : Prop :=
  ∃ session time answer, e = act.exchange session node time answer

/-- An exchange in which the interaction succeeds. -/
def Succeeds (e : Exchange) (a : α) : Prop :=
  ∃ session node time, e = act.exchange session node time (.ok a)

variable {act}

theorem Succeeds.actsOn {e : Exchange} {a : α} (h : act.Succeeds e a) :
    ∃ node, act.ActsOn e node := by
  obtain ⟨session, node, time, rfl⟩ := h
  exact ⟨node, session, time, .ok a, rfl⟩

end Interaction

namespace Dom

section

variable (d : Dom) (target : Target) (act : Interaction α)

/-- One trial of an interaction: the target is looked up, and if a node is found the interaction
with this node follows. -/
inductive Tried : Procedure (Except RunError α)
  | acts {first rest : List Exchange} {node : Node} {result : Except Halt (Except RunError α)} :
    d.LookedUp target first (.ok (.ok (some node))) →
      Called (act.exchange d.session node) rest result → Tried (first ++ rest) result
  | absent {trace : List Exchange} : d.LookedUp target trace (.ok (.ok none)) →
    Tried trace (.ok (.error (.notFound target.name)))
  | fails {trace : List Exchange} {e : RunError} : d.LookedUp target trace (.ok (.error e)) →
    Tried trace (.ok (.error e))
  | halts {trace : List Exchange} {halt : Halt} : d.LookedUp target trace (.error halt) →
    Tried trace (.error halt)

end

variable {d : Dom} {target : Target} {act : Interaction α} {trace : List Exchange}
  {result : Except Halt (Except RunError α)}

/-- An exchange of a lookup does nothing with a node. -/
theorem LookedUp.not_actsOn {found : Except Halt (Except RunError (Option Node))}
    (h : d.LookedUp target trace found) : ∀ e ∈ trace, ∀ node, ¬act.ActsOn e node := by
  rintro e he node ⟨session, time, answer, rfl⟩
  exact act.not_looks session node time answer (h.looks _ he)

namespace Tried

/-- In a trial the interaction comes last, on the node that the query before it returned. -/
theorem actsOn (h : d.Tried target act trace result) {before after : List Exchange} {e : Exchange}
    {node : Node} (htrace : trace = before ++ e :: after) (he : act.ActsOn e node) :
    after = [] ∧ ∃ scope selector time,
      before.getLast? = some (.query d.session scope selector time (.ok (some node))) := by
  have hnowhere {found : Except Halt (Except RunError (Option Node))}
      (hlookup : d.LookedUp target trace found) : False :=
    hlookup.not_actsOn e (htrace ▸ List.mem_append_cons_self) node he
  cases h with
  | @acts first rest found result hlookup hcall =>
    cases hcall with
    | halt halt =>
      rw [List.append_nil] at hnowhere
      exact (hnowhere hlookup).elim
    | answer time answer =>
      have hfirst : e ∉ first := fun hmem => hlookup.not_actsOn e hmem node he
      obtain ⟨rfl, rfl, rfl⟩ := split_append_singleton htrace hfirst
      obtain ⟨session, time', answer', heq⟩ := he
      obtain ⟨rfl, -⟩ := act.inj heq
      obtain ⟨before, scope, selector, time'', rfl⟩ := hlookup.exists_last_query
      exact ⟨rfl, scope, selector, time'', List.getLast?_concat⟩
  | absent hlookup | fails hlookup | halts hlookup => exact (hnowhere hlookup).elim

/-- A trial succeeds by an interaction that succeeds, and with nothing before it. -/
theorem exists_succeeds {a : α} (h : d.Tried target act trace (.ok (.ok a))) :
    ∃ first e, trace = first ++ [e] ∧ act.Succeeds e a ∧
      ∀ e' ∈ first, ∀ node, ¬act.ActsOn e' node := by
  cases h with
  | @acts first rest node result hlookup hcall =>
    obtain ⟨time, rfl⟩ := hcall.exists_success
    exact ⟨first, _, rfl, ⟨d.session, node, time, rfl⟩, hlookup.not_actsOn⟩

/-- A trial in which the interaction succeeds does so itself. -/
theorem result_eq {e : Exchange} {a : α} (h : d.Tried target act trace result) (he : e ∈ trace)
    (hsucceeds : act.Succeeds e a) : result = .ok (.ok a) := by
  obtain ⟨node, hacts⟩ := hsucceeds.actsOn
  cases h with
  | @acts first rest node result hlookup hcall =>
    have hrest : e ∈ rest :=
      (List.mem_append.mp he).resolve_left fun hfirst => hlookup.not_actsOn e hfirst _ hacts
    cases hcall with
    | halt halt => exact absurd hrest List.not_mem_nil
    | answer time answer =>
      obtain rfl := List.mem_singleton.mp hrest
      obtain ⟨session, node', time', heq⟩ := hsucceeds
      obtain ⟨-, rfl⟩ := act.inj heq
      rfl
  | absent hlookup | fails hlookup | halts hlookup =>
    exact absurd hacts (hlookup.not_actsOn e he node)

end Tried

section

variable (d)

/-- An interaction with what was looked up is a trial. -/
theorem proceeds_tried {call : Node → Attempt σ α} (target : Target)
    (hcall : ∀ node, Attempt.Proceeds (Called (act.exchange d.session node)) (call node)) :
    Attempt.Proceeds (d.Tried target act)
      (d.findTarget target >>= fun node => present target.name node >>= call) := by
  refine (d.proceeds_findTarget target).bind (q := fun node trace result => ∀ first,
    d.LookedUp target first (.ok (.ok node)) → d.Tried target act (first ++ trace) result)
    ?_ .halts .fails fun hfound hq => hq _ hfound
  intro node
  cases node with
  | none => exact .fail fun first hfirst => (List.append_nil first).symm ▸ .absent hfirst
  | some node =>
    rw [present, pure_bind]
    exact fun terms s => (hcall node terms s).imp fun rest h =>
      ⟨h.1, fun first hfirst => .acts hfirst h.2⟩

theorem proceeds_clickOnce (target : Target) :
    Attempt.Proceeds (d.Tried target .click) (d.clickOnce target : Attempt σ Unit) :=
  d.proceeds_tried target fun node => Attempt.proceeds_call d.session (.click node)

theorem readTextOnce_eq (path : ElementPath) : (d.readTextOnce path : Attempt σ String) =
    d.findTarget (.atPath path) >>= fun node => present path.text node >>= fun node =>
      Attempt.call d.session (.text node) := by
  rw [readTextOnce, textAt, bind_assoc]
  refine bind_congr fun node => ?_
  cases node with
  | none => rfl
  | some node =>
    let text : Attempt σ String := Attempt.call d.session (.text node)
    refine (bind_assoc text (fun text => pure (some text)) _).trans ?_
    simp only [pure_bind]
    exact bind_pure text

theorem proceeds_readTextOnce (path : ElementPath) :
    Attempt.Proceeds (d.Tried (.atPath path) .reading)
      (d.readTextOnce path : Attempt σ String) := by
  rw [readTextOnce_eq]
  exact d.proceeds_tried (.atPath path) fun node => Attempt.proceeds_call d.session (.text node)

end

/-! ## Interactions -/

section

variable {retries : Nat} {trials : List (Trial α)}

/-- In trials that failed no interaction succeeds. -/
theorem not_succeeds_of_failed
    (htried : ∀ trial ∈ trials, d.Tried target act trial.calls trial.result)
    (hfailed : ∀ trial ∈ trials, trial.Failed) :
    ∀ e ∈ trials.flatMap Trial.calls, ∀ a, ¬act.Succeeds e a := by
  intro e he a hsucceeds
  obtain ⟨trial, htrial, he⟩ := List.mem_flatMap.mp he
  obtain ⟨failure, hfailure⟩ := hfailed trial htrial
  have hresult := (htried trial htrial).result_eq he hsucceeds
  rw [hfailure] at hresult
  cases hresult

variable (h : Retried (d.Tried target act) retries trials result)
include h

/-- The last trial is the only one that can succeed. -/
theorem exists_lastTried : ∃ earlier last, trials.flatMap Trial.calls = earlier ++ last ∧
    d.Tried target act last result ∧ ∀ e ∈ earlier, ∀ a, ¬act.Succeeds e a := by
  obtain ⟨earlier, last, rfl, rfl, hfailed⟩ := h.last
  refine ⟨earlier.flatMap Trial.calls, last.calls, ?_, ?_, ?_⟩
  · rw [List.flatMap_append, List.flatMap_singleton]
  · exact h.tried last (List.mem_append_right _ (List.mem_singleton_self last))
  · exact not_succeeds_of_failed
      (fun trial htrial => h.tried trial (List.mem_append_left _ htrial)) hfailed

/-- Trials in which the interaction succeeds do so themselves. -/
theorem result_eq_of_retried {e : Exchange} {a : α} (he : e ∈ trials.flatMap Trial.calls)
    (hsucceeds : act.Succeeds e a) : result = .ok (.ok a) := by
  obtain ⟨earlier, last, hcalls, hlast, hnone⟩ := exists_lastTried h
  rw [hcalls] at he
  rcases List.mem_append.mp he with he | he
  · exact absurd hsucceeds (hnone e he a)
  · exact hlast.result_eq he hsucceeds

/-- Trials succeed by an interaction that is the last and that succeeds for the first time. -/
theorem exists_succeeds_of_retried {a : α} (ha : result = .ok (.ok a)) :
    ∃ before e, trials.flatMap Trial.calls = before ++ [e] ∧ act.Succeeds e a ∧
      ∀ e' ∈ before, ∀ a', ¬act.Succeeds e' a' := by
  obtain ⟨earlier, last, hcalls, hlast, hnone⟩ := exists_lastTried h
  obtain ⟨first, e, rfl, hsucceeds, hfirst⟩ := (ha ▸ hlast).exists_succeeds
  refine ⟨earlier ++ first, e, by rw [hcalls, List.append_assoc], hsucceeds, ?_⟩
  refine List.forall_mem_append.mpr ⟨hnone, fun e' he' a' hsucceeds' => ?_⟩
  obtain ⟨node, hacts⟩ := hsucceeds'.actsOn
  exact hfirst e' he' node hacts

end

/-- How an interaction with a target goes, which is retried four times at most. -/
structure Interacts (d : Dom) (target : Target) (act : Interaction α) (terms : Terms σ)
    (s : Situation σ) (outcome : Except Halt (Except RunError α) × Situation σ)
    (trials : List (Trial α)) : Prop extends
    Retried (d.Tried target act) 4 trials outcome.1 where
  /-- Nothing is asked but in the trials. -/
  asked : Asked s (trials.flatMap Trial.calls) outcome.2
  /-- A trial ends with the interaction, on the node that its last query returned. -/
  actsOn : ∀ trial ∈ trials, ∀ before e after node, trial.calls = before ++ e :: after →
    act.ActsOn e node → after = [] ∧ ∃ scope selector time,
      before.getLast? = some (.query d.session scope selector time (.ok (some node)))
  succeeds_iff : ∀ a, outcome.1 = .ok (.ok a) ↔
    ∃ e ∈ trials.flatMap Trial.calls, act.Succeeds e a
  /-- After a success nothing is asked, and there was none before it. -/
  succeedsOnce : ∀ before e after a, trials.flatMap Trial.calls = before ++ e :: after →
    act.Succeeds e a → after = [] ∧ ∀ e' ∈ before, ∀ a', ¬act.Succeeds e' a'
  returns : terms.deadline = none → terms.world.Answers → ∃ result, outcome.1 = .ok result

/-- What is retried, and returns where all is answered, is an interaction. -/
theorem Interacts.of_proceeds {once : Attempt σ α}
    (honce : Attempt.Proceeds (d.Tried target act) once) {terms : Terms σ} (s : Situation σ)
    (hends : terms.world.Answers → Attempt.Ends terms.world none (retry once 4)) :
    ∃ trials, d.Interacts target act terms s ((retry once 4).run.outcome terms s) trials := by
  obtain ⟨trace, hasked, trials, htrials, rfl⟩ := Attempt.proceeds_retry honce 4 terms s
  refine ⟨trials, htrials, hasked,
    fun trial htrial before e after node => (htrials.tried trial htrial).actsOn,
    fun a => ⟨fun ha => ?_, fun ⟨e, he, hsucceeds⟩ => result_eq_of_retried htrials he hsucceeds⟩,
    fun before e after a hsplit hsucceeds => ?_,
    fun hdeadline hanswers => (hends hanswers).exists_outcome hdeadline s⟩
  · obtain ⟨before, e, hcalls, hsucceeds, -⟩ := exists_succeeds_of_retried htrials ha
    exact ⟨e, hcalls ▸ List.mem_append_cons_self, hsucceeds⟩
  · have hresult := result_eq_of_retried htrials (hsplit ▸ List.mem_append_cons_self) hsucceeds
    obtain ⟨before', e', hcalls, -, hnone⟩ := exists_succeeds_of_retried htrials hresult
    rw [hcalls] at hsplit
    obtain ⟨rfl, rfl, rfl⟩ := split_append_singleton hsplit fun he => hnone e he a hsucceeds
    exact ⟨rfl, hnone⟩

/-- A click or a reading is tried until it succeeds, five times at most, so that it succeeds once
at most. -/
theorem interactions_happen_at_most_once (d : Dom) (terms : Terms σ) (s : Situation σ) :
    (∀ target, ∃ trials, d.Interacts target .click terms s
      ((d.click target).run.outcome terms s) trials) ∧
    ∀ path, ∃ trials, d.Interacts (.atPath path) .reading terms s
      ((d.readText path).run.outcome terms s) trials :=
  ⟨fun target => Interacts.of_proceeds (d.proceeds_clickOnce target) s
      fun hanswers => d.ends_click hanswers target,
    fun path => Interacts.of_proceeds (d.proceeds_readTextOnce path) s
      fun hanswers => d.ends_readText hanswers path⟩

end Dom

end PaintBench
