import Mathlib.Data.List.Chain
import Mathlib.Data.List.Induction
import PaintBench.Proofs.Worker.Plan

/-!
# Captured texts in an iteration

An iteration is a row of tasks, each a call of its own or a step of a hook (`iterationTasks`). What
became of them is told by moves: from which situation a task was carried out, how it ended and
where. `Move.Happens` says what a move can be after the earlier ones of its iteration. Captured
texts come in only there, and they are read off the moves: `CapturedLast` says that a text is that
of the last move that captured one under a name.

The texts that a hook keeps are those of the moves so far (`exists_move`), so the moves account for
the whole iteration (`exists_account`), and for every one of several iterations anew
(`captures_stay_in_iteration`).
-/

namespace PaintBench

variable {σ α β : Type}

/-! ## Hooks from situation to situation -/

namespace Hook

/-- A hook of two steps. -/
theorem bind_apply (hook : Hook σ α) (next : α → Hook σ β) (captured : Captured) (terms : Terms σ)
    (s : Situation σ) :
    (hook >>= next).run.run captured terms s =
      match hook.run.run captured terms s with
      | (.ok (.ok a, captured'), mid) => (next a).run.run captured' terms mid
      | (.ok (.error e, captured'), mid) => (.ok (.error e, captured'), mid)
      | (.error halt, mid) => (.error halt, mid) := by
  refine (Run.bind_apply (hook.run.run captured) _ terms s).trans ?_
  rcases hook.run.run captured terms s with ⟨halt | ⟨e | a, captured'⟩, mid⟩ <;> rfl

/-- An attempt keeps the captured texts. -/
theorem ofAttempt_apply (act : Attempt σ α) (captured : Captured) (terms : Terms σ)
    (s : Situation σ) :
    (ofAttempt act).run.run captured terms s =
      ((act.run terms s).1.map (·, captured), (act.run terms s).2) := by
  refine (Run.bind_apply act.run _ terms s).trans ?_
  rcases act.run terms s with ⟨halt | result, s'⟩ <;> rfl

theorem startedWith_apply (hook : Hook σ α) (captured : Captured) (terms : Terms σ)
    (s : Situation σ) :
    (hook.startedWith captured).run terms s =
      ((hook.run.run captured terms s).1.map (·.1), (hook.run.run captured terms s).2) := by
  refine (Run.bind_apply (hook.run.run captured) _ terms s).trans ?_
  rcases hook.run.run captured terms s with ⟨halt | ⟨result, captured'⟩, s'⟩ <;> rfl

theorem captured_of_some {captured : Captured} {name text : String}
    (h : captured.get name = some text) (terms : Terms σ) (s : Situation σ) :
    (Hook.captured name).run.run captured terms s = (.ok (.ok text, captured), s) := by
  simp only [Hook.captured, ExceptT.run_mk, StateT.run, h]
  rfl

theorem captured_of_none {captured : Captured} {name : String} (h : captured.get name = none)
    (terms : Terms σ) (s : Situation σ) :
    (Hook.captured name).run.run captured terms s =
      (.ok (.error (.notFound ("captured text '" ++ name ++ "'")), captured), s) := by
  simp only [Hook.captured, ExceptT.run_mk, StateT.run, h]
  rfl

end Hook

theorem Attempt.discard_apply (act : Attempt σ α) (terms : Terms σ) (s : Situation σ) :
    (discard act).run terms s =
      ((act.run terms s).1.map (·.map fun _ => ()), (act.run terms s).2) := by
  have hdiscard : discard act = act >>= fun _ => pure () := by
    rw [bind_pure_comp, discard, LawfulFunctor.map_const]
    rfl
  rw [hdiscard, Attempt.bind_apply]
  rcases act.run terms s with ⟨halt | ⟨e | a⟩, s'⟩ <;> rfl

namespace Step

/-- A step that has nothing to do with captured texts. -/
def isPlain : Step → Bool
  | captureText .. | waitForCapturedText .. => false
  | _ => true

end Step

theorem Dom.exists_ofAttempt (d : Dom) {step : Step} (h : step.isPlain) :
    ∃ act : Attempt σ Unit, d.execute step = Hook.ofAttempt act := by
  cases step with
  | captureText | waitForCapturedText => cases h
  | _ => exact ⟨_, rfl⟩

/-- A step that fails leaves the captured texts as they are. -/
theorem Dom.captured_eq_of_fails (d : Dom) {step : Step} {captured captured' : Captured}
    {terms : Terms σ} {s s' : Situation σ} {e : RunError}
    (h : (d.execute step).run.run captured terms s = (.ok (.error e, captured'), s')) :
    captured' = captured := by
  have hattempt {act : Attempt σ Unit}
      (h : (Hook.ofAttempt act).run.run captured terms s = (.ok (.error e, captured'), s')) :
      captured' = captured := by
    rw [Hook.ofAttempt_apply] at h
    rcases hrun : act.run terms s with ⟨halt | result, mid⟩ <;> rw [hrun] at h <;> cases h
    rfl
  by_cases hplain : step.isPlain
  · obtain ⟨act, hact⟩ := d.exists_ofAttempt hplain
    rw [hact] at h
    exact hattempt h
  · cases step with
    | captureText path name =>
      have h := (Hook.bind_apply (Hook.ofAttempt (d.readText path)) (Hook.capture name)
        captured terms s).symm.trans h
      rw [Hook.ofAttempt_apply] at h
      rcases hrun : (d.readText path).run terms s with ⟨halt | ⟨e' | text⟩, mid⟩ <;>
        rw [hrun] at h <;> cases h
      rfl
    | waitForCapturedText path name limit =>
      have h := (Hook.bind_apply (Hook.captured name) _ captured terms s).symm.trans h
      rcases hget : Captured.get captured name with _ | text
      · rw [Hook.captured_of_none hget] at h
        cases h
        rfl
      · rw [Hook.captured_of_some hget] at h
        exact hattempt h
    | _ => exact absurd rfl hplain

namespace Worker

/-! ## Tasks and moves -/

/-- A part of an iteration that is carried out at one go. -/
inductive Task where
  | call (c : Call)
  | step (step : Step)

/-- A task that was carried out. If it captured a text, its outcome has the text. -/
structure Move (σ : Type) where
  task : Task
  start : Situation σ
  outcome : Except Halt (Except RunError (Option String))
  finish : Situation σ

namespace Move

def Succeeds (move : Move σ) : Prop :=
  ∃ text, move.outcome = .ok (.ok text)

/-- How a move ended, without the text. -/
def result (move : Move σ) : Except Halt (Except RunError Unit) :=
  move.outcome.map (·.map fun _ => ())

/-- A move captured a text under a name. -/
def Captures (move : Move σ) (name text : String) : Prop :=
  (∃ path, move.task = .step (.captureText path name)) ∧ move.outcome = .ok (.ok (some text))

end Move

/-- A text is that of the last move that captured one under a name. -/
def CapturedLast (moves : List (Move σ)) (name text : String) : Prop :=
  ∃ before move after, moves = before ++ move :: after ∧ move.Captures name text ∧
    ∀ later ∈ after, ∀ other, ¬ later.Captures name other

/-- What a move can be after earlier moves of the same iteration. -/
inductive Move.Happens (d : Dom) (terms : Terms σ) (earlier : List (Move σ)) : Move σ → Prop
  | call {c : Call} {s s' : Situation σ} {result : Except Halt (Except RunError c.Reply)} :
    (Attempt.call d.session c).run terms s = (result, s') →
    Happens d terms earlier ⟨.call c, s, result.map (·.map fun _ => none), s'⟩
  /-- a step that has nothing to do with captured texts -/
  | plain {step : Step} {act : Attempt σ Unit} {s s' : Situation σ}
    {result : Except Halt (Except RunError Unit)} :
    step.isPlain → d.execute step = Hook.ofAttempt act → act.run terms s = (result, s') →
    Happens d terms earlier ⟨.step step, s, result.map (·.map fun _ => none), s'⟩
  | capture {path : ElementPath} {name : String} {s s' : Situation σ}
    {result : Except Halt (Except RunError String)} :
    (d.readText path).run terms s = (result, s') →
    Happens d terms earlier ⟨.step (.captureText path name), s, result.map (·.map some), s'⟩
  | waitFor {path : ElementPath} {name text : String} {limit : Option Duration}
    {s s' : Situation σ} {result : Except Halt (Except RunError Unit)} :
    CapturedLast earlier name text →
    (d.waitForText path text (d.limitOf limit)).run terms s = (result, s') →
    Happens d terms earlier
      ⟨.step (.waitForCapturedText path name limit), s, result.map (·.map fun _ => none), s'⟩
  /-- there is no text to wait for, and nothing is asked -/
  | missing {path : ElementPath} {name : String} {limit : Option Duration} {s : Situation σ} :
    (∀ move ∈ earlier, ∀ text, ¬ move.Captures name text) →
    Happens d terms earlier ⟨.step (.waitForCapturedText path name limit), s,
      .ok (.error (.notFound ("captured text '" ++ name ++ "'"))), s⟩

/-- How some moves ended. -/
def outcomeOf (moves : List (Move σ)) : Except Halt (Except RunError Unit) :=
  match moves.getLast? with
  | some move => move.result
  | none => .ok (.ok ())

/-- Where some moves ended that started from a situation. -/
def endOf (s : Situation σ) (moves : List (Move σ)) : Situation σ :=
  match moves.getLast? with
  | some move => move.finish
  | none => s

/-- Moves account for the tasks that follow on earlier moves: they are made one after the other
from a situation, and only the last one can fail, which ends them. -/
structure Account (d : Dom) (terms : Terms σ) (earlier : List (Move σ)) (tasks : List Task)
    (s : Situation σ) (moves : List (Move σ)) : Prop where
  inOrder : moves.map (·.task) <+: tasks
  starts : ∀ first ∈ moves.head?, first.start = s
  linked : moves.IsChain fun move next => move.Succeeds ∧ next.start = move.finish
  happens : ∀ before move after, moves = before ++ move :: after →
    move.Happens d terms (earlier ++ before)
  complete : (∀ last ∈ moves.getLast?, last.Succeeds) → moves.map (·.task) = tasks

/-- Several iterations, each with an account of its own. A failure is the end of them. -/
inductive Iterations (d : Dom) (terms : Terms σ) (tasks : List Task) :
    Nat → Situation σ → List (List (Move σ)) → Prop
  | none {s : Situation σ} : Iterations d terms tasks 0 s []
  | goesOn {n : Nat} {s : Situation σ} {moves : List (Move σ)} {rest : List (List (Move σ))} :
    Account d terms [] tasks s moves → outcomeOf moves = .ok (.ok ()) →
    Iterations d terms tasks n (endOf s moves) rest →
    Iterations d terms tasks (n + 1) s (moves :: rest)
  | stops {n : Nat} {s : Situation σ} {moves : List (Move σ)} :
    Account d terms [] tasks s moves → outcomeOf moves ≠ .ok (.ok ()) →
    Iterations d terms tasks (n + 1) s [moves]

/-! ## The texts of moves -/

namespace Move

/-- The name and the text of a move that captured one. -/
def capture? (move : Move σ) : Option (String × String) :=
  match move.task, move.outcome with
  | .step (.captureText _ name), .ok (.ok (some text)) => some (name, text)
  | _, _ => none

theorem capture?_eq_some {move : Move σ} {name text : String} :
    move.capture? = some (name, text) ↔ move.Captures name text := by
  constructor
  · intro h
    rw [capture?] at h
    split at h
    · cases h
      exact ⟨⟨_, ‹_›⟩, ‹_›⟩
    · cases h
  · rintro ⟨⟨path, htask⟩, houtcome⟩
    rw [capture?, htask, houtcome]

theorem result_of_result {task : Task} {s s' : Situation σ}
    (result : Except Halt (Except RunError α)) :
    (Move.mk task s (result.map (·.map fun _ => none)) s').result =
      result.map (·.map fun _ => ()) := by
  rcases result with halt | ⟨e | a⟩ <;> rfl

theorem capture?_of_result {task : Task} {s s' : Situation σ}
    (result : Except Halt (Except RunError α)) :
    (Move.mk task s (result.map (·.map fun _ => none)) s').capture? = none := by
  rw [capture?]
  split
  · rename_i h
    rcases result with halt | ⟨e | a⟩ <;> cases h
  · rfl

end Move

/-- The texts captured in some moves, the latest first. -/
def capturesOf (moves : List (Move σ)) : Captured :=
  (moves.filterMap (·.capture?)).reverse

theorem capturesOf_concat (moves : List (Move σ)) (move : Move σ) :
    capturesOf (moves ++ [move]) = move.capture?.toList ++ capturesOf moves := by
  rw [capturesOf, List.filterMap_append, List.reverse_append, List.filterMap_cons]
  cases move.capture? <;> rfl

theorem capturesOf_concat_of_none {moves : List (Move σ)} {move : Move σ}
    (h : move.capture? = none) : capturesOf (moves ++ [move]) = capturesOf moves := by
  rw [capturesOf_concat, h]
  rfl

/-- The text kept under a name is the one captured last. -/
theorem capturedLast_of_get {name text : String} (moves : List (Move σ))
    (h : Captured.get (capturesOf moves) name = some text) : CapturedLast moves name text := by
  induction moves using List.reverseRecOn with
  | nil => cases h
  | append_singleton moves move ih =>
    by_cases hlast : ∃ text', move.Captures name text'
    · obtain ⟨text', hlast⟩ := hlast
      rw [capturesOf_concat, Move.capture?_eq_some.mpr hlast, Option.toList_some,
        List.singleton_append, Captured.get, List.lookup_cons_self] at h
      cases h
      exact ⟨moves, move, [], rfl, hlast, fun _ hlater => absurd hlater List.not_mem_nil⟩
    · have hother : Captured.get (capturesOf moves) name = some text := by
        rcases hcapture : move.capture? with _ | ⟨name', text'⟩
        · rwa [capturesOf_concat_of_none hcapture] at h
        · have hname : name ≠ name' := by
            rintro rfl
            exact hlast ⟨text', Move.capture?_eq_some.mp hcapture⟩
          rwa [capturesOf_concat, hcapture, Option.toList_some, List.singleton_append,
            Captured.get, List.lookup_cons, beq_false_of_ne hname] at h
      obtain ⟨before, found, after, hmoves, hfound, hafter⟩ := ih hother
      refine ⟨before, found, after ++ [move], ?_, hfound, ?_⟩
      · rw [hmoves, List.append_assoc, List.cons_append]
      · intro later hlater other hcaptures
        rcases List.mem_append.mp hlater with hlater | hlater
        · exact hafter later hlater other hcaptures
        · rw [List.mem_singleton.mp hlater] at hcaptures
          exact hlast ⟨other, hcaptures⟩

/-- If no text is kept under a name, then none was captured. -/
theorem not_captures_of_get {name : String} {moves : List (Move σ)}
    (h : Captured.get (capturesOf moves) name = none) {move : Move σ} (hmove : move ∈ moves)
    (text : String) : ¬ move.Captures name text := by
  intro hcaptures
  rw [Captured.get, List.lookup_eq_none_iff] at h
  have hmem : (name, text) ∈ capturesOf moves := by
    rw [capturesOf, List.mem_reverse, List.mem_filterMap]
    exact ⟨move, hmove, Move.capture?_eq_some.mpr hcaptures⟩
  simpa using h _ hmem

/-! ## Carrying out tasks -/

namespace Task

/-- Carry out a task. -/
def carryOut (d : Dom) : Task → Hook σ Unit
  | .call c => perform d.session c
  | .step one => d.execute one

/-- Carry out tasks one after the other, up to the first failure. -/
def carryOutAll (d : Dom) : List Task → Hook σ Unit
  | [] => return ()
  | task :: rest => do
    task.carryOut d
    carryOutAll d rest

theorem carryOutAll_append (d : Dom) (tasks rest : List Task) :
    (carryOutAll d (tasks ++ rest) : Hook σ Unit) =
      carryOutAll d tasks >>= fun _ => carryOutAll d rest := by
  induction tasks with
  | nil => rw [List.nil_append, carryOutAll, pure_bind]
  | cons task tasks ih => rw [List.cons_append, carryOutAll, carryOutAll, ih, bind_assoc]

end Task

/-- An attempt that captures nothing keeps the texts of the moves. -/
theorem ofAttempt_after {act : Attempt σ Unit} {terms : Terms σ} {s : Situation σ}
    {move : Move σ} (earlier : List (Move σ)) (hcapture : move.capture? = none)
    (h : act.run terms s = (move.result, move.finish)) :
    (Hook.ofAttempt act).run.run (capturesOf earlier) terms s =
      (move.result.map (·, capturesOf (earlier ++ [move])), move.finish) := by
  rw [capturesOf_concat_of_none hcapture, Hook.ofAttempt_apply, h]

/-- Carrying out a task is a move, after which the texts kept are those of the moves. -/
theorem exists_move (d : Dom) (terms : Terms σ) (earlier : List (Move σ)) (task : Task)
    (s : Situation σ) : ∃ move : Move σ, move.task = task ∧ move.start = s ∧
      move.Happens d terms earlier ∧
      (task.carryOut d).run.run (capturesOf earlier) terms s =
        (move.result.map (·, capturesOf (earlier ++ [move])), move.finish) := by
  have hplain {step : Step} (h : step.isPlain) :
      ∃ move : Move σ, move.task = .step step ∧ move.start = s ∧
        move.Happens d terms earlier ∧
        (d.execute step).run.run (capturesOf earlier) terms s =
          (move.result.map (·, capturesOf (earlier ++ [move])), move.finish) := by
    obtain ⟨act, hact⟩ := d.exists_ofAttempt h
    rcases hrun : act.run terms s with ⟨result, s'⟩
    refine ⟨_, rfl, rfl, .plain h hact hrun, ?_⟩
    rw [hact]
    refine ofAttempt_after earlier (Move.capture?_of_result result) (hrun.trans ?_)
    rw [Move.result_of_result]
    rcases result with halt | ⟨e | u⟩ <;> rfl
  cases task with
  | call c =>
    rcases hrun : (Attempt.call d.session c).run terms s with ⟨result, s'⟩
    refine ⟨_, rfl, rfl, .call hrun, ?_⟩
    refine ofAttempt_after earlier (Move.capture?_of_result result) ?_
    rw [Move.result_of_result, Attempt.discard_apply, hrun]
  | step step =>
    cases step with
    | captureText path name =>
      rcases hrun : (d.readText path).run terms s with ⟨result, s'⟩
      refine ⟨_, rfl, rfl, .capture hrun, ?_⟩
      refine (Hook.bind_apply (Hook.ofAttempt (d.readText path)) (Hook.capture name) _ _ _).trans ?_
      rw [Hook.ofAttempt_apply, hrun, capturesOf_concat]
      rcases result with halt | ⟨e | text⟩ <;> rfl
    | waitForCapturedText path name limit =>
      rcases hget : Captured.get (capturesOf earlier) name with _ | text
      · refine ⟨_, rfl, rfl, .missing fun move => not_captures_of_get hget, ?_⟩
        refine (Hook.bind_apply (Hook.captured name) _ _ _ _).trans ?_
        rw [Hook.captured_of_none hget, capturesOf_concat]
        rfl
      · rcases hrun : (d.waitForText path text (d.limitOf limit)).run terms s with ⟨result, s'⟩
        refine ⟨_, rfl, rfl, .waitFor (capturedLast_of_get earlier hget) hrun, ?_⟩
        refine (Hook.bind_apply (Hook.captured name) _ _ _ _).trans ?_
        rw [Hook.captured_of_some hget]
        refine ofAttempt_after earlier (Move.capture?_of_result result) (hrun.trans ?_)
        rw [Move.result_of_result]
        rcases result with halt | ⟨e | u⟩ <;> rfl
    | _ => exact hplain rfl

/-! ## Accounts -/

theorem Move.Succeeds.result_eq {move : Move σ} (h : move.Succeeds) :
    move.result = .ok (.ok ()) := by
  obtain ⟨text, houtcome⟩ := h
  rw [Move.result, houtcome]
  rfl

theorem Move.result_of_fails {move : Move σ} (h : ¬ move.Succeeds) :
    (∃ halt, move.result = .error halt) ∨ ∃ e, move.result = .ok (.error e) := by
  rcases houtcome : move.outcome with halt | ⟨e | text⟩
  · exact .inl ⟨halt, by rw [Move.result, houtcome]; rfl⟩
  · exact .inr ⟨e, by rw [Move.result, houtcome]; rfl⟩
  · exact absurd ⟨text, houtcome⟩ h

theorem outcomeOf_append {moves : List (Move σ)} (h : outcomeOf moves = .ok (.ok ()))
    (rest : List (Move σ)) : outcomeOf (moves ++ rest) = outcomeOf rest := by
  rw [outcomeOf, outcomeOf, List.getLast?_append]
  cases rest.getLast? with
  | none => exact h
  | some last => rfl

theorem endOf_append (s : Situation σ) (moves rest : List (Move σ)) :
    endOf s (moves ++ rest) = endOf (endOf s moves) rest := by
  rw [endOf, endOf, List.getLast?_append]
  cases rest.getLast? with
  | none => rfl
  | some last => rfl

namespace Account

theorem nil (d : Dom) (terms : Terms σ) (earlier : List (Move σ)) (s : Situation σ) :
    Account d terms earlier [] s [] where
  inOrder := List.prefix_refl _
  starts := by
    rintro first ⟨⟩
  linked := .nil
  happens := fun before move after h => absurd h.symm (by simp)
  complete := fun _ => rfl

/-- A move that fails is the end. -/
theorem stop {earlier : List (Move σ)} {move : Move σ} (hhappens : move.Happens d terms earlier)
    (hfails : ¬ move.Succeeds) (rest : List Task) :
    Account d terms earlier (move.task :: rest) move.start [move] where
  inOrder := ⟨rest, rfl⟩
  starts := by
    rintro first ⟨⟩
    rfl
  linked := .singleton _
  happens := by
    intro before other after h
    rcases before with _ | ⟨first, before⟩
    · cases h
      rwa [List.append_nil]
    · exact absurd (List.cons.inj h).2.symm (by simp)
  complete := fun h => absurd (h move rfl) hfails

/-- After a move that succeeds, the rest is accounted for from where it ended. -/
theorem cons {earlier moves : List (Move σ)} {move : Move σ} {rest : List Task}
    (hhappens : move.Happens d terms earlier) (hsucceeds : move.Succeeds)
    (h : Account d terms (earlier ++ [move]) rest move.finish moves) :
    Account d terms earlier (move.task :: rest) move.start (move :: moves) where
  inOrder := (List.prefix_cons_inj _).mpr h.inOrder
  starts := by
    rintro first ⟨⟩
    rfl
  linked := by
    cases moves with
    | nil => exact .singleton _
    | cons next moves => exact List.isChain_cons_cons.mpr ⟨⟨hsucceeds, h.starts next rfl⟩, h.linked⟩
  happens := by
    intro before other after hmoves
    rcases before with _ | ⟨first, before⟩
    · cases hmoves
      rwa [List.append_nil]
    · cases hmoves
      have := h.happens before other after rfl
      rwa [List.append_assoc] at this
  complete := by
    intro hlast
    refine congrArg (move.task :: ·) (h.complete fun last hmem => hlast last ?_)
    rw [List.getLast?_cons, Option.mem_def.mp hmem]
    rfl

end Account

/-- Carrying out tasks after some moves is accounted for by further moves. -/
theorem exists_account (d : Dom) (terms : Terms σ) : ∀ (tasks : List Task)
    (earlier : List (Move σ)) (s : Situation σ), ∃ moves : List (Move σ),
      Account d terms earlier tasks s moves ∧
      (Task.carryOutAll d tasks).run.run (capturesOf earlier) terms s =
        ((outcomeOf moves).map (·, capturesOf (earlier ++ moves)), endOf s moves) := by
  intro tasks
  induction tasks with
  | nil =>
    intro earlier s
    refine ⟨[], .nil d terms earlier s, ?_⟩
    rw [List.append_nil]
    rfl
  | cons task rest ih =>
    intro earlier s
    obtain ⟨move, rfl, rfl, hhappens, hrun⟩ := exists_move d terms earlier task s
    by_cases hsucceeds : move.Succeeds
    · obtain ⟨moves, haccount, hrest⟩ := ih (earlier ++ [move]) move.finish
      refine ⟨move :: moves, .cons hhappens hsucceeds haccount, ?_⟩
      have hfirst : outcomeOf [move] = .ok (.ok ()) := hsucceeds.result_eq
      have houtcome : outcomeOf (move :: moves) = outcomeOf moves := outcomeOf_append hfirst moves
      have hend : endOf move.start (move :: moves) = endOf move.finish moves :=
        endOf_append move.start [move] moves
      rw [Task.carryOutAll, Hook.bind_apply, hrun, hsucceeds.result_eq, houtcome, hend]
      refine hrest.trans ?_
      rw [List.append_assoc, List.singleton_append]
    · refine ⟨[move], .stop hhappens hsucceeds rest, ?_⟩
      rw [Task.carryOutAll, Hook.bind_apply, hrun]
      change _ = (move.result.map (·, capturesOf (earlier ++ [move])), move.finish)
      rcases Move.result_of_fails hsucceeds with ⟨halt, hresult⟩ | ⟨e, hresult⟩ <;>
        rw [hresult] <;> rfl

/-! ## Iterations -/

namespace Part

/-- The tasks of a part. -/
def tasks : Part → List Task
  | start => []
  | call c => [.call c]
  | hook _ steps => steps.map .step

end Part

/-- The tasks of an iteration. -/
def iterationTasks (i : Implementation) (b : Benchmark) (o : RunOptions) (forceGc : Bool) :
    List Task :=
  (iterationPlan i b o forceGc).flatMap Part.tasks

theorem runHook_eq (d : Dom) (steps : List Step) :
    (d.runHook steps : Hook σ Unit) = Task.carryOutAll d (steps.map .step) := by
  induction steps with
  | nil => rfl
  | cons step rest ih =>
    rw [Dom.runHook, ih]
    rfl

/-- Parts other than the start of an iteration are carried out task by task. -/
theorem carryOutAll_tasks (d : Dom) {plan : List Part} (h : .start ∉ plan) :
    (Part.carryOutAll d plan : Hook σ Unit) = Task.carryOutAll d (plan.flatMap Part.tasks) := by
  induction plan with
  | nil => rfl
  | cons part plan ih =>
    rw [List.mem_cons, not_or] at h
    rw [List.flatMap_cons, Task.carryOutAll_append, Part.carryOutAll, ih h.2]
    cases part with
    | start => exact absurd rfl h.1
    | call c => simp [Part.carryOut, Part.tasks, Task.carryOutAll, Task.carryOut]
    | hook phase steps => rw [Part.carryOut, Part.tasks, runHook_eq]

variable {i : Implementation} {b : Benchmark} {o : RunOptions}

/-- An iteration carries out its tasks, with no text captured before. -/
theorem iterate_eq_tasks (session : SessionId) (forceGc : Bool) :
    (iterate session i b o forceGc : Attempt σ Unit) =
      (Task.carryOutAll (Dom.ofSession session i o)
        (iterationTasks i b o forceGc)).startedWith [] := by
  have hstart :
      .start ∉ preparePlan i b o forceGc ++ (measurePlan b o ++ finishPlan b forceGc) := by
    simp only [preparePlan, measurePlan, finishPlan]
    split <;> split <;> simp
  rw [iterate_eq session forceGc [], iterationTasks, iterationPlan, List.flatMap_cons,
    Part.carryOutAll, carryOutAll_tasks _ hstart]
  rfl

/-- An iteration is accounted for by moves. -/
theorem exists_account_iterate (session : SessionId) (forceGc : Bool) (terms : Terms σ)
    (s : Situation σ) : ∃ moves : List (Move σ),
      Account (Dom.ofSession session i o) terms [] (iterationTasks i b o forceGc) s moves ∧
      (iterate session i b o forceGc).run terms s = (outcomeOf moves, endOf s moves) := by
  obtain ⟨moves, haccount, hrun⟩ := exists_account (Dom.ofSession session i o) terms
    (iterationTasks i b o forceGc) [] s
  refine ⟨moves, haccount, ?_⟩
  rw [iterate_eq_tasks, Hook.startedWith_apply]
  refine (congrArg (fun x => (x.1.map (·.1), x.2)) hrun).trans ?_
  rcases outcomeOf moves with halt | result <;> rfl

/-- Several iterations are accounted for by the moves of each one. -/
theorem exists_iterations (session : SessionId) (terms : Terms σ) (n : Nat) :
    ∀ s : Situation σ, ∃ runs : List (List (Move σ)),
      Iterations (Dom.ofSession session i o) terms (iterationTasks i b o false) n s runs ∧
      (iterateTimes session i b o n).run terms s =
        (outcomeOf runs.flatten, endOf s runs.flatten) := by
  induction n with
  | zero =>
    intro s
    exact ⟨[], .none, rfl⟩
  | succ n ih =>
    intro s
    obtain ⟨moves, haccount, hrun⟩ := exists_account_iterate (b := b) session false terms s
    by_cases hsucceeds : outcomeOf moves = .ok (.ok ())
    · obtain ⟨rest, hiterations, hrest⟩ := ih (endOf s moves)
      refine ⟨moves :: rest, .goesOn haccount hsucceeds hiterations, ?_⟩
      rw [iterateTimes, Attempt.bind_apply, hrun, hsucceeds, List.flatten_cons,
        outcomeOf_append hsucceeds, endOf_append]
      exact hrest
    · refine ⟨[moves], .stops haccount hsucceeds, ?_⟩
      rw [iterateTimes, Attempt.bind_apply, hrun, List.flatten_singleton]
      rcases houtcome : outcomeOf moves with halt | ⟨e | u⟩
      · rfl
      · rfl
      · exact absurd houtcome hsucceeds

/-- **Captured texts stay in their iteration.** An iteration is accounted for by moves that start
without any earlier ones, so that what is captured is the business of its own moves alone, and the
first failure is its end. The same holds of every one of several iterations in one session. A step
that fails leaves the captured texts as they are. -/
theorem captures_stay_in_iteration (session : SessionId) (i : Implementation) (b : Benchmark)
    (o : RunOptions) (terms : Terms σ) (s : Situation σ) :
    (∀ forceGc, ∃ moves : List (Move σ),
      Account (Dom.ofSession session i o) terms [] (iterationTasks i b o forceGc) s moves ∧
      (iterate session i b o forceGc).run terms s = (outcomeOf moves, endOf s moves)) ∧
    (∀ n, ∃ runs : List (List (Move σ)),
      Iterations (Dom.ofSession session i o) terms (iterationTasks i b o false) n s runs ∧
      (iterateTimes session i b o n).run terms s =
        (outcomeOf runs.flatten, endOf s runs.flatten)) ∧
    ∀ step captured captured' e s',
      ((Dom.ofSession session i o).execute step).run.run captured terms s =
        (.ok (.error e, captured'), s') → captured' = captured :=
  ⟨fun forceGc => exists_account_iterate session forceGc terms s,
    fun n => exists_iterations session terms n s,
    fun _ _ _ _ _ h => (Dom.ofSession session i o).captured_eq_of_fails h⟩

end Worker

end PaintBench
