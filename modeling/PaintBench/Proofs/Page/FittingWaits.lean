import PaintBench.Proofs.Json.Scalar
import PaintBench.Proofs.Page.TableApp
import PaintBench.Proofs.Text.Cutting

/-!
# Waits that fit

A hook waits after a click until the page shows what the click has led to. That only works if the
wait is over after the click and not before it. A wait for a text is over as soon as the text is
contained in what the page shows; the id of a row does not contain the decimal digits of a greater
number (`Dom.contains_toString_of_lt`).

`Dom.WaitsFit` says of a hook and a situation that all its waits for texts fit. For the table app
it is enough that they fit the tables that the steps lead to (`Table.Fits`, `TableApp.waitsFit`),
and hooks of which that is known can be put together (`Table.Fits.append`).
-/

namespace PaintBench

/-! ## Decimal digits in each other -/

namespace Dom

theorem contains_iff {content text : String} :
    contains content text = true ↔ text.toList <:+: content.toList :=
  Text.occursIn_iff

theorem contains_self (text : String) : contains text text = true :=
  contains_iff.mpr (List.infix_refl _)

/-- A number with fewer digits, or with as many but other ones, has no place for those of a
greater number. -/
theorem contains_toString_of_lt {m n : Nat} (h : m < n) :
    contains (toString m) (toString n) = false := by
  rw [Bool.eq_false_iff, ne_eq, contains_iff, Nat.toString_eq_ofList_toDigits,
    Nat.toString_eq_ofList_toDigits, String.toList_ofList, String.toList_ofList]
  intro hinside
  have hpos : 0 < (Nat.toDigits 10 n).length := Nat.length_toDigits_pos
  have hbound : n < 10 ^ (Nat.toDigits 10 n).length :=
    (Nat.length_toDigits_le_iff (by decide) hpos).mp (Nat.le_refl _)
  have hlength : (Nat.toDigits 10 m).length ≤ (Nat.toDigits 10 n).length :=
    (Nat.length_toDigits_le_iff (by decide) hpos).mpr (Nat.lt_trans h hbound)
  have hdigits : Nat.toDigits 10 n = Nat.toDigits 10 m := hinside.eq_of_length_le hlength
  exact Nat.ne_of_gt h (Json.digitsOf_injective hdigits)

end Dom

namespace Table

variable {t : Table} {row n id : Nat}

theorem showsId_of_idAt (h : t.idAt row = some n) : t.showsId row (toString n) = true := by
  rw [showsId, h]
  exact Dom.contains_self _

theorem showsId_of_lt (h : ∀ id, t.idAt row = some id → id < n) :
    t.showsId row (toString n) = false := by
  rw [showsId]
  cases hid : t.idAt row with
  | none => rfl
  | some id => exact Dom.contains_toString_of_lt (h id hid)

end Table

/-! ## Hooks seen step by step -/

/-- A step clicks something. -/
def Step.isClick : Step → Bool
  | .clickId _ | .clickPath _ => true
  | _ => false

namespace Dom

variable {σ : Type} (d : Dom) (terms : Terms σ) (s : Situation σ)

/-- After some steps of a hook, a condition is found to hold or not. -/
def FindsAfter (steps : List Step) (condition : Attempt σ Bool) (found : Bool) : Prop :=
  ∃ captured mid s', (d.runHook steps).run.run [] terms s = (.ok (.ok (), captured), mid) ∧
    condition.run terms mid = (.ok (.ok found), s')

/-- All waits of a hook for texts fit. The hook goes through, every wait finds its text when it is
reached, and one that directly follows a click does not find it right before that click. -/
structure WaitsFit (hook : List Step) : Prop where
  completes : ∃ captured s', (d.runHook hook).run.run [] terms s = (.ok (.ok (), captured), s')
  met {before after : List Step} {path : ElementPath} {text : String} {limit : Option Duration} :
    hook = before ++ .waitForText path text limit :: after →
      d.FindsAfter terms s before (d.showsText path text) true
  unmet {before after : List Step} {click : Step} {path : ElementPath} {text : String}
    {limit : Option Duration} : click.isClick →
      hook = before ++ click :: .waitForText path text limit :: after →
        d.FindsAfter terms s before (d.showsText path text) false

end Dom

/-! ## The waits of the table app -/

/-- What a step waits for in an id cell is not there. -/
def Table.Lacks (t : Table) : Step → Prop
  | .waitForText path text _ => ∃ row, path.LeadsTo (.idCell row) ∧ t.showsId row text = false
  | _ => True

/-- A hook that consists of waits, and of clicks that are followed by a wait each. The waits find
what they wait for, but not before the click. -/
inductive Table.Fits (count : Nat) : Table → List Step → Table → Prop
  | nil (t : Table) : Fits count t [] t
  | wait {t mid t' : Table} {step : Step} {rest : List Step} : step.isClick = false →
    Does count t step mid → Fits count mid rest t' → Fits count t (step :: rest) t'
  | click {t mid mid' t' : Table} {click wait : Step} {rest : List Step} : wait.isClick = false →
    Does count t click mid → Does count mid wait mid' → t.Lacks wait → Fits count mid' rest t' →
      Fits count t (click :: wait :: rest) t'

namespace Table.Fits

variable {count : Nat} {t mid t' : Table} {before after hook : List Step}

theorem append (h : Fits count t before mid) (h' : Fits count mid after t') :
    Fits count t (before ++ after) t' := by
  induction h with
  | nil => exact h'
  | wait hwait hstep _ ih => exact .wait hwait hstep (ih h')
  | click hwait hclick hstep hlacks _ ih => exact .click hwait hclick hstep hlacks (ih h')

theorem doesAll (h : Fits count t hook t') : DoesAll count t hook t' := by
  induction h with
  | nil t => exact .nil t
  | wait _ hstep _ ih => exact .cons hstep ih
  | click _ hclick hstep _ _ ih => exact .cons hclick (.cons hstep ih)

/-- Right before a click, what is waited for after it is not there. -/
theorem exists_lacks (h : Fits count t hook t') {click wait : Step} (hclick : click.isClick)
    (hhook : hook = before ++ click :: wait :: after) :
    ∃ mid, DoesAll count t before mid ∧ mid.Lacks wait := by
  induction h generalizing before with
  | nil => cases before <;> cases hhook
  | wait hwait hstep _ ih =>
    cases before with
    | nil =>
      cases hhook
      exact absurd hclick (by simp [hwait])
    | cons first before =>
      cases hhook
      obtain ⟨mid, hbefore, hlacks⟩ := ih rfl
      exact ⟨mid, .cons hstep hbefore, hlacks⟩
  | @click t _ _ _ _ _ _ hwait hfirst hsecond hlacks _ ih =>
    match before with
    | [] =>
      cases hhook
      exact ⟨t, .nil t, hlacks⟩
    | [_] =>
      cases hhook
      exact absurd hclick (by simp [hwait])
    | first :: second :: before =>
      cases hhook
      obtain ⟨mid, hbefore, hlacks⟩ := ih rfl
      exact ⟨mid, .cons hfirst (.cons hsecond hbefore), hlacks⟩

end Table.Fits

namespace TableApp

variable {σ : Type} {d : Dom} (app : TableApp σ d) {terms : Terms σ} {s : Situation σ}
  {t t' : Table}

section
variable (hworld : terms.world = app.world) (hallows : Run.Terms.allows terms s.now)
  (hpatience : 0 < terms.patience) (h : app.Shows s.outside t)
include hworld hallows hpatience h

theorem exists_runHook {steps : List Step} (hsteps : t.DoesAll app.count steps t') :
    ∃ mid, (d.runHook steps).run.run [] terms s = (.ok (.ok (), []), mid) ∧ mid.now = s.now ∧
      app.Shows mid.outside t' := by
  obtain ⟨o', hrun, h'⟩ := app.runHook hsteps h
  obtain ⟨mid, hmid, hnow, rfl⟩ := hrun [] hworld hallows hpatience rfl
  exact ⟨mid, hmid, hnow, h'⟩

/-- What a condition finds after some steps is what it finds in the table they lead to. -/
theorem findsAfter {steps : List Step} (hsteps : t.DoesAll app.count steps t')
    {condition : Attempt σ Bool} {found : Bool}
    (hfound : ∀ o, app.Shows o t' → Attempt.AtOnce app.world condition o found o) :
    d.FindsAfter terms s steps condition found := by
  obtain ⟨mid, hmid, hnow, h'⟩ := app.exists_runHook hworld hallows hpatience h hsteps
  obtain ⟨s', hcondition, -, -⟩ := hfound _ h' hworld (hnow ▸ hallows) hpatience rfl
  exact ⟨[], mid, s', hmid, hcondition⟩

/-- If the waits of a hook fit the tables, they fit the app. -/
theorem waitsFit {hook : List Step} (hfits : t.Fits app.count hook t') :
    d.WaitsFit terms s hook where
  completes := by
    obtain ⟨s', hrun, -, -⟩ := app.exists_runHook hworld hallows hpatience h hfits.doesAll
    exact ⟨[], s', hrun⟩
  met hhook := by
    obtain ⟨mid, mid', hbefore, hstep⟩ := hfits.doesAll.exists_before hhook
    cases hstep with
    | waitForText limit hpath hshows =>
      exact app.findsAfter hworld hallows hpatience h hbefore fun o ho =>
        hshows ▸ app.showsText ho hpath _
  unmet hclick hhook := by
    obtain ⟨mid, hbefore, row, hpath, hshows⟩ := hfits.exists_lacks hclick hhook
    exact app.findsAfter hworld hallows hpatience h hbefore fun o ho =>
      hshows ▸ app.showsText ho hpath _

end

end TableApp

end PaintBench
