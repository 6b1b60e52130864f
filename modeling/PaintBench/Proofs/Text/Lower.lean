import Mathlib.Data.List.Basic
import PaintBench.Text.Lower

/-!
# Lower case of a part of a text

The lower-case form of a text consists of those of its parts, each in the context of what stands
around it (`lower_append`). The context matters to capital sigmas only, which have another form
where they end a word. So a part of a text reads in the lower-case form of the whole as it does in
its own if, and only if, each of its sigmas ends a word in both or in neither (`keepsSigmas_iff`).
-/

namespace PaintBench.Text

/-- Whether a capital sigma between two texts ends a word: a letter with case stands before it and
none after it, what is ignorable not counted. -/
def EndsWord (before after : List Char) : Prop :=
  startsCased before.reverse = true ∧ startsCased after = false

/-- Each capital sigma of a text that stands between two others ends a word there if, and only if,
it does so in the text alone. -/
def KeepsSigmas (before s after : List Char) : Prop :=
  ∀ front back, s = front ++ 'Σ' :: back →
    (EndsWord (before ++ front) (back ++ after) ↔ EndsWord front back)

/-- The lower-case form of a character between two texts, the first of them in reverse. -/
def lowerHere (before : List Char) (c : Char) (after : List Char) : List Char :=
  if c = 'Σ' then [if startsCased before && !startsCased after then 'ς' else 'σ']
  else if c = 'İ' then ['i', Char.ofNat 0x307]
  else [lowerChar c]

/-- The lower-case form of a text between two others, the first of them in reverse. -/
def lowerAmid (before : List Char) : List Char → List Char → List Char
  | [], _ => []
  | c :: rest, after => lowerHere before c (rest ++ after) ++ lowerAmid (c :: before) rest after

variable {before before' s after after' : List Char} {c : Char}

theorem lowerFrom_append (before s after : List Char) : lowerFrom before (s ++ after) =
    lowerAmid before s after ++ lowerFrom (s.reverse ++ before) after := by
  induction s generalizing before with
  | nil => rfl
  | cons c s ih =>
    have hhere : lowerFrom before (c :: s ++ after) =
        lowerHere before c (s ++ after) ++ lowerFrom (c :: before) (s ++ after) := rfl
    rw [hhere, ih, lowerAmid, List.append_assoc, List.reverse_cons, List.append_assoc,
      List.singleton_append]

theorem lower_eq_lowerAmid (s : List Char) : lower s = lowerAmid [] s [] := by
  have happend := lowerFrom_append [] s []
  rwa [List.append_nil, lowerFrom, List.append_nil] at happend

/-- The parts of a text in its lower-case form. -/
theorem lower_append (before s after : List Char) : lower (before ++ s ++ after) =
    lowerAmid [] before (s ++ after) ++ lowerAmid before.reverse s after ++
      lowerFrom (before ++ s).reverse after := by
  rw [lower, List.append_assoc, lowerFrom_append, lowerFrom_append, List.append_nil,
    List.append_assoc, List.reverse_append]

theorem length_lowerHere (before after before' after' : List Char) (c : Char) :
    (lowerHere before c after).length = (lowerHere before' c after').length := by
  rw [lowerHere, lowerHere]
  split <;> rfl

/-- The context of a character is of account only if the character is a sigma. -/
theorem lowerHere_eq_iff : lowerHere before c after = lowerHere before' c after' ↔
    (c = 'Σ' → (EndsWord before.reverse after ↔ EndsWord before'.reverse after')) := by
  by_cases hsigma : c = 'Σ'
  · have hform (b b' : Bool) : (if b then 'ς' else 'σ') = (if b' then 'ς' else 'σ') ↔
        (b = true ↔ b' = true) := by
      cases b <;> cases b' <;> decide
    rw [lowerHere, lowerHere, if_pos hsigma, if_pos hsigma, List.singleton_inj, hform]
    simp [EndsWord, hsigma]
  · simp [lowerHere, hsigma]

theorem length_lowerAmid (before s after before' after' : List Char) :
    (lowerAmid before s after).length = (lowerAmid before' s after').length := by
  induction s generalizing before before' with
  | nil => rfl
  | cons c s ih =>
    rw [lowerAmid, lowerAmid, List.length_append, List.length_append,
      length_lowerHere before _ before' (s ++ after'), ih (c :: before) (c :: before')]

/-- A text between two others has the same lower-case form as between two more if its sigmas end
words at the same places. -/
theorem lowerAmid_eq_iff : lowerAmid before s after = lowerAmid before' s after' ↔
    ∀ front back, s = front ++ 'Σ' :: back →
      (EndsWord (before.reverse ++ front) (back ++ after) ↔
        EndsWord (before'.reverse ++ front) (back ++ after')) := by
  induction s generalizing before before' with
  | nil => simp [lowerAmid]
  | cons c s ih =>
    have hparts : lowerAmid before (c :: s) after = lowerAmid before' (c :: s) after' ↔
        lowerHere before c (s ++ after) = lowerHere before' c (s ++ after') ∧
          lowerAmid (c :: before) s after = lowerAmid (c :: before') s after' :=
      ⟨fun h => List.append_inj h (length_lowerHere ..), fun h => congrArg₂ _ h.1 h.2⟩
    rw [hparts, lowerHere_eq_iff, ih]
    constructor
    · rintro ⟨hhere, hrest⟩ front back hsplit
      rcases List.cons_eq_append_iff.mp hsplit with ⟨rfl, heq⟩ | ⟨front, rfl, rfl⟩
      · cases heq
        simpa using hhere rfl
      · simpa using hrest front back rfl
    · intro h
      refine ⟨?_, fun front back hsplit => ?_⟩
      · rintro rfl
        simpa using h [] s rfl
      · simpa using h (c :: front) back (congrArg _ hsplit)

/-- A part of a text reads as it does alone if, and only if, its sigmas do. -/
theorem lowerAmid_eq_lower_iff :
    lowerAmid before.reverse s after = lower s ↔ KeepsSigmas before s after := by
  rw [lower_eq_lowerAmid, lowerAmid_eq_iff]
  simp [KeepsSigmas]

instance : Decidable (KeepsSigmas before s after) :=
  decidable_of_iff _ lowerAmid_eq_lower_iff

theorem KeepsSigmas.of_not_mem (h : 'Σ' ∉ s) : KeepsSigmas before s after := by
  rintro front back rfl
  exact absurd (List.mem_append_right _ List.mem_cons_self) h

/-- The sigmas of a part are kept exactly if its own lower-case form stands in its place. -/
theorem keepsSigmas_iff : KeepsSigmas before s after ↔
    ∃ front back, lower (before ++ s ++ after) = front ++ lower s ++ back ∧
      front.length = (lower before).length := by
  have hfront : (lowerAmid [] before (s ++ after)).length = (lower before).length := by
    rw [lower_eq_lowerAmid, length_lowerAmid]
  have hpart : (lowerAmid before.reverse s after).length = (lower s).length := by
    rw [lower_eq_lowerAmid, length_lowerAmid]
  rw [← lowerAmid_eq_lower_iff]
  constructor
  · intro h
    exact ⟨_, _, h ▸ lower_append before s after, hfront⟩
  · rintro ⟨front, back, htext, hlength⟩
    rw [lower_append, List.append_assoc, List.append_assoc] at htext
    obtain ⟨-, htext⟩ := List.append_inj htext (hfront.trans hlength.symm)
    exact (List.append_inj htext hpart).1

theorem KeepsSigmas.lower_infix (h : KeepsSigmas before s after) :
    lower s <:+: lower (before ++ s ++ after) := by
  obtain ⟨front, back, htext, -⟩ := keepsSigmas_iff.mp h
  exact ⟨front, back, htext.symm⟩

end PaintBench.Text
