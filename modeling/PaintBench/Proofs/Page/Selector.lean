import Mathlib.Data.List.Basic
import PaintBench.Page.Selector

/-!
# Quoted ids

A selector quotes an id between `[id="` and `"]`. `Quotes` is the convention of its reader: what
stands between the quotes means the same characters, but for a backslash, which makes the character
after it literal. `readQuoted` follows the convention (`readQuoted_eq_some_iff`).

An id is gone through twice, for its backslashes and then for its quotes. The second pass leaves the
backslashes of the first one alone, so the two come to a single pass that escapes both
(`toList_ofId`), and what they write means the id (`quotes_escape`). `ids_end_at_their_quotes` says
what follows: the string ends at its end and no earlier, whatever the id.
-/

namespace PaintBench.Selector

/-! ## The reader of quoted characters -/

/-- The characters that are meant by what is written between quotes. -/
inductive Quotes : List Char → List Char → Prop
  | nil : Quotes [] []
  | plain {c : Char} {meant written : List Char} : c ≠ '"' → c ≠ '\\' → Quotes meant written →
    Quotes (c :: meant) (c :: written)
  | literal (c : Char) {meant written : List Char} : Quotes meant written →
    Quotes (c :: meant) ('\\' :: c :: written)

variable {meant written text rest : List Char}

theorem Quotes.readQuoted_append (h : Quotes meant written) (rest : List Char) :
    readQuoted (written ++ '"' :: rest) = some (meant, rest) := by
  induction h with
  | nil => rfl
  | plain hquote hslash _ ih =>
    rw [List.cons_append, readQuoted, ih, Option.map_some]
    · exact hquote
    · exact fun h _ => hslash h
    · exact fun _ _ h _ => hslash h
  | literal c _ ih => rw [List.cons_append, List.cons_append, readQuoted, ih, Option.map_some]

/-- The reader stops at the first quote that is not literal. -/
theorem readQuoted_eq_some_iff : readQuoted text = some (meant, rest) ↔
    ∃ written, Quotes meant written ∧ text = written ++ '"' :: rest := by
  constructor
  · intro h
    fun_induction readQuoted text generalizing meant rest with
    | case1 | case3 => cases h
    | case2 after =>
      cases h
      exact ⟨[], .nil, rfl⟩
    | case4 c after ih =>
      obtain ⟨⟨id, behind⟩, hread, heq⟩ := Option.map_eq_some_iff.mp h
      cases heq
      obtain ⟨written, hquotes, rfl⟩ := ih hread
      exact ⟨'\\' :: c :: written, .literal c hquotes, rfl⟩
    | case5 c after hquote hlone hslash ih =>
      obtain ⟨⟨id, behind⟩, hread, heq⟩ := Option.map_eq_some_iff.mp h
      cases heq
      obtain ⟨written, hquotes, rfl⟩ := ih hread
      -- a backslash would have had the next character to itself, and there is one
      have hne : written ++ '"' :: rest ≠ [] := List.append_ne_nil_of_right_ne_nil _ nofun
      obtain ⟨d, later, heq⟩ := List.exists_cons_of_ne_nil hne
      exact ⟨c :: written, .plain hquote (fun hc => hslash d later hc heq) hquotes, rfl⟩
  · rintro ⟨written, hquotes, rfl⟩
    exact hquotes.readQuoted_append rest

/-! ## Selectors of ids -/

/-- A character inside a quoted id. -/
def escape (c : Char) : List Char :=
  if c = '\\' ∨ c = '"' then ['\\', c] else [c]

/-- Both passes over an id at once. -/
theorem replaceChar_replaceChar (s : List Char) :
    Text.replaceChar '"' ['\\', '"'] (Text.replaceChar '\\' ['\\', '\\'] s) =
      s.flatMap escape := by
  rw [Text.replaceChar, Text.replaceChar, List.flatMap_assoc]
  refine List.flatMap_congr fun c _ => ?_
  by_cases hslash : c = '\\'
  · subst hslash
    rfl
  · by_cases hquote : c = '"'
    · subst hquote
      rfl
    · simp [escape, hslash, hquote]

theorem toList_ofId (id : String) :
    (ofId id).toList = "[id=\"".toList ++ id.toList.flatMap escape ++ "\"]".toList := by
  have hbody : (String.ofList (id.toList.flatMap escape)).toList = id.toList.flatMap escape :=
    String.toList_ofList
  rw [ofId, replaceChar_replaceChar, String.toList_append, String.toList_append, hbody]

/-- What an id is written as means the id. -/
theorem quotes_escape (s : List Char) : Quotes s (s.flatMap escape) := by
  induction s with
  | nil => exact .nil
  | cons c s ih =>
    rw [List.flatMap_cons, escape]
    split
    · exact .literal c ih
    · next hplain =>
      rw [not_or] at hplain
      exact .plain hplain.2 hplain.1 ih

/-- A selector is read as looking for its id. -/
theorem read?_ofId (id : String) : read? (ofId id) = some (.withId id) := by
  have hstart : "[id=\"".toList.isPrefixOf (ofId id).toList = true := by
    rw [toList_ofId, List.isPrefixOf_iff_prefix, List.append_assoc]
    exact List.prefix_append _ _
  have hread : readQuoted ((ofId id).toList.drop "[id=\"".toList.length) =
      some (id.toList, [']']) := by
    rw [toList_ofId, List.append_assoc, List.drop_left]
    exact (quotes_escape id.toList).readQuoted_append [']']
  rw [read?, if_pos hstart, hread]
  simp

theorem ofId_injective : Function.Injective ofId := by
  intro id id' h
  have hread := read?_ofId id
  rw [h, read?_ofId id'] at hread
  cases hread
  rfl

/-- Behind its prefix the selector of an id is a quoted string, a bracket, and nothing more: the
string means the id, and no quote before its last one ends it. So different ids have different
selectors. -/
theorem ids_end_at_their_quotes :
    (∀ id : String, ∃ written,
      (ofId id).toList = "[id=\"".toList ++ written ++ "\"]".toList ∧
      Quotes id.toList written ∧
      readQuoted (written ++ "\"]".toList) = some (id.toList, [']']) ∧
      ∀ meant early rest, Quotes meant early → written ++ "\"]".toList = early ++ '"' :: rest →
        early = written ∧ meant = id.toList ∧ rest = [']']) ∧
    Function.Injective ofId := by
  refine ⟨fun id => ⟨id.toList.flatMap escape, toList_ofId id, quotes_escape _, ?_, ?_⟩,
    ofId_injective⟩
  · exact (quotes_escape id.toList).readQuoted_append [']']
  · intro meant early rest hearly htext
    have hread := (quotes_escape id.toList).readQuoted_append [']']
    have hread' := readQuoted_eq_some_iff.mpr ⟨early, hearly, htext⟩
    rw [show "\"]".toList = ['"', ']'] from rfl, hread] at hread'
    cases hread'
    exact ⟨(List.append_cancel_right htext).symm, rfl, rfl⟩

/-- An id with a backslash before a quote, and one at its end, is read back whole. -/
theorem ids_end_at_their_quotes_hostile :
    ∃ written, (ofId "\\\"] \\").toList = "[id=\"".toList ++ written ++ "\"]".toList ∧
      readQuoted (written ++ "\"]".toList) = some ("\\\"] \\".toList, [']']) ∧
      ofId "\\\"] \\" ≠ ofId "\\" := by
  obtain ⟨hends, hinjective⟩ := ids_end_at_their_quotes
  obtain ⟨written, htext, -, hread, -⟩ := hends "\\\"] \\"
  exact ⟨written, htext, hread, fun h => absurd (hinjective h) (by decide)⟩

end PaintBench.Selector
