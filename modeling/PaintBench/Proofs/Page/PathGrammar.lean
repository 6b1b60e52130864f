import Mathlib.Data.List.Forall2
import PaintBench.Proofs.Json.RoundTrip
import PaintBench.Proofs.Page.ElementPath
import PaintBench.Proofs.Text.Cutting

/-!
# The grammar of paths

`IsPart` says what a part of a path may be and which segment it stands for, without saying how it
is read. `Segment.read` accepts these parts and no others (`read_eq_ok_iff`), so a text is a path
if it has parts and all of them are of that form. Segments can be printed: `ElementPath.print`
makes a text of them, which reads as the segments it was made of.
-/

namespace PaintBench

namespace Segment

/-! ## The grammar -/

/-- Decimal digits and their value. -/
structure IsDecimal (digits : List Char) (n : Nat) : Prop where
  ne_nil : digits ≠ []
  isDigit : ∀ c ∈ digits, c.isDigit
  value : Nat.ofDigitChars 10 digits 0 = n

/-- Decimal digits, maybe after a plus sign. -/
inductive IsNumeral : List Char → Nat → Prop where
  | bare {digits : List Char} {n : Nat} (h : IsDecimal digits n) : IsNumeral digits n
  | signed {digits : List Char} {n : Nat} (h : IsDecimal digits n) : IsNumeral ('+' :: digits) n

/-- A part of a path and the segment it stands for: a tag, or a tag with an index in brackets,
which counts from one and may have blanks around it. -/
inductive IsPart : List Char → Segment → Prop where
  | tag {tag : List Char} (htag : tag ≠ []) (hbracket : '[' ∉ tag) :
    IsPart tag ⟨String.ofList tag, 1⟩
  | indexed {tag lead numeral trail : List Char} {n : Nat} (htag : tag ≠ []) (hbracket : '[' ∉ tag)
    (hlead : ∀ c ∈ lead, Text.isBlank c) (htrail : ∀ c ∈ trail, Text.isBlank c)
    (hnumeral : IsNumeral numeral n) (hpos : 1 ≤ n) (hsize : n < UInt32.size) :
    IsPart (tag ++ '[' :: (lead ++ numeral ++ trail ++ [']'])) ⟨String.ofList tag, n⟩

variable {s part : List Char} {n : Nat} {segment : Segment}

theorem IsDecimal.eq_valueOf (h : IsDecimal s n) : Decimal.valueOf s = n :=
  (Decimal.valueOf_eq h.isDigit).trans h.value

theorem IsNumeral.ne_nil (h : IsNumeral s n) : s ≠ [] := by
  cases h with
  | bare h => exact h.ne_nil
  | signed h => exact List.cons_ne_nil _ _

theorem IsNumeral.not_blank (h : IsNumeral s n) : ∀ c ∈ s, Text.isBlank c = false := by
  cases h with
  | bare h => exact fun c hc => Text.not_blank_of_isDigit (h.isDigit c hc)
  | signed h =>
    refine List.forall_mem_cons.mpr ⟨by decide, fun c hc => ?_⟩
    exact Text.not_blank_of_isDigit (h.isDigit c hc)

/-- The check that `index?` makes of digits without a sign. -/
theorem isDecimal_iff : IsDecimal s n ∧ n < UInt32.size ↔
    (s.isEmpty || !s.all Char.isDigit || UInt32.size ≤ Decimal.valueOf s) = false ∧
      Decimal.valueOf s = n := by
  simp only [Bool.or_eq_false_iff, List.isEmpty_eq_false_iff, Bool.not_eq_false',
    List.all_eq_true, decide_eq_false_iff_not, Nat.not_le]
  constructor
  · rintro ⟨h, hsize⟩
    rw [h.eq_valueOf]
    exact ⟨⟨⟨h.ne_nil, h.isDigit⟩, hsize⟩, rfl⟩
  · rintro ⟨⟨⟨hne, hdigits⟩, hsize⟩, rfl⟩
    exact ⟨⟨hne, hdigits, (Decimal.valueOf_eq hdigits).symm⟩, hsize⟩

/-- Numbers of 32 bits are read off their digits. -/
theorem index?_eq_some_iff : index? s = some n ↔ IsNumeral s n ∧ n < UInt32.size := by
  have hdigits (digits : List Char) :
      (if digits.isEmpty || !digits.all Char.isDigit ||
          UInt32.size ≤ Decimal.valueOf digits then none
        else some (Decimal.valueOf digits)) = some n ↔ IsDecimal digits n ∧ n < UInt32.size := by
    rw [isDecimal_iff]
    split <;> simp [*]
  have hsigned {r : List Char} : IsNumeral ('+' :: r) n ↔ IsDecimal r n :=
    ⟨fun | .bare h => absurd (h.isDigit '+' List.mem_cons_self) (by decide) | .signed h => h,
      .signed⟩
  have hbare (h : ∀ r, s ≠ '+' :: r) : IsNumeral s n ↔ IsDecimal s n :=
    ⟨fun | .bare h => h | .signed _ => absurd rfl (h _), .bare⟩
  unfold index?
  dsimp only
  split
  · next r => rw [hsigned, hdigits]
  · next h => rw [hbare h, hdigits]

/-- Parts that fit the grammar are read as what they stand for, and no other part is read. -/
theorem read_eq_ok_iff (hne : part ≠ []) : read part = .ok segment ↔ IsPart part segment := by
  constructor
  · intro h
    rw [read] at h
    split at h
    · next hnone =>
      cases h
      exact .tag hne (Text.splitOnce_eq_none_iff.mp hnone)
    · next tag rest hsome =>
      obtain ⟨hbracket, rfl⟩ := Text.splitOnce_eq_some_iff.mp hsome
      split at h
      · cases h
      · next between hlast =>
        obtain rfl := Text.dropLast?_eq_some_iff.mp hlast
        split at h
        · cases h
        · cases h
        · next index hpos hindex =>
          split at h
          · cases h
          · next htag =>
            cases h
            obtain ⟨hnumeral, hsize⟩ := index?_eq_some_iff.mp hindex
            obtain ⟨lead, trail, hbetween, hlead, htrail⟩ := Text.exists_eq_append_trim between
            rw [hbetween]
            exact .indexed (by simpa using htag) hbracket hlead htrail hnumeral
              (Nat.pos_of_ne_zero hpos) hsize
  · rintro (⟨htag, hbracket⟩ | ⟨htag, hbracket, hlead, htrail, hnumeral, hpos, hsize⟩)
    · rw [read, Text.splitOnce_eq_none_iff.mpr hbracket]
    · rw [read, Text.splitOnce_append_cons hbracket]
      dsimp only
      rw [Text.dropLast?_eq_some_iff.mpr rfl]
      dsimp only
      rw [Text.trim_append hlead htrail hnumeral.not_blank hnumeral.ne_nil,
        index?_eq_some_iff.mpr ⟨hnumeral, hsize⟩]
      obtain ⟨n, rfl⟩ := Nat.exists_eq_succ_of_ne_zero (Nat.ne_of_gt hpos)
      simp [htag]

/-! ## Paths -/

theorem readParts_eq_ok_iff {l : List (List Char)} (hne : ∀ part ∈ l, part ≠ [])
    {segments : List Segment} : readParts l = .ok segments ↔ List.Forall₂ IsPart l segments := by
  induction l generalizing segments with
  | nil =>
    rw [List.forall₂_nil_left_iff]
    exact ⟨fun h => (Except.ok.inj h).symm, fun h => congrArg _ h.symm⟩
  | cons part rest ih =>
    obtain ⟨hpart, hrest⟩ := List.forall_mem_cons.mp hne
    rw [List.forall₂_cons_left_iff]
    constructor
    · intro h
      obtain ⟨segment, hsegment, h⟩ := bind_eq_ok_iff.mp h
      obtain ⟨segments, hsegments, h⟩ := bind_eq_ok_iff.mp h
      cases h
      exact ⟨segment, segments, (read_eq_ok_iff hpart).mp hsegment, (ih hrest).mp hsegments, rfl⟩
    · rintro ⟨segment, segments, hsegment, hsegments, rfl⟩
      rw [readParts, (read_eq_ok_iff hpart).mpr hsegment, (ih hrest).mpr hsegments]
      rfl

theorem ne_nil_of_mem_parts : ∀ part ∈ parts s, part ≠ [] := by
  intro part hpart
  simpa using (List.mem_filter.mp hpart).2

/-- A text reads as some segments if it has parts and they stand for these segments. -/
theorem readAll_eq_ok_iff {segments : List Segment} :
    readAll s = .ok segments ↔ parts s ≠ [] ∧ List.Forall₂ IsPart (parts s) segments := by
  rw [← readParts_eq_ok_iff ne_nil_of_mem_parts, readAll_eq]
  split
  · next hnil => exact ⟨nofun, fun h => absurd hnil h.1⟩
  · next hne => exact ⟨fun h => ⟨hne, h⟩, And.right⟩

/-- Texts whose parts all stand for something stand for a list of segments. -/
theorem exists_forall₂_iff {l : List (List Char)} :
    (∃ segments, List.Forall₂ IsPart l segments) ↔ ∀ part ∈ l, ∃ segment, IsPart part segment := by
  induction l with
  | nil => exact ⟨fun _ => List.forall_mem_nil _, fun _ => ⟨[], .nil⟩⟩
  | cons part rest ih =>
    rw [List.forall_mem_cons, ← ih]
    constructor
    · rintro ⟨_, ⟨⟩⟩
      exact ⟨⟨_, ‹_›⟩, _, ‹_›⟩
    · rintro ⟨⟨segment, hsegment⟩, segments, hsegments⟩
      exact ⟨segment :: segments, .cons hsegment hsegments⟩

/-! ## Printing -/

/-- A segment of a path that can be written down: its tag is no empty text and has neither a slash
nor a bracket, and its index is a number of 32 bits but zero. -/
structure IsPrintable (s : Segment) : Prop where
  tag_ne : s.tag ≠ ""
  slash : '/' ∉ s.tag.toList
  bracket : '[' ∉ s.tag.toList
  pos : 1 ≤ s.index
  size : s.index < UInt32.size

/-- A segment with its index. -/
def print (s : Segment) : String :=
  s.tag ++ "[" ++ toString s.index ++ "]"

theorem IsPart.isPrintable (h : IsPart part segment) (hslash : '/' ∉ part) :
    segment.IsPrintable := by
  cases h with
  | tag htag hbracket =>
    exact ⟨by simpa using htag, by simpa using hslash, by simpa using hbracket, Nat.le_refl 1,
      (by decide : 1 < UInt32.size)⟩
  | indexed htag hbracket _ _ _ hpos hsize =>
    refine ⟨by simpa using htag, ?_, by simpa using hbracket, hpos, hsize⟩
    rw [String.toList_ofList]
    exact fun hmem => hslash (List.mem_append_left _ hmem)

theorem slash_not_mem_of_mem_parts : ∀ part ∈ parts s, '/' ∉ part := by
  intro part hpart
  rw [parts, ← Text.splitOn_eq] at hpart
  exact (Text.not_mem_and_subset_of_mem_splitOn (List.mem_filter.mp hpart).1).1

theorem isPrintable_of_forall₂ {l : List (List Char)} {segments : List Segment}
    (h : List.Forall₂ IsPart l segments) (hslash : ∀ part ∈ l, '/' ∉ part) :
    ∀ s ∈ segments, s.IsPrintable := by
  induction h with
  | nil => exact List.forall_mem_nil _
  | cons hpart _ ih =>
    obtain ⟨hfirst, hrest⟩ := List.forall_mem_cons.mp hslash
    exact List.forall_mem_cons.mpr ⟨hpart.isPrintable hfirst, ih hrest⟩

theorem toList_print (s : Segment) :
    s.print.toList = s.tag.toList ++ '[' :: (Decimal.digitsOf s.index ++ [']']) := by
  simp [print, Decimal.digitsOf]

/-- A printed segment is a part that stands for it. -/
theorem IsPrintable.isPart (h : segment.IsPrintable) : IsPart segment.print.toList segment := by
  have hnumeral : IsNumeral (Decimal.digitsOf segment.index) segment.index :=
    .bare ⟨Nat.toDigits_ne_nil, fun _ => Json.isDigit_of_mem_digitsOf,
      Nat.ofDigitChars_ten_toDigits⟩
  have hpart := IsPart.indexed (by simpa using h.tag_ne) h.bracket (List.forall_mem_nil _)
    (List.forall_mem_nil _) hnumeral h.pos h.size
  rw [toList_print]
  simpa using hpart

theorem IsPrintable.slash_not_mem_print (h : segment.IsPrintable) :
    '/' ∉ segment.print.toList := by
  rw [toList_print]
  simp only [List.mem_append, List.mem_cons, List.not_mem_nil, or_false, not_or]
  refine ⟨h.slash, by decide, fun hmem => ?_, by decide⟩
  exact absurd (Json.isDigit_of_mem_digitsOf hmem) (by decide)

end Segment

namespace ElementPath

/-- The text of a path of some segments. -/
def print (segments : List Segment) : String :=
  "//" ++ "/".intercalate (segments.map Segment.print)

open Segment (IsPart IsPrintable parts)

/-- The parts of a printed path are its printed segments. -/
theorem parts_print {segments : List Segment} (hne : segments ≠ [])
    (h : ∀ s ∈ segments, s.IsPrintable) :
    parts (print segments).toList = segments.map (·.print.toList) := by
  have htext : (print segments).toList =
      [] ++ '/' :: ([] ++ '/' :: ['/'].intercalate (segments.map (·.print.toList))) := by
    simp [print, String.toList_intercalate, Function.comp_def]
  have hsplit : (['/'].intercalate (segments.map (·.print.toList))).splitOn '/' =
      segments.map (·.print.toList) := by
    refine List.splitOn_intercalate '/' (fun part hpart => ?_) (by simpa using hne)
    obtain ⟨s, hs, rfl⟩ := List.mem_map.mp hpart
    exact (h s hs).slash_not_mem_print
  rw [htext, Segment.parts_append, Segment.parts_append, parts, parts, hsplit]
  refine List.filter_eq_self.mpr fun part hpart => ?_
  obtain ⟨s, -, rfl⟩ := List.mem_map.mp hpart
  simp [Segment.toList_print]

theorem parse_eq_ok_iff {text : String} {p : ElementPath} : parse text = .ok p ↔ p.text = text := by
  constructor
  · intro h
    unfold parse at h
    split at h <;> cases h
    rfl
  · rintro rfl
    exact parse_text p

/-- The JSON text of a path reads as the path. -/
theorem decode_parse?_encode (p : ElementPath) :
    (Json.parse? p.encode.compact).bind decode = some p := by
  have htext : Json.parse? p.encode.compact = some p.encode :=
    Json.parse?_compact (.str p.text)
  rw [htext, Option.bind_some, encode, decode, parse_text]
  rfl

/-- Texts are paths if they have parts and all of them fit the grammar. The path is then made of
what the parts stand for, which can be printed, and its JSON text reads as the path again. Printed
segments read as they were. -/
theorem paths_of_grammar :
    (∀ text, (∃ p, parse text = .ok p) ↔
      parts text.toList ≠ [] ∧ ∀ part ∈ parts text.toList, ∃ segment, IsPart part segment) ∧
    (∀ text p, parse text = .ok p → p.text = text ∧
      List.Forall₂ IsPart (parts text.toList) p.segments ∧
      p.segments ≠ [] ∧ (∀ s ∈ p.segments, s.IsPrintable) ∧
      (Json.parse? p.encode.compact).bind decode = some p) ∧
    ∀ segments, segments ≠ [] → (∀ s ∈ segments, s.IsPrintable) →
      ∃ p, parse (print segments) = .ok p ∧ p.segments = segments := by
  refine ⟨fun text => ?_, fun text p hparse => ?_, fun segments hne hprintable => ?_⟩
  · rw [← Segment.exists_forall₂_iff]
    constructor
    · rintro ⟨p, hparse⟩
      obtain rfl := parse_eq_ok_iff.mp hparse
      obtain ⟨hparts, hsegments⟩ := Segment.readAll_eq_ok_iff.mp p.reads
      exact ⟨hparts, p.segments, hsegments⟩
    · rintro ⟨hparts, segments, hsegments⟩
      have hreads := Segment.readAll_eq_ok_iff.mpr ⟨hparts, hsegments⟩
      exact ⟨⟨text, segments, hreads⟩, parse_eq_ok_iff.mpr rfl⟩
  · obtain rfl := parse_eq_ok_iff.mp hparse
    obtain ⟨hparts, hsegments⟩ := Segment.readAll_eq_ok_iff.mp p.reads
    refine ⟨rfl, hsegments, fun hnil => hparts ?_,
      Segment.isPrintable_of_forall₂ hsegments Segment.slash_not_mem_of_mem_parts,
      decode_parse?_encode p⟩
    rw [hnil] at hsegments
    exact List.forall₂_nil_right_iff.mp hsegments
  · have hparts := parts_print hne hprintable
    have hreads : Segment.readAll (print segments).toList = .ok segments := by
      rw [Segment.readAll_eq_ok_iff, hparts]
      refine ⟨by simpa using hne, ?_⟩
      rw [List.forall₂_map_left_iff, List.forall₂_same]
      exact fun s hs => (hprintable s hs).isPart
    exact ⟨⟨_, segments, hreads⟩, parse_eq_ok_iff.mpr rfl, rfl⟩

/-- A tag with the greatest index, and an index with blanks, a sign and zeros around its digits. -/
theorem paths_of_row :
    (∃ p, parse (print [⟨"tr", 4294967295⟩]) = .ok p ∧ p.segments = [⟨"tr", 4294967295⟩]) ∧
    ∃ p, parse "tbody//tr[ +012 ]" = .ok p ∧
      List.Forall₂ IsPart ["tbody".toList, "tr[ +012 ]".toList] p.segments ∧
      (Json.parse? p.encode.compact).bind decode = some p := by
  obtain ⟨haccepts, hpaths, hprinted⟩ := paths_of_grammar
  refine ⟨hprinted _ (List.cons_ne_nil _ _) fun s hs => ?_, ?_⟩
  · obtain rfl := List.mem_singleton.mp hs
    exact ⟨by decide, by decide, by decide, by decide, by decide⟩
  · have hindex : Segment.IsNumeral "+012".toList 12 :=
      .signed ⟨by decide, List.all_eq_true.mp (by decide), by decide⟩
    have hindexed : IsPart ("tr".toList ++ '[' :: ([' '] ++ "+012".toList ++ [' '] ++ [']']))
        ⟨String.ofList "tr".toList, 12⟩ :=
      .indexed (by decide) (by decide) (List.forall_mem_singleton.mpr (by decide))
        (List.forall_mem_singleton.mpr (by decide)) hindex (by decide) (by decide)
    have hparts : parts "tbody//tr[ +012 ]".toList = ["tbody".toList, "tr[ +012 ]".toList] := by
      decide
    obtain ⟨p, hparse⟩ := (haccepts "tbody//tr[ +012 ]").mpr <| by
      rw [hparts]
      refine ⟨List.cons_ne_nil _ _, List.forall_mem_cons.mpr ⟨?_, List.forall_mem_singleton.mpr ?_⟩⟩
      · exact ⟨_, .tag (by decide) (by decide)⟩
      · exact ⟨_, hindexed⟩
    obtain ⟨-, hsegments, -, -, hjson⟩ := hpaths _ p hparse
    exact ⟨p, hparse, hparts ▸ hsegments, hjson⟩

end ElementPath

end PaintBench
