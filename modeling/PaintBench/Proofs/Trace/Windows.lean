import Mathlib.Data.List.TakeWhile
import Mathlib.Data.Nat.Find
import Mathlib.Tactic.Choose
import PaintBench.Proofs.Trace.PhaseProtocol

/-!
# Where run windows lie

A trace may have its markers in any order, and some of them repeated or missing. `IsSegment` says
which parts of a list are closed by an element, and `IsWindow` which part of a segment is a run
window, both by places alone.

The segments that `closedSegments` cuts off are found one after the other, each from the place
behind the one before it (`exists_segments`, by induction on what is left of the list). From them
`windows_of_any_trace` describes the run windows of any trace.
-/

namespace PaintBench.Trace

/-! ## Places of a list -/

section

variable {ι : Type} {p : ι → Bool} {l : List ι} {n start mid finish : Nat}

/-- There is an element of a kind at a place. -/
def IsAt (p : ι → Bool) (l : List ι) (n : Nat) : Prop :=
  ∃ a, l[n]? = some a ∧ p a = true

instance : Decidable (IsAt p l n) :=
  decidable_of_iff (l[n]?.any p = true) (Option.any_eq_true ..)

theorem IsAt.lt_length (h : IsAt p l n) : n < l.length := by
  obtain ⟨a, ha, -⟩ := h
  exact (List.getElem?_eq_some_iff.mp ha).1

theorem mem_extract {a : ι} :
    a ∈ l.extract start finish ↔ ∃ n, start ≤ n ∧ n < finish ∧ l[n]? = some a := by
  rw [List.extract_eq_take_drop, List.mem_iff_getElem?]
  constructor
  · rintro ⟨k, hk⟩
    rw [List.getElem?_take] at hk
    split at hk
    · rw [List.getElem?_drop] at hk
      exact ⟨start + k, Nat.le_add_right .., by omega, hk⟩
    · cases hk
  · rintro ⟨n, hstart, hfinish, hn⟩
    refine ⟨n - start, ?_⟩
    rw [List.getElem?_take, if_pos (by omega), List.getElem?_drop, Nat.add_sub_cancel' hstart, hn]

theorem extract_append (hstart : start ≤ mid) (hfinish : mid ≤ finish) :
    l.extract start finish = l.extract start mid ++ l.extract mid finish := by
  have hlength : finish - start = (mid - start) + (finish - mid) := by omega
  simp only [List.extract_eq_take_drop]
  rw [hlength, List.take_add, List.drop_drop, Nat.add_sub_cancel' hstart]

/-- From a place on, the list is the part up to a later element, that one, and the rest. -/
theorem drop_eq_extract_append {a : ι} (hstart : start ≤ finish) (ha : l[finish]? = some a) :
    l.drop start = l.extract start finish ++ a :: l.drop (finish + 1) := by
  obtain ⟨hlength, rfl⟩ := List.getElem?_eq_some_iff.mp ha
  have hrest : l.drop finish = (l.drop start).drop (finish - start) := by
    rw [List.drop_drop, Nat.add_sub_cancel' hstart]
  rw [← List.drop_eq_getElem_cons hlength, List.extract_eq_take_drop, hrest,
    List.take_append_drop]

theorem exists_extract_eq_cons {a : ι} (hlt : start < finish) (ha : l[start]? = some a) :
    ∃ rest, l.extract start finish = a :: rest := by
  obtain ⟨hlength, rfl⟩ := List.getElem?_eq_some_iff.mp ha
  obtain ⟨k, hk⟩ := Nat.exists_eq_succ_of_ne_zero (Nat.sub_ne_zero_of_lt hlt)
  rw [List.extract_eq_take_drop, hk, List.drop_eq_getElem_cons hlength]
  exact ⟨_, rfl⟩

/-- What a list has before its first element of a kind can be skipped. -/
theorem dropWhile_extract (hstart : start ≤ mid) (hfinish : mid ≤ finish)
    (hbefore : ∀ n, start ≤ n → n < mid → ¬IsAt p l n) (hat : mid = finish ∨ IsAt p l mid) :
    (l.extract start finish).dropWhile (!p ·) = l.extract mid finish := by
  have hskip : ∀ a ∈ l.extract start mid, (!p a) = true := by
    intro a ha
    obtain ⟨n, hn, hlt, hget⟩ := mem_extract.mp ha
    rw [Bool.not_eq_true', Bool.eq_false_iff]
    exact fun hp => hbefore n hn hlt ⟨a, hget, hp⟩
  rw [extract_append hstart hfinish, List.dropWhile_append_of_pos hskip]
  rcases hat with rfl | ⟨a, hget, hp⟩
  · simp
  · rcases Nat.eq_or_lt_of_le hfinish with rfl | hlt
    · simp
    · obtain ⟨rest, hrest⟩ := exists_extract_eq_cons hlt hget
      rw [hrest, List.dropWhile_cons_of_neg (by simp [hp])]

/-- Places from a given one on have a first one. -/
theorem exists_first {P : Nat → Prop} (h : ∃ n, start ≤ n ∧ P n) :
    ∃ n, start ≤ n ∧ P n ∧ ∀ m, start ≤ m → m < n → ¬P m := by
  classical
  exact ⟨Nat.find h, (Nat.find_spec h).1, (Nat.find_spec h).2,
    fun m hm hlt hP => Nat.find_min h hlt ⟨hm, hP⟩⟩

/-! ## Segments -/

/-- A segment of what a list has from a place on. It ends before a closing element and has none
itself. It starts at that place or behind a closing element. -/
structure IsSegment (closes : ι → Bool) (l : List ι) (first start finish : Nat) : Prop where
  starts : start = first ∨ ∃ last, first ≤ last ∧ IsAt closes l last ∧ start = last + 1
  le : start ≤ finish
  unclosed : ∀ n, start ≤ n → n < finish → ¬IsAt closes l n
  closed : IsAt closes l finish

variable {closes : ι → Bool} {first : Nat}

theorem IsSegment.first_le (h : IsSegment closes l first start finish) : first ≤ start := by
  rcases h.starts with rfl | ⟨last, hlast, -, rfl⟩
  · exact Nat.le_refl _
  · exact Nat.le_succ_of_le hlast

/-- One segment does not start within another one that ends at the same place. -/
theorem IsSegment.start_le {start' : Nat} (h : IsSegment closes l first start finish)
    (h' : IsSegment closes l first start' finish) : start' ≤ start := by
  rcases h'.starts with rfl | ⟨last, hlast, hclosed, rfl⟩
  · exact h.first_le
  · refine Nat.lt_of_not_le fun hle => h.unclosed last hle ?_ hclosed
    exact h'.le

/-- Every closing element ends one segment. -/
theorem existsUnique_segment (hfirst : first ≤ finish) (h : IsAt closes l finish) :
    ∃! start, IsSegment closes l first start finish := by
  obtain ⟨start, hstart, hunclosed, hleast⟩ :=
    exists_first (P := fun n => ∀ m, n ≤ m → m < finish → ¬IsAt closes l m)
      ⟨finish, hfirst, fun m hm hlt => absurd hm (Nat.not_le_of_lt hlt)⟩
  have hle : start ≤ finish := Nat.le_of_not_lt fun hlt =>
    hleast finish hfirst hlt fun m hm hlt => absurd hm (Nat.not_le_of_lt hlt)
  have hsegment : IsSegment closes l first start finish := by
    refine ⟨?_, hle, hunclosed, h⟩
    rcases Nat.eq_or_lt_of_le hstart with rfl | hlt
    · exact Or.inl rfl
    · obtain ⟨last, rfl⟩ : ∃ last, start = last + 1 := ⟨start - 1, by omega⟩
      have hclosed : IsAt closes l last := by
        by_contra hnot
        refine hleast last (Nat.le_of_lt_succ hlt) (Nat.lt_succ_self last) fun m hm hlt => ?_
        rcases Nat.eq_or_lt_of_le hm with rfl | hlater
        · exact hnot
        · exact hunclosed m hlater hlt
      exact Or.inr ⟨last, Nat.le_of_lt_succ hlt, hclosed, rfl⟩
  exact ⟨start, hsegment,
    fun start' h' => Nat.le_antisymm (hsegment.start_le h') (h'.start_le hsegment)⟩

/-- Segments begin with the one that the first closing element ends, and the others are those
behind it. -/
theorem isSegment_iff (hfirst : first ≤ mid) (hmid : IsAt closes l mid)
    (hunclosed : ∀ n, first ≤ n → n < mid → ¬IsAt closes l n) :
    IsSegment closes l first start finish ↔
      (start = first ∧ finish = mid) ∨ IsSegment closes l (mid + 1) start finish := by
  constructor
  · intro h
    rcases Nat.lt_trichotomy finish mid with hlt | rfl | hlt
    · exact absurd h.closed (hunclosed finish (h.first_le.trans h.le) hlt)
    · refine Or.inl ⟨?_, rfl⟩
      rcases h.starts with rfl | ⟨last, hlast, hclosed, rfl⟩
      · rfl
      · exact absurd hclosed (hunclosed last hlast h.le)
    · have hstart : mid < start := Nat.lt_of_not_le fun hle => h.unclosed mid hle hlt hmid
      refine Or.inr ⟨?_, h.le, h.unclosed, h.closed⟩
      rcases h.starts with rfl | ⟨last, hlast, hclosed, rfl⟩
      · exact absurd hfirst (Nat.not_le_of_lt hstart)
      · rcases Nat.eq_or_lt_of_le (Nat.le_of_lt_succ hstart) with rfl | hlater
        · exact Or.inl rfl
        · exact Or.inr ⟨last, hlater, hclosed, rfl⟩
  · rintro (⟨rfl, rfl⟩ | h)
    · exact ⟨Or.inl rfl, hfirst, hunclosed, hmid⟩
    · refine ⟨Or.inr ?_, h.le, h.unclosed, h.closed⟩
      rcases h.starts with rfl | ⟨last, hlast, hclosed, rfl⟩
      · exact ⟨mid, hfirst, hmid, rfl⟩
      · exact ⟨last, hfirst.trans (Nat.le_of_succ_le hlast), hclosed, rfl⟩

/-- The segments that are cut off are all segments there are, in their order. -/
theorem exists_segments (closes : ι → Bool) (l : List ι) (first : Nat) :
    ∃ places : List (Nat × Nat),
      closedSegments closes (l.drop first) = places.map (fun s => l.extract s.1 s.2) ∧
      (∀ s, s ∈ places ↔ IsSegment closes l first s.1 s.2) ∧
      places.Pairwise (·.2 < ·.1) := by
  induction hleft : l.length - first using Nat.strong_induction_on generalizing first with
  | _ left ih =>
    by_cases h : ∃ n, first ≤ n ∧ IsAt closes l n
    · obtain ⟨finish, hfirst, hfinish, hunclosed⟩ := exists_first h
      have hlength := hfinish.lt_length
      obtain ⟨places, hsegments, hplaces, hpairwise⟩ :=
        ih (l.length - (finish + 1)) (by omega) (finish + 1) rfl
      refine ⟨(first, finish) :: places, ?_, fun s => ?_, ?_⟩
      · obtain ⟨a, ha, hcloses⟩ := hfinish
        have hopen : ∀ b ∈ l.extract first finish, closes b = false := by
          intro b hb
          obtain ⟨n, hn, hlt, hget⟩ := mem_extract.mp hb
          rw [Bool.eq_false_iff]
          exact fun hcloses => hunclosed n hn hlt ⟨b, hget, hcloses⟩
        rw [drop_eq_extract_append hfirst ha, closedSegments_append hopen hcloses, hsegments]
        rfl
      · rw [List.mem_cons, hplaces, isSegment_iff hfirst hfinish hunclosed, Prod.ext_iff]
      · refine List.pairwise_cons.mpr ⟨fun s hs => ?_, hpairwise⟩
        exact ((hplaces s).mp hs).first_le
    · refine ⟨[], ?_, fun s => ?_, .nil⟩
      · refine closedSegments_of_open fun a ha => ?_
        obtain ⟨k, hk⟩ := List.mem_iff_getElem?.mp ha
        rw [List.getElem?_drop] at hk
        rw [Bool.eq_false_iff]
        exact fun hcloses => h ⟨first + k, Nat.le_add_right .., a, hk, hcloses⟩
      · refine ⟨fun hs => (List.not_mem_nil hs).elim, fun hs => ?_⟩
        exact (h ⟨s.2, hs.first_le.trans hs.le, hs.closed⟩).elim

end

/-! ## Windows -/

variable {α : Type} {events : List (Event α)}

/-- The event at a place announces a phase. -/
def Announces (events : List (Event α)) (n : Nat) (phase : Phase) : Prop :=
  IsAt (·.phase? == some phase) events n

/-- The place of the first init marker, behind all events if there is none. -/
def firstInit (events : List (Event α)) : Nat :=
  events.findIdx (·.phase? == some .init)

/-- A segment of a trace: the events since the finished marker before it, or since the first init
marker, up to the next finished marker. -/
def IsTraceSegment (events : List (Event α)) (start finish : Nat) : Prop :=
  IsSegment (·.phase? == some .finished) events (firstInit events) start finish

/-- Where a segment starts and ends, and where its window does: the window ends with it. -/
structure WindowPlace where
  start : Nat
  run : Nat
  finish : Nat

/-- The events of a window. -/
def WindowPlace.window (p : WindowPlace) (events : List (Event α)) : List (Event α) :=
  events.extract p.run p.finish

/-- There is anything but run markers in a part of a trace. -/
def HasOther (events : List (Event α)) (start finish : Nat) : Prop :=
  ∃ n, start ≤ n ∧ n < finish ∧ ¬Announces events n .run

/-- The first run marker of a part of a trace, or the end of the part if it has none. -/
structure StartsRun (events : List (Event α)) (start run finish : Nat) : Prop where
  start_le : start ≤ run
  le_finish : run ≤ finish
  before : ∀ n, start ≤ n → n < run → ¬Announces events n .run
  marked : run = finish ∨ Announces events run .run

/-- A segment with anything but run markers in it has a window, which starts with its first run
marker. Without a run marker the window is empty. -/
structure IsWindow (events : List (Event α)) (p : WindowPlace) : Prop where
  segment : IsTraceSegment events p.start p.finish
  other : HasOther events p.start p.finish
  run : StartsRun events p.start p.run p.finish

instance (n : Nat) (phase : Phase) : Decidable (Announces events n phase) :=
  inferInstanceAs (Decidable (IsAt _ events n))

theorem announces_iff {n : Nat} {phase : Phase} :
    Announces events n phase ↔ ∃ e, events[n]? = some e ∧ e.phase? = some phase := by
  simp [Announces, IsAt]

theorem StartsRun.le {start run run' finish : Nat} (h : StartsRun events start run finish)
    (h' : StartsRun events start run' finish) : run ≤ run' := by
  rcases h'.marked with rfl | hmarked
  · exact h.le_finish
  · exact Nat.le_of_not_lt fun hlt => h.before run' h'.start_le hlt hmarked

theorem existsUnique_run (events : List (Event α)) {start finish : Nat} (h : start ≤ finish) :
    ∃! run, StartsRun events start run finish := by
  obtain ⟨run, hstart, hmarked, hbefore⟩ :=
    exists_first (P := fun n => n = finish ∨ Announces events n .run) ⟨finish, h, Or.inl rfl⟩
  have hrun : StartsRun events start run finish :=
    ⟨hstart, Nat.le_of_not_lt fun hlt => hbefore finish h hlt (Or.inl rfl),
      fun n hn hlt => fun hrun => hbefore n hn hlt (Or.inr hrun), hmarked⟩
  exact ⟨run, hrun, fun run' h' => Nat.le_antisymm (h'.le hrun) (hrun.le h')⟩

/-- What stands from the first init marker on. -/
theorem dropWhile_eq_drop_firstInit (events : List (Event α)) :
    events.dropWhile (·.phase? != some .init) = events.drop (firstInit events) := by
  rw [List.dropWhile_eq_drop_findIdx_not, firstInit]
  congr 2
  funext e
  exact Bool.not_not _

theorem any_extract_iff {start finish : Nat} (hfinish : finish ≤ events.length) :
    (events.extract start finish).any (·.phase? != some .run) ↔ HasOther events start finish := by
  simp only [List.any_eq_true, mem_extract, HasOther, announces_iff, bne_iff_ne]
  constructor
  · rintro ⟨e, ⟨n, hstart, hlt, hget⟩, hphase⟩
    refine ⟨n, hstart, hlt, ?_⟩
    rintro ⟨e', hget', hrun⟩
    exact hphase (Option.some.inj (hget.symm.trans hget') ▸ hrun)
  · rintro ⟨n, hstart, hlt, hother⟩
    have hget := List.getElem?_eq_getElem (Nat.lt_of_lt_of_le hlt hfinish)
    exact ⟨_, ⟨n, hstart, hlt, hget⟩, fun hrun => hother ⟨_, hget, hrun⟩⟩

/-- What a window has and does not have. -/
theorem IsWindow.window_cases {p : WindowPlace} (h : IsWindow events p) :
    (∀ e ∈ p.window events, e.phase? ≠ some .finished) ∧
      (p.window events = [] ∨ ∃ ts rest, p.window events = .marker .run ts :: rest) := by
  constructor
  · intro e he hphase
    obtain ⟨n, hrun, hfinish, hget⟩ := mem_extract.mp he
    exact h.segment.unclosed n (h.run.start_le.trans hrun) hfinish ⟨e, hget, by simp [hphase]⟩
  · rcases Nat.eq_or_lt_of_le h.run.le_finish with hempty | hlt
    · exact Or.inl (by simp [WindowPlace.window, hempty])
    · right
      obtain ⟨e, hget, hphase⟩ := announces_iff.mp (h.run.marked.resolve_left hlt.ne)
      obtain ⟨rest, hwindow⟩ := exists_extract_eq_cons hlt hget
      cases e with
      | marker phase ts =>
        obtain rfl : phase = .run := by simpa [Event.phase?] using hphase
        exact ⟨ts, rest, hwindow⟩
      | _ => simp [Event.phase?] at hphase

/-- The windows that are found are all windows there are, in their order. -/
theorem exists_windows (events : List (Event α)) :
    ∃ places : List WindowPlace,
      runWindows events = places.map (·.window events) ∧
      (∀ p, p ∈ places ↔ IsWindow events p) ∧
      places.Pairwise (·.finish < ·.start) := by
  obtain ⟨segments, hsegments, hmem, hpairwise⟩ :=
    exists_segments (·.phase? == some .finished) events (firstInit events)
  have hrun : ∀ s : Nat × Nat, ∃ run, s.1 ≤ s.2 → StartsRun events s.1 run s.2 := by
    intro s
    by_cases hle : s.1 ≤ s.2
    · obtain ⟨run, hrun, -⟩ := existsUnique_run events hle
      exact ⟨run, fun _ => hrun⟩
    · exact ⟨0, fun h => absurd h hle⟩
  choose run hrun using hrun
  let kept := segments.filter fun s =>
    (events.extract s.1 s.2).any (·.phase? != some .run)
  have hkept : ∀ s, s ∈ kept ↔ IsTraceSegment events s.1 s.2 ∧ HasOther events s.1 s.2 := by
    intro s
    rw [List.mem_filter, hmem]
    exact and_congr_right fun h => any_extract_iff h.closed.lt_length.le
  refine ⟨kept.map fun s => ⟨s.1, run s, s.2⟩, ?_, fun p => ?_, ?_⟩
  · rw [runWindows, windowsBy, dropWhile_eq_drop_firstInit, hsegments, List.filter_map,
      List.map_map, List.map_map]
    refine List.map_congr_left fun s hs => ?_
    have h := hrun s ((hkept s).mp hs).1.le
    exact dropWhile_extract h.start_le h.le_finish h.before h.marked
  · rw [List.mem_map]
    constructor
    · rintro ⟨s, hs, rfl⟩
      obtain ⟨hsegment, hother⟩ := (hkept s).mp hs
      exact ⟨hsegment, hother, hrun s hsegment.le⟩
    · intro h
      refine ⟨(p.start, p.finish), (hkept _).mpr ⟨h.segment, h.other⟩, ?_⟩
      have hother := hrun (p.start, p.finish) h.segment.le
      have heq : run (p.start, p.finish) = p.run :=
        Nat.le_antisymm (hother.le h.run) (h.run.le hother)
      simp only [heq]
  · exact List.pairwise_map.mpr (hpairwise.filter _)

/-- The run windows of a trace, whatever markers it has: in their order there is exactly one for
each finished marker behind the first init marker whose segment has anything but run markers in
it. So windows lie apart from each other, after the first init marker and before a finished one,
have no finished marker in them, and are empty or start with a run marker. -/
theorem windows_of_any_trace (events : List (Event α)) :
    (∀ finish, Announces events finish .finished → firstInit events < finish →
      ∃! start, IsTraceSegment events start finish) ∧
    (∀ start finish, IsTraceSegment events start finish → HasOther events start finish →
      ∃! run, IsWindow events ⟨start, run, finish⟩) ∧
    ∃ places : List WindowPlace,
      runWindows events = places.map (·.window events) ∧
      (∀ p, p ∈ places ↔ IsWindow events p) ∧
      places.Pairwise (·.finish < ·.start) ∧
      ∀ p ∈ places, firstInit events ≤ p.run ∧ p.run ≤ p.finish ∧
        Announces events p.finish .finished ∧
        (∀ e ∈ p.window events, e.phase? ≠ some .finished) ∧
        (p.window events = [] ∨ ∃ ts rest, p.window events = .marker .run ts :: rest) := by
  refine ⟨fun finish hfinish hinit => existsUnique_segment hinit.le hfinish, ?_, ?_⟩
  · intro start finish hsegment hother
    obtain ⟨run, hrun, hunique⟩ := existsUnique_run events hsegment.le
    exact ⟨run, ⟨hsegment, hother, hrun⟩, fun run' h' => hunique run' h'.run⟩
  · obtain ⟨places, hwindows, hplaces, hpairwise⟩ := exists_windows events
    refine ⟨places, hwindows, hplaces, hpairwise, fun p hp => ?_⟩
    have h := (hplaces p).mp hp
    exact ⟨h.segment.first_le.trans h.run.start_le, h.run.le_finish, h.segment.closed,
      h.window_cases⟩

/-- A trace with a run marker before its first init marker, two finished markers in a row, a
segment of a run marker only, and a click between an init and a run marker. -/
def unbalancedTrace : List (Event Int) :=
  [.paint 0 1, .marker .run 1, .marker .init 2, .marker .finished 3, .marker .finished 4,
    .marker .run 5, .marker .finished 6, .click 7 1, .marker .run 8, .paint 9 1, .marker .run 10,
    .marker .finished 11, .marker .run 12]

/-- The fourth finished marker of the trace ends one segment, which has one window. The other
window is the empty one before the first finished marker. -/
theorem windows_of_unbalancedTrace :
    (∃! start, IsTraceSegment unbalancedTrace start 11) ∧
      (∃! run, IsWindow unbalancedTrace ⟨7, run, 11⟩) ∧
      runWindows unbalancedTrace =
        [[], [.marker .run 8, .paint 9 1, .marker .run 10]] := by
  have hsegment : IsTraceSegment unbalancedTrace 7 11 :=
    ⟨Or.inr ⟨6, by decide, by decide, rfl⟩, by decide, by decide, by decide⟩
  obtain ⟨hends, hwindow, -⟩ := windows_of_any_trace unbalancedTrace
  exact ⟨hends 11 (by decide) (by decide),
    hwindow 7 11 hsegment ⟨7, by decide, by decide, by decide⟩, by decide⟩

end PaintBench.Trace
