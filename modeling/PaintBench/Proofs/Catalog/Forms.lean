import PaintBench.Catalog.Benchmark
import PaintBench.Proofs.Duration
import PaintBench.Proofs.Json.Rearranged
import PaintBench.Proofs.Json.Short
import PaintBench.Proofs.Result

/-!
# Benchmarks in JSON

The members of an object may stand in any order, and those that hold their default may be left
out: these are the forms of a step (`Step.IsForm`) and of a benchmark (`IsForm`), and both are
read from any of them, with the limits of their waits cut to whole milliseconds
(`Step.decode_of_isForm`, `decode_obj`).

As a text, everything in a benchmark but its throttle is plain and reads as it was written. The
throttle is a decimal, which the reader rounds more than once, so a benchmark goes over into
`reread` (`decode_parse_of_isForm`). `benchmarks_survive_json` puts all of this together, and
`benchmark_changes_in_json` shows that a throttle of 16 digits may change.
-/

namespace PaintBench

open Json

/-! ## Steps -/

namespace Step

/-- The JSON forms of a step: its members in any order, where a limit that is null may be left
out. -/
def IsForm (step : Step) (j : Json) : Prop :=
  ∃ full members, step.encode = .obj full ∧ j = .obj members ∧
    Rearranged [("timeout", .null)] members full

theorem isForm_encode (step : Step) : step.IsForm step.encode := by
  cases step <;> exact ⟨_, _, rfl, rfl, .refl _ _⟩

/-- The limit of its own that a wait has. -/
def limit? : Step → Option Duration
  | waitForId _ limit | waitForPath _ limit | waitForPathAbsent _ limit | waitForText _ _ limit
  | waitForTextAbsent _ _ limit | waitForClass _ _ limit | waitForCapturedText _ _ limit => limit
  | clickId _ | clickPath _ | captureText .. => none

/-- What a step is read back as. -/
def cut : Step → Step
  | waitForId id limit => waitForId id (limit.map Duration.cut)
  | waitForPath path limit => waitForPath path (limit.map Duration.cut)
  | waitForPathAbsent path limit => waitForPathAbsent path (limit.map Duration.cut)
  | waitForText path text limit => waitForText path text (limit.map Duration.cut)
  | waitForTextAbsent path text limit => waitForTextAbsent path text (limit.map Duration.cut)
  | waitForClass path name limit => waitForClass path name (limit.map Duration.cut)
  | clickId id => clickId id
  | clickPath path => clickPath path
  | captureText path name => captureText path name
  | waitForCapturedText path name limit => waitForCapturedText path name (limit.map Duration.cut)

variable {step : Step} {members full : List (String × Json)}

theorem cut_eq_self (h : ∀ d ∈ step.limit?, d.IsWhole) : step.cut = step := by
  cases step with
  | waitForId | waitForPath | waitForPathAbsent | waitForText | waitForTextAbsent | waitForClass
  | waitForCapturedText =>
    exact congrArg _ (Duration.map_cut_eq_self h)
  | clickId | clickPath | captureText => rfl

theorem nodup_of_encode (h : step.encode = .obj full) : (full.map (·.1)).Nodup := by
  cases step <;> cases h <;> simp

theorem plain_of_encode (h : step.encode = .obj full) : ∀ m ∈ full, ∀ depth, Plain depth m.2 := by
  have hlimit (limit : Option Duration) (depth : Nat) :
      Plain depth (Json.ofOption Duration.encode limit) := by
    cases limit with
    | none => exact .null
    | some d => exact d.plain_encode
  cases step <;> cases h <;> simp [ElementPath.encode, hlimit]

theorem decode_path (p : ElementPath) : ElementPath.decode p.encode = some p := by
  rw [ElementPath.encode, ElementPath.decode, ElementPath.parse_text]
  rfl

/-- A step is read from any of its forms. -/
theorem decode_of_isForm {j : Json} (h : step.IsForm j) : decode j = some step.cut := by
  obtain ⟨full, members, hencode, rfl, hmembers⟩ := h
  have hfull := nodup_of_encode hencode
  have hreadable : (Json.obj members).isReadable :=
    membersAreReadable_of_forall fun m hm =>
      (plain_of_encode hencode m (hmembers.mem hm) 0).isReadable
  have hrecord (fields : List String) :
      Record.of? fields (.obj members) = some ⟨members, false⟩ :=
    Record.of?_obj (hmembers.nodup hfull)
  have htext {name s : String} (hmem : (name, .str s) ∈ full) :
      Record.required ⟨members, false⟩ name Decode.text = some s :=
    hmembers.required hfull hmem (by simp) rfl
  have hpath {p : ElementPath} (hmem : ("path", p.encode) ∈ full) :
      Record.required ⟨members, false⟩ "path" ElementPath.decode = some p :=
    hmembers.required hfull hmem (by simp) (decode_path p)
  have hlimit {limit : Option Duration}
      (hmem : ("timeout", Json.ofOption Duration.encode limit) ∈ full) :
      Record.optionalOrMissing ⟨members, false⟩ "timeout" Duration.decode =
        some (limit.map Duration.cut) :=
    (hmembers.optionalOrMissing hfull hmem (by simp)).trans (Duration.orNull_ofOption limit)
  rw [decode, Decode.entire, if_pos hreadable, decodeTagged]
  refine bind_eq_some_of (Record.ofObject?_obj (hmembers.nodup hfull)) ?_
  cases step <;> cases hencode <;> refine bind_eq_some_of (htext List.mem_cons_self) ?_ <;>
    refine bind_eq_some_of (hrecord _) ?_
  case waitForId id limit =>
    exact bind_eq_some_of (htext (by simp)) (bind_eq_some_of (hlimit (by simp)) rfl)
  case waitForPath p limit | waitForPathAbsent p limit =>
    exact bind_eq_some_of (hpath (by simp)) (bind_eq_some_of (hlimit (by simp)) rfl)
  case waitForText p text limit | waitForTextAbsent p text limit | waitForClass p text limit |
      waitForCapturedText p text limit =>
    exact bind_eq_some_of (hpath (by simp)) (bind_eq_some_of (htext (by simp))
      (bind_eq_some_of (hlimit (by simp)) rfl))
  case clickId id => exact bind_eq_some_of (htext (by simp)) rfl
  case clickPath p => exact bind_eq_some_of (hpath (by simp)) rfl
  case captureText p name =>
    exact bind_eq_some_of (hpath (by simp)) (bind_eq_some_of (htext (by simp)) rfl)

theorem plain_of_isForm {j : Json} (h : step.IsForm j) (depth : Nat) : Plain (depth + 1) j := by
  obtain ⟨full, members, hencode, rfl, hmembers⟩ := h
  exact .obj fun m hm => plain_of_encode hencode m (hmembers.mem hm) depth

end Step

/-- The steps of a hook are read from forms of them. -/
theorem decode_hook {steps : List Step} {items : List Json}
    (h : List.Forall₂ Step.IsForm steps items) :
    Decode.list Step.decode (.arr items) = some (steps.map Step.cut) := by
  rw [Decode.list]
  induction h with
  | nil => rfl
  | cons hstep _ ih => rw [Decode.items, Step.decode_of_isForm hstep, ih, List.map_cons]

theorem plain_hook {steps : List Step} {items : List Json}
    (h : List.Forall₂ Step.IsForm steps items) (depth : Nat) : Plain (depth + 2) (.arr items) := by
  refine .arr ?_
  induction h with
  | nil => exact List.forall_mem_nil _
  | cons hstep _ ih => exact List.forall_mem_cons.mpr ⟨Step.plain_of_isForm hstep depth, ih⟩

/-! ## Benchmarks -/

/-- A benchmark with another throttle. -/
def TimedBenchmark.withThrottle (b : TimedBenchmark) (throttle : Option Float) : TimedBenchmark :=
  { b with info := { b.info with throttle } }

namespace TimedBenchmark

/-- What a benchmark is read back as from a JSON value. -/
def cut (b : TimedBenchmark) : TimedBenchmark where
  info := b.info
  init := b.init.map Step.cut
  run := b.run.map Step.cut
  after := b.after.map Step.cut

/-- The limits of their own that the waits of a benchmark have. -/
def limits (b : TimedBenchmark) : List Duration :=
  (b.init ++ b.run ++ b.after).filterMap Step.limit?

theorem cut_eq_self {b : TimedBenchmark} (h : ∀ d ∈ b.limits, d.IsWhole) : b.cut = b := by
  have hhook {steps : List Step} (hsub : steps ⊆ b.init ++ b.run ++ b.after) :
      steps.map Step.cut = steps := by
    refine List.map_congr_left (fun step hstep => ?_) |>.trans (List.map_id steps)
    exact Step.cut_eq_self fun d hd => h d (List.mem_filterMap.mpr ⟨step, hsub hstep, hd⟩)
  rw [cut, hhook (by simp), hhook (by simp), hhook (by simp)]

/-- The members of a benchmark that may be left out. -/
def spareMembers : List (String × Json) :=
  [("description", .str ""), ("throttle", .null), ("init", .arr []), ("run", .arr []),
    ("after", .arr [])]

/-- The members of a benchmark with a value in the place of the throttle, and the values of the
hooks. -/
def membersWith (b : TimedBenchmark) (throttle : Json) (init run after : List Json) :
    List (String × Json) :=
  [("id", .str b.info.id), ("label", .str b.info.label),
    ("description", .str b.info.description), ("kind", b.info.kind.encode),
    ("throttle", throttle), ("init", .arr init), ("run", .arr run), ("after", .arr after)]

/-- The JSON forms of a benchmark: its members in any order, where those that hold their default
may be left out, with any forms of its steps. -/
def IsForm (b : TimedBenchmark) (j : Json) : Prop :=
  ∃ init run after members, List.Forall₂ Step.IsForm b.init init ∧
    List.Forall₂ Step.IsForm b.run run ∧ List.Forall₂ Step.IsForm b.after after ∧
    j = .obj members ∧ Rearranged spareMembers members (b.info.members ++
      [("init", .arr init), ("run", .arr run), ("after", .arr after)])

theorem isForm_encode (b : TimedBenchmark) : b.IsForm b.encode := by
  have hsteps (steps : List Step) : List.Forall₂ Step.IsForm steps (steps.map Step.encode) :=
    List.forall₂_map_right_iff.mpr (List.forall₂_same.mpr fun step _ => step.isForm_encode)
  exact ⟨_, _, _, _, hsteps b.init, hsteps b.run, hsteps b.after, rfl, .refl _ _⟩

variable {b : TimedBenchmark} {throttle : Json} {init run after : List Json}
  {members : List (String × Json)}

theorem nodup_membersWith : ((b.membersWith throttle init run after).map (·.1)).Nodup := by
  simp [membersWith]

/-- A hook that may be left out has no steps. -/
theorem eq_nil_of_spare {name : String} {items : List Json} {steps : List Step}
    (hsteps : List.Forall₂ Step.IsForm steps items) (h : (name, .arr items) ∈ spareMembers) :
    steps = [] := by
  have hitems : items = [] := by
    simp only [spareMembers, List.mem_cons, Prod.mk.injEq, Json.arr.injEq, reduceCtorEq, and_false,
      List.not_mem_nil, or_false, false_or] at h
    rcases h with h | h | h <;> exact h.2
  rwa [hitems, List.forall₂_nil_right_iff] at hsteps

/-- What a benchmark is, read from its members with any value in the place of the throttle. -/
theorem ofRecord_membersWith
    (h : Rearranged spareMembers members (b.membersWith throttle init run after)) :
    BenchmarkInfo.ofRecord ⟨members, false⟩ = (Decode.orNull Decode.float throttle).map fun rate =>
      { b.info with throttle := rate } := by
  have hid : Record.required ⟨members, false⟩ "id" Decode.text = some b.info.id :=
    h.required nodup_membersWith (show (_, Json.str b.info.id) ∈ _ by simp [membersWith])
      (by simp [spareMembers]) rfl
  have hlabel : Record.required ⟨members, false⟩ "label" Decode.text = some b.info.label :=
    h.required nodup_membersWith (show (_, Json.str b.info.label) ∈ _ by simp [membersWith])
      (by simp [spareMembers]) rfl
  have hdescription : Record.withDefault ⟨members, false⟩ "description" Decode.text "" =
      some b.info.description :=
    h.withDefault nodup_membersWith
      (show (_, Json.str b.info.description) ∈ _ by simp [membersWith])
      (by simp [spareMembers]) rfl
  have hkind : Record.required ⟨members, false⟩ "kind" BenchmarkInfo.decodeKind =
      some b.info.kind :=
    h.required nodup_membersWith (show (_, b.info.kind.encode) ∈ _ by simp [membersWith])
      (by simp [spareMembers]) (by cases b.info.kind <;> rfl)
  have hthrottle : Record.optionalOrMissing ⟨members, false⟩ "throttle" Decode.float =
      Decode.orNull Decode.float throttle :=
    h.optionalOrMissing nodup_membersWith (by simp [membersWith]) (by simp [spareMembers])
  rw [BenchmarkInfo.ofRecord, hid, hlabel, hdescription, hkind, hthrottle]
  cases Decode.orNull Decode.float throttle <;> rfl

/-- A benchmark is read from its members with any value in the place of the throttle. -/
theorem decodeMembers_obj (hinit : List.Forall₂ Step.IsForm b.init init)
    (hrun : List.Forall₂ Step.IsForm b.run run) (hafter : List.Forall₂ Step.IsForm b.after after)
    (h : Rearranged spareMembers members (b.membersWith throttle init run after)) :
    decodeMembers (.obj members) =
      (Decode.orNull Decode.float throttle).map b.cut.withThrottle := by
  have hhook {name : String} {items : List Json} {steps : List Step}
      (hsteps : List.Forall₂ Step.IsForm steps items)
      (hmem : (name, .arr items) ∈ b.membersWith throttle init run after) :
      Record.withDefault ⟨members, false⟩ name (Decode.list Step.decode) [] =
        some (steps.map Step.cut) := by
    refine h.withDefault nodup_membersWith hmem (fun hspare => ?_) (decode_hook hsteps)
    rw [eq_nil_of_spare hsteps hspare, List.map_nil]
  have hinit' := hhook hinit (show ("init", Json.arr init) ∈ _ by simp [membersWith])
  have hrun' := hhook hrun (show ("run", Json.arr run) ∈ _ by simp [membersWith])
  have hafter' := hhook hafter (show ("after", Json.arr after) ∈ _ by simp [membersWith])
  rw [decodeMembers, Record.ofObject?_obj (h.nodup nodup_membersWith)]
  simp only [Option.bind_eq_bind, Option.bind_some, ofRecord_membersWith h, hinit', hrun', hafter']
  cases Decode.orNull Decode.float throttle <;> rfl

theorem plain_of_mem_membersWith (hinit : List.Forall₂ Step.IsForm b.init init)
    (hrun : List.Forall₂ Step.IsForm b.run run) (hafter : List.Forall₂ Step.IsForm b.after after)
    {m : String × Json} (hm : m ∈ b.membersWith throttle init run after) :
    m = ("throttle", throttle) ∨ ∀ depth, Plain (depth + 2) m.2 := by
  simp only [membersWith, List.mem_cons, List.not_mem_nil, or_false] at hm
  rcases hm with rfl | rfl | rfl | rfl | rfl | rfl | rfl | rfl
  · exact .inr fun _ => .str _
  · exact .inr fun _ => .str _
  · exact .inr fun _ => .str _
  · exact .inr fun _ => .str _
  · exact .inl rfl
  · exact .inr fun depth => plain_hook hinit depth
  · exact .inr fun depth => plain_hook hrun depth
  · exact .inr fun depth => plain_hook hafter depth

/-- A benchmark is read from its members, whether or not its throttle can be read. -/
theorem decode_obj (hinit : List.Forall₂ Step.IsForm b.init init)
    (hrun : List.Forall₂ Step.IsForm b.run run) (hafter : List.Forall₂ Step.IsForm b.after after)
    (h : Rearranged spareMembers members (b.membersWith throttle init run after)) :
    decode (.obj members) = (Decode.orNull Decode.float throttle).map b.cut.withThrottle := by
  have hdecode := decodeMembers_obj hinit hrun hafter h
  rw [decode, Decode.entire]
  by_cases hthrottle : throttle.isReadable
  · have hreadable : (Json.obj members).isReadable := by
      refine membersAreReadable_of_forall fun m hm => ?_
      rcases plain_of_mem_membersWith hinit hrun hafter (h.mem hm) with rfl | hplain
      · exact hthrottle
      · exact (hplain 0).isReadable
    rw [if_pos hreadable, hdecode]
  · have hnone : Decode.orNull Decode.float throttle = none := by
      cases throttle with
      | null | bool | num | str => exact absurd rfl hthrottle
      | arr | obj | unreadable => rfl
    rw [hdecode, hnone]
    split <;> rfl

/-! ## Texts -/

/-- The throttle of a benchmark as a value. -/
def throttleJson (b : TimedBenchmark) : Json :=
  .ofOption .ofFloat b.info.throttle

section

variable (hinit : List.Forall₂ Step.IsForm b.init init)
  (hrun : List.Forall₂ Step.IsForm b.run run) (hafter : List.Forall₂ Step.IsForm b.after after)
  (h : Rearranged spareMembers members (b.membersWith b.throttleJson init run after))
  (hfinite : ∀ x ∈ b.info.throttle, Decimal.isFinite x)

include hfinite

theorem readsAs_throttleJson (depth : Nat) :
    ReadsAs depth b.throttleJson b.throttleJson.reread := by
  rw [throttleJson]
  rcases hthrottle : b.info.throttle with _ | x
  · exact Plain.null.readsAs
  · have hx := hfinite x hthrottle
    rw [Json.ofOption, Json.ofFloat, if_pos hx]
    exact .float hx

include hinit hrun hafter h

theorem parse_obj : parse? (Json.obj members).compact =
    some (.obj (members.map fun m => (m.1, m.2.reread))) := by
  rw [parse?, compact, String.toList_ofList]
  refine ReadsAs.parseChars? (ReadsAs.obj (List.forall₂_map_right_iff.mpr
    (List.forall₂_same.mpr fun m hm => ⟨rfl, ?_⟩)))
  rcases plain_of_mem_membersWith hinit hrun hafter (h.mem hm) with rfl | hplain
  · exact readsAs_throttleJson hfinite _
  · rw [reread_of_plain (hplain 0)]
    exact (hplain _).readsAs

theorem decode_parse_obj : (parse? (Json.obj members).compact).bind decode =
    (Decode.orNull Decode.float b.throttleJson.reread).map b.cut.withThrottle := by
  rw [parse_obj hinit hrun hafter h hfinite, Option.bind_some]
  refine decode_obj hinit hrun hafter ?_
  refine h.map fun m hm => ?_
  simp only [spareMembers, List.mem_cons, List.not_mem_nil, or_false] at hm
  rcases hm with rfl | rfl | rfl | rfl | rfl <;> rfl

end

/-- What is read of a benchmark that was written as a text, where the throttle is a decimal. -/
def reread (b : TimedBenchmark) : Option TimedBenchmark :=
  match b.info.throttle with
  | none => some b
  | some x => (Decode.float (readBack x)).map fun rate => b.withThrottle (some rate)

theorem map_throttleJson (hfinite : ∀ x ∈ b.info.throttle, Decimal.isFinite x) :
    (Decode.orNull Decode.float b.throttleJson).map b.withThrottle = some b := by
  rcases b with ⟨⟨id, label, description, kind, _ | x⟩, init, run, after⟩
  · rfl
  · rw [throttleJson, Json.ofOption, Json.ofFloat, if_pos (hfinite x rfl)]
    rfl

theorem map_reread_throttleJson (hfinite : ∀ x ∈ b.info.throttle, Decimal.isFinite x) :
    (Decode.orNull Decode.float b.throttleJson.reread).map b.withThrottle = b.reread := by
  rcases b with ⟨⟨id, label, description, kind, _ | x⟩, init, run, after⟩
  · rfl
  · have hx := hfinite x rfl
    rw [throttleJson, Json.ofOption, Json.ofFloat, if_pos hx, Json.reread,
      Decode.orNull_of_ne_null (readBack_ne_null hx), Option.map_map]
    rfl

/-- A benchmark is read as it was written if its throttle is. -/
theorem reread_eq_self_iff : b.reread = some b ↔
    ∀ x ∈ b.info.throttle, Decode.float (readBack x) = some x := by
  rcases b with ⟨⟨id, label, description, kind, _ | x⟩, init, run, after⟩
  · exact iff_of_true rfl nofun
  · simp [reread, withThrottle]

/-- A benchmark is read from the text of every form of it, but for the digits of its throttle. -/
theorem decode_parse_of_isForm {j : Json} (hform : b.IsForm j)
    (hfinite : ∀ x ∈ b.info.throttle, Decimal.isFinite x) :
    (parse? j.compact).bind decode = b.cut.reread := by
  obtain ⟨init, run, after, members, hinit, hrun, hafter, rfl, hmembers⟩ := hform
  exact (decode_parse_obj hinit hrun hafter hmembers hfinite).trans
    (map_reread_throttleJson (b := b.cut) hfinite)

/-- The encoding of a benchmark is one of its forms, and the benchmark is read from all of them if
its limits are whole numbers of milliseconds. From their texts it is read but for its throttle,
which is what the reader makes of the digits, and so the same if it is short. -/
theorem benchmarks_survive_json (b : TimedBenchmark) (hwhole : ∀ d ∈ b.limits, d.IsWhole)
    (hfinite : ∀ x ∈ b.info.throttle, Decimal.isFinite x) :
    b.IsForm b.encode ∧ ∀ j, b.IsForm j → decode j = some b ∧
      (parse? j.compact).bind decode = b.reread ∧
      ((∀ x ∈ b.info.throttle, Decimal.IsShort x) →
        (parse? j.compact).bind decode = some b) := by
  refine ⟨isForm_encode b, fun j hform => ?_⟩
  have htext := decode_parse_of_isForm hform hfinite
  rw [cut_eq_self hwhole] at htext
  refine ⟨?_, htext, fun hshort => htext.trans (reread_eq_self_iff.mpr fun x hx => ?_)⟩
  · obtain ⟨init, run, after, members, hinit, hrun, hafter, rfl, hmembers⟩ := hform
    rw [decode_obj hinit hrun hafter hmembers, cut_eq_self hwhole]
    exact map_throttleJson hfinite
  · rw [readBack_of_isShort (hshort x hx)]
    rfl

/-- A benchmark that waits for a button, at a fourth of the speed. -/
def fourfold : TimedBenchmark :=
  ⟨⟨"90_wait", "wait", "", .cpu, some (Float.ofBits 0x4010000000000000)⟩,
    [.waitForId "run" (some (.ofMilliseconds 300))], [], []⟩

/-- A form of it in another order, without the members that hold their default. -/
def fourfoldForm : Json :=
  .obj [("label", .str "wait"), ("id", .str "90_wait"), ("kind", .str "cpu"),
    ("throttle", .num (.float (Float.ofBits 0x4010000000000000))),
    ("init", .arr [.obj [("id", .str "run"), ("type", .str "wait_for_id"),
      ("timeout", .num (.whole 300))]])]

theorem benchmarks_survive_json_fourfold :
    decode fourfoldForm = some fourfold ∧
      (parse? fourfoldForm.compact).bind decode = some fourfold := by
  have hunpack : Decimal.unpack (Float.ofBits 0x4010000000000000) =
      .finite false (2 ^ 52) 1024 := by
    decide +kernel
  have hshort : ∀ x ∈ fourfold.info.throttle, Decimal.IsShort x := by
    rintro x ⟨⟩
    exact ⟨_, _, _, hunpack, fun _ => by decide +kernel⟩
  have hwhole : ∀ d ∈ fourfold.limits, d.IsWhole :=
    List.forall_mem_singleton.mpr (Duration.isWhole_ofMilliseconds 300)
  have hwait : Step.IsForm (.waitForId "run" (some (.ofMilliseconds 300)))
      (.obj [("id", .str "run"), ("type", .str "wait_for_id"), ("timeout", .num (.whole 300))]) :=
    ⟨_, [_, _, _], rfl, rfl, [], .swap _ _ _, List.forall_mem_nil _⟩
  have hform : fourfold.IsForm fourfoldForm := by
    refine ⟨[_], [], [], [_, _, _, _, _], .cons hwait .nil, .nil, .nil, rfl,
      [("description", .str ""), ("run", .arr []), ("after", .arr [])], ?_, by simp [spareMembers]⟩
    exact (List.Perm.swap _ _ _).trans (.cons _ (.cons _ (@List.perm_middle _ _ [_, _, _] [_, _])))
  obtain ⟨-, hforms⟩ := benchmarks_survive_json fourfold hwhole fun x hx => (hshort x hx).isFinite
  obtain ⟨hdecode, -, htext⟩ := hforms fourfoldForm hform
  exact ⟨hdecode, htext hshort⟩

/-- A benchmark whose throttle has 16 digits. -/
def crawling : TimedBenchmark :=
  ⟨⟨"90_x", "x", "", .cpu, some (Float.ofBits 0x4056ebb847ec4685)⟩, [], [], []⟩

/-- Sixteen digits need not be read as the number they were written for. -/
theorem benchmark_changes_in_json :
    (∀ x ∈ crawling.info.throttle, Decimal.isFinite x) ∧
      (parse? crawling.encode.compact).bind decode ≠ some crawling := by
  have hunpack : Decimal.unpack (Float.ofBits 0x4056ebb847ec4685) =
      .finite false 6451626200811141 1028 := by
    decide +kernel
  have hdigits : Decimal.shortest .even 6451626200811141 1028 = ⟨9168312261651779, -14⟩ := by
    decide +kernel
  have hfinite : ∀ x ∈ crawling.info.throttle, Decimal.isFinite x := by
    rintro x ⟨⟩
    rw [Decimal.isFinite, hunpack]
  have hback : readBack (Float.ofBits 0x4056ebb847ec4685) =
      ofFinite (Decimal.scaled false 9168312261651779 (-14)) :=
    readBack_of_exponent_neg hunpack (by decide) hdigits (by decide) (by decide)
  have hscaled : Decimal.scaled false 9168312261651779 (-14) =
      Decimal.nearest false 9168312261651779 1 / Decimal.floatPower 14 :=
    Decimal.scaled_eq_div false _ (show 0 < 14 by decide) (by decide)
  have hbits : Decimal.isFinite (Decimal.nearest false 9168312261651779 1 / Decimal.floatPower 14) ∧
      (Decimal.nearest false 9168312261651779 1 / Decimal.floatPower 14).toBits =
        0x4056ebb847ec4686 := by
    decide +kernel
  have hcut : crawling.cut = crawling := rfl
  refine ⟨hfinite, ?_⟩
  rw [decode_parse_of_isForm (isForm_encode crawling) hfinite, hcut, ne_eq, reread_eq_self_iff]
  intro hsame
  have hthrottle := hsame _ rfl
  rw [hback, hscaled, ofFinite, if_pos hbits.1] at hthrottle
  have hequal := congrArg Float.toBits (Option.some.inj hthrottle)
  exact absurd (hbits.2.symm.trans hequal) (by decide +kernel)

end TimedBenchmark

end PaintBench
