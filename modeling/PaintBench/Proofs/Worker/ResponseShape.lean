import PaintBench.Proofs.Json.Members
import PaintBench.Proofs.Worker.Message

/-!
# The two shapes of a response

A response has one of two shapes: an object with a failure (`IsFailure`), or one with the
warnings of a run and maybe its error (`IsCompleted`). Both shapes say how often the members
`failure`, `error` and `warnings` occur and what they hold. `decode` accepts these shapes and
nothing else, with the failure first (`responses_have_two_shapes`); members of other names make
no difference, and a response that was written has its shape.
-/

namespace PaintBench.WorkerResponse

open Json

/-! ## Shapes -/

/-- An object with one member for a failure, a text. -/
def IsFailure (j : Json) (message : String) : Prop :=
  ∃ members, j = .obj members ∧ valuesOf "failure" members = [.str message]

/-- An object with one member for the warnings, a list of texts, and one member at most for the
error, a text or null. -/
def IsCompleted (j : Json) (error : Option String) (warnings : List String) : Prop :=
  ∃ members, j = .obj members ∧ valuesOf "warnings" members = [.ofStrings warnings] ∧
    (valuesOf "error" members = [] ∧ error = none ∨
      valuesOf "error" members = [.ofOption .str error])

/-- The names that count in a response. -/
def names : List String := ["failure", "error", "warnings"]

theorem decodeFailure_eq_some_iff {j : Json} {r : WorkerResponse} :
    decodeFailure j = some r ↔ ∃ message, r = failure message ∧ IsFailure j message := by
  constructor
  · intro h
    obtain ⟨record, hrecord, h⟩ := Option.bind_eq_some_iff.mp h
    obtain ⟨members, rfl, rfl, hdistinct⟩ := Record.ofObject?_eq_some_iff.mp hrecord
    obtain ⟨message, hmessage, hr⟩ := Option.bind_eq_some_iff.mp h
    obtain ⟨j, hvalues, htext⟩ :=
      (Record.required_eq_some_iff (hdistinct _ List.mem_cons_self)).mp hmessage
    rw [Decode.text_eq_some_iff.mp htext] at hvalues
    cases hr
    exact ⟨message, rfl, members, rfl, hvalues⟩
  · rintro ⟨message, rfl, members, rfl, hvalues⟩
    have hone : (valuesOf "failure" members).length ≤ 1 := by simp [hvalues]
    refine bind_eq_some_of (Record.ofObject?_eq_some_iff.mpr ⟨members, rfl, rfl, by simpa⟩) ?_
    refine bind_eq_some_of ((Record.required_eq_some_iff hone).mpr ⟨_, hvalues, rfl⟩) ?_
    rfl

theorem decodeCompleted_eq_some_iff {j : Json} {r : WorkerResponse} :
    decodeCompleted j = some r ↔
      ∃ error warnings, r = completed error warnings ∧ IsCompleted j error warnings := by
  constructor
  · intro h
    obtain ⟨record, hrecord, h⟩ := Option.bind_eq_some_iff.mp h
    obtain ⟨members, rfl, rfl, hdistinct⟩ := Record.ofObject?_eq_some_iff.mp hrecord
    obtain ⟨error, herror, h⟩ := Option.bind_eq_some_iff.mp h
    obtain ⟨warnings, hwarnings, hr⟩ := Option.bind_eq_some_iff.mp h
    have herror' := (Record.optional_eq_some_iff (hdistinct "error" (by simp))).mp herror
    obtain ⟨j, hvalues, hlist⟩ :=
      (Record.required_eq_some_iff (hdistinct "warnings" (by simp))).mp hwarnings
    rw [Decode.list_text_eq_some_iff.mp hlist] at hvalues
    cases hr
    refine ⟨error, warnings, rfl, members, rfl, hvalues, herror'.imp_right ?_⟩
    rintro ⟨j, hj, htext⟩
    rw [hj, Decode.orNull_text_eq_some_iff.mp htext]
  · rintro ⟨error, warnings, rfl, members, rfl, hwarnings, herror⟩
    have hone : (valuesOf "warnings" members).length ≤ 1 := by simp [hwarnings]
    have hatMost : (valuesOf "error" members).length ≤ 1 := by
      rcases herror with ⟨herror, -⟩ | herror <;> simp [herror]
    have hoptional : Record.optional ⟨members, false⟩ "error" Decode.text = some error :=
      (Record.optional_eq_some_iff hatMost).mpr
        (herror.imp_right fun herror => ⟨_, herror, Decode.orNull_ofOption⟩)
    refine bind_eq_some_of (Record.ofObject?_eq_some_iff.mpr ⟨members, rfl, rfl, by simp [*]⟩) ?_
    refine bind_eq_some_of hoptional ?_
    refine bind_eq_some_of
      ((Record.required_eq_some_iff hone).mpr ⟨_, hwarnings, Decode.list_ofStrings warnings⟩) ?_
    rfl

/-! ## Decoding -/

/-- The shape that a response is read from. A failure is looked for first. -/
def HasShape (j : Json) : WorkerResponse → Prop
  | failure message => IsFailure j message
  | completed error warnings => (¬∃ message, IsFailure j message) ∧ IsCompleted j error warnings

theorem decode_eq_some_iff {j : Json} {r : WorkerResponse} :
    decode j = some r ↔ j.isReadable ∧ HasShape j r := by
  have hfailure : decodeFailure j = none ↔ ¬∃ message, IsFailure j message := by
    rw [Option.eq_none_iff_forall_ne_some]
    simp only [ne_eq, decodeFailure_eq_some_iff]
    constructor
    · rintro h ⟨message, hshape⟩
      exact h _ ⟨message, rfl, hshape⟩
    · rintro h _ ⟨message, -, hshape⟩
      exact h ⟨message, hshape⟩
  simp only [decode, Decode.entire, Option.ite_none_right_eq_some, Option.or_eq_some_iff, hfailure,
    decodeFailure_eq_some_iff, decodeCompleted_eq_some_iff]
  cases r <;> simp [HasShape]

/-- Whether a value is the shape of some response does not depend on what is looked for first. -/
theorem exists_hasShape_iff {j : Json} : (∃ r, HasShape j r) ↔
    (∃ message, IsFailure j message) ∨ ∃ error warnings, IsCompleted j error warnings := by
  constructor
  · rintro ⟨⟨message⟩ | ⟨error, warnings⟩, hshape⟩
    · exact Or.inl ⟨message, hshape⟩
    · exact Or.inr ⟨error, warnings, hshape.2⟩
  · rintro h
    by_cases hfailure : ∃ message, IsFailure j message
    · obtain ⟨message, hshape⟩ := hfailure
      exact ⟨failure message, hshape⟩
    · obtain ⟨error, warnings, hshape⟩ := h.resolve_left hfailure
      exact ⟨completed error warnings, hfailure, hshape⟩

/-- What is decoded depends on the members that count. -/
theorem hasShape_congr {members members' : List (String × Json)}
    (h : ∀ name ∈ names, valuesOf name members' = valuesOf name members) (r : WorkerResponse) :
    HasShape (.obj members') r ↔ HasShape (.obj members) r := by
  simp only [names, List.forall_mem_cons] at h
  obtain ⟨hfailure, herror, hwarnings, -⟩ := h
  have hfailures (message : String) :
      IsFailure (.obj members') message ↔ IsFailure (.obj members) message := by
    simp [IsFailure, hfailure]
  cases r with
  | failure message => exact hfailures message
  | completed error warnings =>
    simp [HasShape, hfailures, IsCompleted, herror, hwarnings]

/-- Every response is read from its own shape and from no other one: an object with one failure,
or else one with one list of warnings and at most one error. What has neither shape is no
response. Readable members of other names make no difference, and neither does the order of the
members. What a response is written as reads as the response. -/
theorem responses_have_two_shapes :
    (∀ j message, decode j = some (failure message) ↔ j.isReadable ∧ IsFailure j message) ∧
    (∀ j error warnings, decode j = some (completed error warnings) ↔
      j.isReadable ∧ (¬∃ message, IsFailure j message) ∧ IsCompleted j error warnings) ∧
    (∀ j, decode j = none ↔ ¬(j.isReadable ∧
      ((∃ message, IsFailure j message) ∨ ∃ error warnings, IsCompleted j error warnings))) ∧
    (∀ members members', (Json.obj members).isReadable → (Json.obj members').isReadable →
      (∀ name ∈ names, valuesOf name members' = valuesOf name members) →
        decode (.obj members') = decode (.obj members)) ∧
    ∀ r : WorkerResponse, decode r.encode = some r := by
  refine ⟨fun j message => decode_eq_some_iff, fun j error warnings => decode_eq_some_iff,
    fun j => ?_, fun members members' hreadable hreadable' hvalues => ?_, decode_encode⟩
  · rw [Option.eq_none_iff_forall_ne_some, ← exists_hasShape_iff]
    simp only [ne_eq, decode_eq_some_iff, not_and, not_exists]
    exact ⟨fun h hreadable r => h r hreadable, fun h r hreadable => h hreadable r⟩
  · refine Option.ext fun r => ?_
    rw [decode_eq_some_iff, decode_eq_some_iff, hasShape_congr hvalues]
    simp [hreadable, hreadable']

/-- An outcome among members of other names, one of them repeated, and an empty object, which is
no response. -/
theorem responses_have_two_shapes_scattered :
    decode (.obj [("note", .null), ("warnings", .ofStrings ["slow"]), ("note", .bool true),
      ("error", .null)]) = some (completed none ["slow"]) ∧ decode (.obj []) = none := by
  obtain ⟨-, hcompleted, hrejected, hothers, -⟩ := responses_have_two_shapes
  constructor
  · rw [hothers [("error", .null), ("warnings", .ofStrings ["slow"])] _ (by decide) (by decide)
      (by simp [names, valuesOf]), hcompleted]
    refine ⟨by decide, ?_, _, rfl, rfl, Or.inr rfl⟩
    rintro ⟨message, _, hobj, hvalues⟩
    cases hobj
    cases hvalues
  · rw [hrejected]
    rintro ⟨-, ⟨message, _, hobj, hvalues⟩ | ⟨error, warnings, _, hobj, hvalues, -⟩⟩ <;>
      cases hobj <;> cases hvalues

end PaintBench.WorkerResponse
