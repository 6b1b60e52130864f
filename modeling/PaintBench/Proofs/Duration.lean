import PaintBench.Duration
import PaintBench.Proofs.Json.Record
import PaintBench.Proofs.Json.RoundTrip

/-!
# What JSON keeps of a length of time

A duration is read back as its `cut`, that is, in whole milliseconds and without what 64 bits do
not hold of them (`nanoseconds_cut`). So a duration survives exactly if there is nothing to lose
(`cut_eq_self_iff`).
-/

namespace PaintBench.Duration

open Json

/-- What a duration is read back as. -/
def cut (d : Duration) : Duration :=
  .ofMilliseconds d.milliseconds

/-- A whole number of milliseconds, below `2 ^ 64` of them. -/
def IsWhole (d : Duration) : Prop :=
  ∃ ms < UInt64.size, d.nanoseconds = ms * 1000000

theorem nanoseconds_cut (d : Duration) :
    d.cut.nanoseconds = d.nanoseconds / 1000000 % UInt64.size * 1000000 := by
  rw [cut, nanoseconds_ofMilliseconds, milliseconds, UInt64.toNat_ofNat']

theorem isWhole_ofMilliseconds (ms : UInt64) : (ofMilliseconds ms).IsWhole :=
  ⟨ms.toNat, ms.toNat_lt_size, rfl⟩

theorem isWhole_cut (d : Duration) : d.cut.IsWhole :=
  isWhole_ofMilliseconds _

theorem cut_eq_self_iff {d : Duration} : d.cut = d ↔ d.IsWhole := by
  constructor
  · intro h
    exact h ▸ d.isWhole_cut
  · rintro ⟨ms, hms, hd⟩
    have hnanoseconds : d.cut.nanoseconds = d.nanoseconds := by
      rw [nanoseconds_cut, hd, Nat.mul_div_cancel _ (by decide), Nat.mod_eq_of_lt hms]
    cases d
    exact (mk.injEq ..).mpr hnanoseconds

theorem map_cut_eq_self {limit : Option Duration} (h : ∀ d ∈ limit, d.IsWhole) :
    limit.map cut = limit := by
  cases limit with
  | none => rfl
  | some d => rw [Option.map_some, cut_eq_self_iff.mpr (h d rfl)]

/-- A duration that may have been replaced by another one is not cut further. -/
theorem ite_cut_eq_iff {p : Prop} [Decidable p] {d other : Duration} :
    (if p then other else d.cut) = (if p then other else d) ↔ (¬p → d.IsWhole) := by
  by_cases hp : p
  · simp [hp]
  · simp [hp, cut_eq_self_iff]

theorem decode_encode (d : Duration) : decode d.encode = some d.cut := by
  rw [decode, encode, Decode.uint64_ofNat]
  rfl

@[simp] theorem plain_encode {depth : Nat} (d : Duration) : Plain depth d.encode :=
  .ofNat_uint64 d.milliseconds

/-- A limit that need not be there. -/
theorem orNull_ofOption (limit : Option Duration) :
    Decode.orNull decode (Json.ofOption encode limit) = some (limit.map cut) := by
  cases limit with
  | none => rfl
  | some d =>
    rw [Json.ofOption, Decode.orNull_of_ne_null (by simp [encode, Json.ofNat]), decode_encode]
    rfl

end PaintBench.Duration
