import PaintBench.Decimal.Layout
import PaintBench.Json.Decode

/-!
# Lengths of time

A `Duration` counts nanoseconds, and a message shows all of them. Its JSON form has whole
milliseconds only, and no more of them than 64 bits hold; whatever else there is of it is
lost. The clock of a run ticks once in a millisecond, and a length of time is over with the
first tick that does not come too early.
-/

namespace PaintBench

/-- A length of time of less than `2 ^ 64` seconds. -/
structure Duration where
  nanoseconds : Nat
  bounded : nanoseconds < UInt64.size * 1000000000
deriving DecidableEq, Repr

namespace Duration

/-- A number of milliseconds. -/
def ofMilliseconds (ms : UInt64) : Duration where
  nanoseconds := ms.toNat * 1000000
  bounded := by
    have hms := ms.toNat_lt_size
    omega

/-- The whole milliseconds, without what 64 bits do not hold of them. -/
def milliseconds (d : Duration) : UInt64 :=
  .ofNat (d.nanoseconds / 1000000)

/-- After how many ticks of the clock a length of time is over. -/
def ticks (d : Duration) : Nat :=
  if d.nanoseconds % 1000000 = 0 then d.nanoseconds / 1000000 else d.nanoseconds / 1000000 + 1

/-- A length of time inside a message. -/
def text (d : Duration) : String :=
  String.ofList (Decimal.nanoseconds d.nanoseconds)

/-- Read a number of milliseconds. -/
def decode (j : Json) : Option Duration :=
  (Json.Decode.uint64 j).map ofMilliseconds

/-- Write the milliseconds. -/
def encode (d : Duration) : Json :=
  .ofNat d.milliseconds.toNat

@[simp] theorem nanoseconds_ofMilliseconds (ms : UInt64) :
    (ofMilliseconds ms).nanoseconds = ms.toNat * 1000000 := rfl

@[simp] theorem milliseconds_ofMilliseconds (ms : UInt64) :
    (ofMilliseconds ms).milliseconds = ms := by
  rw [milliseconds, nanoseconds_ofMilliseconds, Nat.mul_div_cancel _ (by decide),
    UInt64.ofNat_toNat]

@[simp] theorem ticks_ofMilliseconds (ms : UInt64) : (ofMilliseconds ms).ticks = ms.toNat := by
  rw [ticks, nanoseconds_ofMilliseconds, if_pos (Nat.mul_mod_left ..),
    Nat.mul_div_cancel _ (by decide)]

end Duration

end PaintBench
