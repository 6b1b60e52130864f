import PaintBench.Quantity

/-!
# Statistics

`percentile` interpolates linearly between the two samples nearest to a rank. Samples are
put in ascending order first (`ascending`), and samples that cannot be compared keep
their order.

A `Summary` describes a set of samples by a few numbers. `summarize` computes it from the
samples in ascending order. The means are forced into the range of the samples, which
rounding could make them leave; the range itself has to be ordered, and samples that are
not numbers break that (`Unordered`).
-/

namespace PaintBench.Stats

variable {α : Type} [Quantity α]

/-! ## Percentiles -/

/-- The samples in ascending order. -/
def ascending (samples : List α) : List α :=
  samples.mergeSort fun a b => !decide (b < a)

/-- The value at a rank between the first and the last sample, given in ascending
order. -/
def atRank (sorted : List α) (rank : α) : Option α :=
  let lower := Quantity.floor rank
  let whole : α := Quantity.ofNat lower
  if rank ≤ whole then sorted[lower]?
  else
    match sorted[lower]?, sorted[lower + 1]? with
    | some a, some b => some (a + (rank - whole) * (b - a))
    | _, _ => none

/-- The percentile `p` of the samples; there is none without samples, or for a `p`
outside the range from 0 to 100. -/
def percentile (samples : List α) (p : α) : Option α :=
  let hundred : α := Quantity.ofNat 100
  if samples.isEmpty ∨ ¬((Quantity.ofNat 0 : α) ≤ p ∧ p ≤ hundred) then none
  else
    match ascending samples with
    | [only] => some only
    | sorted => atRank sorted (p / hundred * Quantity.ofNat (sorted.length - 1))

/-- The 50th percentile. -/
def median (samples : List α) : Option α :=
  percentile samples (Quantity.ofNat 50)

/-! ## Summaries -/

/-- Statistics of a set of samples. -/
structure Summary (α : Type) where
  count : Nat
  min : α
  max : α
  mean : α
  median : α
  /-- zero when any sample is zero or negative -/
  geometricMean : α
  /-- the deviation of a sample, that is, over one less than the count -/
  stdDev : α
deriving Repr

/-- The least and the greatest sample are not in order, since one is not a number. -/
structure Unordered (α : Type) where
  min : α
  max : α
deriving Repr

/-- The sum of the squared distances from a point. -/
def squaredDeviations (center : α) (samples : List α) : α :=
  Quantity.sum (samples.map fun a => (a - center) * (a - center))

/-- The statistics of samples in ascending order, of which there is at least one. -/
def summarizeSorted (sorted : List α) (min max : α) : Except (Unordered α) (Summary α) :=
  if min ≤ max then
    let count : α := Quantity.ofNat sorted.length
    let mean := Quantity.clamp min max (Quantity.sum sorted / count)
    let stdDev :=
      if 1 < sorted.length then
        Quantity.sqrt (squaredDeviations mean sorted / Quantity.ofNat (sorted.length - 1))
      else Quantity.ofNat 0
    let geometricMean :=
      if Quantity.ofNat 0 < min then
        Quantity.clamp min max (Quantity.exp (Quantity.sum (sorted.map Quantity.log) / count))
      else Quantity.ofNat 0
    .ok {
      count := sorted.length, min, max, mean
      median := (Stats.median sorted).getD min
      geometricMean, stdDev }
  else .error ⟨min, max⟩

/-- The statistics of a set of samples; there are none without samples. -/
def summarize (samples : List α) : Except (Unordered α) (Option (Summary α)) :=
  let sorted := ascending samples
  match sorted.head?, sorted.getLast? with
  | some min, some max => (summarizeSorted sorted min max).map some
  | _, _ => .ok none

/-- The standard deviation in relation to the mean, infinite for a mean of zero. -/
def Summary.variation (s : Summary Float) : Float :=
  if s.mean == 0 then 1 / 0 else s.stdDev / s.mean

end PaintBench.Stats
