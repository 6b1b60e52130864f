import PaintBench.Catalog.Suite
import PaintBench.Text.Lower

/-!
# Catalogs

A `Catalog` is the ordered set of benchmarks that a worker or a batch knows. The usual
one is the standard suite with custom benchmarks: one with a known id takes the place of
the benchmark of that id, the others follow at the end.
-/

namespace PaintBench

/-- Benchmarks in their order. -/
structure Catalog where
  benchmarks : List Benchmark

namespace Catalog

/-- Put a benchmark in the place of the first one with its id, or at the end. -/
def put (b : Benchmark) : List Benchmark → List Benchmark
  | [] => [b]
  | c :: rest => if c.id = b.id then b :: rest else c :: put b rest

/-- The standard suite with custom benchmarks. -/
def withCustom (options : RunOptions) (custom : List TimedBenchmark) :
    Except RunError Catalog := do
  let standard ← Suite.standard options
  return ⟨custom.foldl (fun known b => put (.timed b) known) standard⟩

/-- The benchmark of an id. -/
def get (c : Catalog) (id : String) : Option Benchmark :=
  c.benchmarks.find? (·.id == id)

/-- Whether a filter accepts an id: the id contains it, apart from letter case. -/
def accepts (filter id : String) : Bool :=
  Text.occursIn (Text.lower filter.toList) (Text.lower id.toList)

/-- The benchmarks that one of the filters accepts; all when there is no filter. -/
def select (c : Catalog) (filters : List String) : List Benchmark :=
  c.benchmarks.filter fun b => filters.isEmpty || filters.any (accepts · b.id)

end Catalog

/-- The implementations whose full name contains one of the filters; all when there is no
filter. -/
def selectImplementations (all : List Implementation) (filters : List String) :
    List Implementation :=
  all.filter fun i =>
    filters.isEmpty || filters.any fun f => Text.occursIn f.toList i.fullName.toList

end PaintBench
