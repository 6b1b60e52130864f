import PaintBench.CommandLine.Program
import PaintBench.Proofs.Worker.Transport

/-!
# Requests with missing options

The options of a request may lack members, as those of a sender that does not know all of them do.
The worker runs with the defaults in their place (`WorkerRequest.receive_lineWithout`). They are
the ones of a configuration where nothing is said. The fields that are there are kept, but for what
JSON does not keep of a duration (`missing_fields_are_standard`).
-/

namespace PaintBench

open Json

namespace WorkerRequest

/-- The line of a request whose options lack some members, and whose limits lack some. -/
def lineWithout (removed limits : List String) (q : WorkerRequest) : List Char :=
  (q.encode.mapMember "options" (RunOptions.withoutMembers removed limits)).write ++ ['\n']

/-- The request with some of its options as they are in the standard ones. -/
def reset (removed limits : List String) (q : WorkerRequest) : WorkerRequest :=
  { q with options := q.options.reset removed limits }

theorem receive_lineWithout (q : WorkerRequest) (removed limits : List String)
    (rest : List Char) :
    receive (q.lineWithout removed limits ++ rest) =
      (.request (q.cut.reset removed limits), rest) := by
  refine receive_write ?_ ?_ rest
  · exact (q.plain_encode 124).mapMember _ fun _ h =>
      RunOptions.plain_withoutMembers h removed limits
  · exact q.decode_mapMember_options (q.options.decode_withoutMembers removed limits)

end WorkerRequest

/-- Members that are missing from an object of options, of limits inside it, or of a policy make no
difference but for their own fields, which are as in the standard options, limits or policy. The
other fields are as they were, but durations are cut to whole milliseconds, and to as many of them
as 64 bits hold; this changes nothing exactly if the durations that are there are whole. A worker
answers a request with such options as it answers the request with those fields, and what is
standard is what a configuration has where nothing is said. -/
theorem missing_fields_are_standard (removed limits : List String) :
    (∀ o : RunOptions,
      RunOptions.decode (RunOptions.withoutMembers removed limits o.encode) =
        some (o.cut.reset removed limits) ∧
      (parse? (RunOptions.withoutMembers removed limits o.encode).compact).bind
        RunOptions.decode = some (o.cut.reset removed limits) ∧
      (o.cut.reset removed limits = o.reset removed limits ↔
        ∀ d ∈ o.durations, d.1 ∉ removed → d.2.IsWhole)) ∧
    (∀ o : BatchOptions,
      BatchOptions.decode (o.encode.without removed) = some (o.cut.reset removed) ∧
      (parse? (o.encode.without removed).compact).bind BatchOptions.decode =
        some (o.cut.reset removed) ∧
      (o.cut.reset removed = o.reset removed ↔
        ("worker_timeout" ∉ removed → o.workerTimeout.IsWhole))) ∧
    (∀ (q : WorkerRequest) (rest : List Char),
      WorkerRequest.receive (q.lineWithout removed limits ++ rest) =
        (.request (q.cut.reset removed limits), rest) ∧
      ∀ {σ : Type} (worker : Worker σ) (task : Nat),
        worker.serve task (q.lineWithout removed limits ++ rest) =
          .ofResponse <$> worker.dispatch task (q.cut.reset removed limits)) ∧
    ∃ c, Config.ofText "" = .ok c ∧ (∀ d, CommandLine.loadConfig d none = .ok c) ∧
      (∀ o : RunOptions, o.reset RunOptions.fields limits = c.run) ∧
      ∀ o : BatchOptions, o.reset BatchOptions.fields = c.batch := by
  refine ⟨fun o => ⟨o.decode_withoutMembers removed limits, ?_, o.reset_cut_iff removed limits⟩,
    fun o => ⟨o.decode_without removed, ?_, o.reset_cut_iff removed⟩, fun q rest => ?_,
    .standard, ?_⟩
  · have hplain := RunOptions.plain_withoutMembers (o.plain_encode 125) removed limits
    rw [parse?_compact hplain, Option.bind_some, o.decode_withoutMembers]
  · have hplain := (o.plain_encode 125).without removed
    rw [parse?_compact hplain, Option.bind_some, o.decode_without]
  · have hreceive := q.receive_lineWithout removed limits rest
    exact ⟨hreceive, fun worker task => worker.serve_of_receive task hreceive⟩
  · exact ⟨rfl, fun _ => rfl, fun _ => rfl, fun _ => rfl⟩

/-- Options with a limit of half a millisecond. -/
def briefOptions : RunOptions :=
  { RunOptions.standard with timeout := ⟨500000, by decide⟩ }

/-- Nothing is missing from their object, and still they are not read back. -/
theorem kept_durations_are_cut :
    RunOptions.decode (RunOptions.withoutMembers [] [] briefOptions.encode) ≠
      some (briefOptions.reset [] []) := by
  rw [RunOptions.decode_withoutMembers]
  intro h
  have hwhole := (briefOptions.reset_cut_iff [] []).mp (Option.some.inj h)
  obtain ⟨ms, -, hms⟩ := hwhole ("timeout", briefOptions.timeout) (by simp [RunOptions.durations])
    (by simp)
  have hnanoseconds : 500000 = ms * 1000000 := hms
  omega

end PaintBench
