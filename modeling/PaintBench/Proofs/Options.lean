import PaintBench.Proofs.Duration
import PaintBench.Proofs.Json.Without
import PaintBench.Proofs.Result
import PaintBench.RunOptions

/-!
# Options with missing fields

Limits, options of a run and policies of a batch are read from their objects also when members are
missing: what is read is the value with the missing fields `reset`, that is, set back to what they
are in `standard`, and with its durations `cut` (`Limits.decode_without`,
`RunOptions.decode_withoutMembers`, `BatchOptions.decode_without`). The cut makes no difference
exactly if the durations that are there are whole (`RunOptions.reset_cut_iff`,
`BatchOptions.reset_cut_iff`).
-/

namespace PaintBench

open Json

/-! ## Limits -/

namespace Limits

/-- The limits with some fields as they are in the standard ones. -/
def reset (removed : List String) (l : Limits) : Limits where
  expectedClicks :=
    if "expected_clicks" ∈ removed then standard.expectedClicks else l.expectedClicks
  maxExpectedPaints :=
    if "max_expected_paints" ∈ removed then standard.maxExpectedPaints else l.maxExpectedPaints

theorem decode_without (l : Limits) (removed : List String) :
    decode (l.encode.without removed) = some (l.reset removed) := by
  refine bind_eq_some_of (Record.of?_without (by simp)) ?_
  refine bind_eq_some_of
    (Record.withDefault_without rfl (Decode.uint64_ofNat l.expectedClicks)) ?_
  refine bind_eq_some_of
    (Record.withDefault_without rfl (Decode.uint64_ofNat l.maxExpectedPaints)) ?_
  rfl

theorem plain_encode (depth : Nat) (l : Limits) : Plain (depth + 1) l.encode := by
  simp [encode]

end Limits

/-! ## Options of a run -/

namespace RunOptions

/-- An object of options without some of its members, and without some of those of the limits in
it. -/
def withoutMembers (removed limits : List String) (j : Json) : Json :=
  (j.mapMember "extraction" (without limits)).without removed

/-- The options with some fields as they are in the standard ones, and some of the limits. -/
def reset (removed limits : List String) (o : RunOptions) : RunOptions where
  repeatRun := if "repeat_run" ∈ removed then standard.repeatRun else o.repeatRun
  repeatRunMemory :=
    if "repeat_run_mem" ∈ removed then standard.repeatRunMemory else o.repeatRunMemory
  repeatRunStartup :=
    if "repeat_run_startup" ∈ removed then standard.repeatRunStartup else o.repeatRunStartup
  warmupCount := if "warmup_count" ∈ removed then standard.warmupCount else o.warmupCount
  port := if "port" ∈ removed then standard.port else o.port
  remoteDebuggingPort :=
    if "remote_debugging_port" ∈ removed then standard.remoteDebuggingPort
    else o.remoteDebuggingPort
  headless := if "headless" ∈ removed then standard.headless else o.headless
  chromeBinary := if "chrome_binary" ∈ removed then standard.chromeBinary else o.chromeBinary
  timeout := if "timeout" ∈ removed then standard.timeout else o.timeout
  shortTimeout := if "short_timeout" ∈ removed then standard.shortTimeout else o.shortTimeout
  pollInterval := if "poll_interval" ∈ removed then standard.pollInterval else o.pollInterval
  resetThrottle := if "reset_throttle" ∈ removed then standard.resetThrottle else o.resetThrottle
  writeResults := if "write_results" ∈ removed then standard.writeResults else o.writeResults
  resultsDirectory :=
    if "results_directory" ∈ removed then standard.resultsDirectory else o.resultsDirectory
  extraction :=
    if "extraction" ∈ removed then standard.extraction else o.extraction.reset limits

/-- What options are read back as. -/
def cut (o : RunOptions) : RunOptions :=
  { o with
    timeout := o.timeout.cut
    shortTimeout := o.shortTimeout.cut
    pollInterval := o.pollInterval.cut }

/-- The durations among the options, by the names of their fields. -/
def durations (o : RunOptions) : List (String × Duration) :=
  [("timeout", o.timeout), ("short_timeout", o.shortTimeout), ("poll_interval", o.pollInterval)]

theorem isWhole_durations_standard : ∀ d ∈ standard.durations, d.2.IsWhole := by
  simp [durations, standard, defaultTimeout, defaultShortTimeout, defaultPollInterval,
    Duration.isWhole_ofMilliseconds]

theorem reset_cut_iff (o : RunOptions) (removed limits : List String) :
    o.cut.reset removed limits = o.reset removed limits ↔
      ∀ d ∈ o.durations, d.1 ∉ removed → d.2.IsWhole := by
  simp [reset, cut, durations, Duration.ite_cut_eq_iff]

theorem cut_eq_self {o : RunOptions} (h : ∀ d ∈ o.durations, d.2.IsWhole) : o.cut = o :=
  (o.reset_cut_iff [] []).mpr fun d hd _ => h d hd

theorem decode_withoutMembers (o : RunOptions) (removed limits : List String) :
    decode (withoutMembers removed limits o.encode) = some (o.cut.reset removed limits) := by
  refine bind_eq_some_of (Record.of?_without (by simp)) ?_
  -- Names are compared by evaluation; the bounds of the numbers are too large for that.
  refine bind_eq_some_of (Record.withDefault_without rfl (Decode.uint32_ofNat o.repeatRun)) ?_
  refine bind_eq_some_of
    (Record.withDefault_without rfl (Decode.uint32_ofNat o.repeatRunMemory)) ?_
  refine bind_eq_some_of
    (Record.withDefault_without rfl (Decode.uint32_ofNat o.repeatRunStartup)) ?_
  refine bind_eq_some_of (Record.withDefault_without rfl (Decode.uint32_ofNat o.warmupCount)) ?_
  refine bind_eq_some_of (Record.withDefault_without rfl (Decode.uint16_ofNat o.port)) ?_
  refine bind_eq_some_of
    (Record.withDefault_without rfl (Decode.uint16_ofNat o.remoteDebuggingPort)) ?_
  refine bind_eq_some_of (Record.withDefault_without rfl rfl) ?_
  refine bind_eq_some_of (Record.optionalOrMissing_without rfl Decode.orNull_ofOption) ?_
  refine bind_eq_some_of (Record.withDefault_without rfl o.timeout.decode_encode) ?_
  refine bind_eq_some_of (Record.withDefault_without rfl o.shortTimeout.decode_encode) ?_
  refine bind_eq_some_of (Record.withDefault_without rfl o.pollInterval.decode_encode) ?_
  refine bind_eq_some_of (Record.withDefault_without rfl rfl) ?_
  refine bind_eq_some_of (Record.withDefault_without rfl rfl) ?_
  refine bind_eq_some_of (Record.withDefault_without rfl rfl) ?_
  refine bind_eq_some_of
    (Record.withDefault_without rfl (o.extraction.decode_without limits)) ?_
  rfl

theorem plain_encode (depth : Nat) (o : RunOptions) : Plain (depth + 2) o.encode := by
  simp [encode, Limits.plain_encode]

theorem decode_encode (o : RunOptions) : decode o.encode = some o.cut := by
  have hnothing : withoutMembers [] [] o.encode = o.encode := rfl
  rw [← hnothing, decode_withoutMembers]
  rfl

theorem plain_withoutMembers {depth : Nat} {j : Json} (h : Plain (depth + 1) j)
    (removed limits : List String) : Plain (depth + 1) (withoutMembers removed limits j) :=
  (h.mapMember _ fun _ hlimits => hlimits.without limits).without removed

end RunOptions

/-! ## Policies of a batch -/

namespace BatchOptions

/-- The policy with some fields as they are in the standard one. -/
def reset (removed : List String) (o : BatchOptions) : BatchOptions where
  maxAttempts := if "max_attempts" ∈ removed then standard.maxAttempts else o.maxAttempts
  exitOnError := if "exit_on_error" ∈ removed then standard.exitOnError else o.exitOnError
  forkWorker := if "fork_worker" ∈ removed then standard.forkWorker else o.forkWorker
  workerTimeout := if "worker_timeout" ∈ removed then standard.workerTimeout else o.workerTimeout
  flakySignatures :=
    if "flaky_signatures" ∈ removed then standard.flakySignatures else o.flakySignatures

/-- What a policy is read back as. -/
def cut (o : BatchOptions) : BatchOptions :=
  { o with workerTimeout := o.workerTimeout.cut }

theorem reset_cut_iff (o : BatchOptions) (removed : List String) :
    o.cut.reset removed = o.reset removed ↔
      ("worker_timeout" ∉ removed → o.workerTimeout.IsWhole) := by
  simp [reset, cut, Duration.ite_cut_eq_iff]

theorem decode_without (o : BatchOptions) (removed : List String) :
    decode (o.encode.without removed) = some (o.cut.reset removed) := by
  refine bind_eq_some_of (Record.of?_without (by simp)) ?_
  refine bind_eq_some_of (Record.withDefault_without rfl (Decode.uint32_ofNat o.maxAttempts)) ?_
  refine bind_eq_some_of (Record.withDefault_without rfl rfl) ?_
  refine bind_eq_some_of (Record.withDefault_without rfl rfl) ?_
  refine bind_eq_some_of
    (Record.withDefault_without rfl o.workerTimeout.decode_encode) ?_
  refine bind_eq_some_of
    (Record.withDefault_without rfl (Decode.list_ofStrings o.flakySignatures)) ?_
  rfl

theorem plain_encode (depth : Nat) (o : BatchOptions) : Plain (depth + 2) o.encode := by
  simp [encode]

end BatchOptions

end PaintBench
