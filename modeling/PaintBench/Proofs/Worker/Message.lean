import PaintBench.Proofs.Json.Record
import PaintBench.Proofs.Json.RoundTrip
import PaintBench.Proofs.Options
import PaintBench.Proofs.Result
import PaintBench.Worker.Message

/-!
# Messages survive JSON

Requests and responses are read back from the JSON that they are written as
(`WorkerRequest.decode_encode`, `WorkerResponse.decode_encode`), but for what JSON does not keep
of the durations in a request (`WorkerRequest.cut`). That JSON survives as a text
(`WorkerRequest.plain_encode`, `WorkerResponse.plain_encode`).
-/

namespace PaintBench

open Json

/-! ## Requests -/

theorem Implementation.decode_encode (i : Implementation) : decode i.encode = some i := by
  refine bind_eq_some_of (Record.of?_obj (by simp)) ?_
  refine bind_eq_some_of (Record.required_of_find rfl rfl) ?_
  refine bind_eq_some_of (Record.required_of_find rfl rfl) ?_
  refine bind_eq_some_of (Record.required_of_find rfl rfl) ?_
  refine bind_eq_some_of (Record.optionalOrMissing_of_find rfl Decode.orNull_ofOption) ?_
  refine bind_eq_some_of (Record.withDefault_of_find rfl rfl) ?_
  refine bind_eq_some_of (Record.withDefault_of_find rfl rfl) ?_
  rfl

/-- A request is read whatever its options are written as, if they can be read. -/
theorem WorkerRequest.decode_mapMember_options (q : WorkerRequest) {f : Json → Json}
    {o : RunOptions} (h : RunOptions.decode (f q.options.encode) = some o) :
    decode (q.encode.mapMember "options" f) = some { q with options := o } := by
  refine bind_eq_some_of (Record.of?_obj (by simp)) ?_
  refine bind_eq_some_of
    (Record.required_of_find rfl (Implementation.decode_encode q.implementation)) ?_
  refine bind_eq_some_of (Record.required_of_find rfl rfl) ?_
  refine bind_eq_some_of (Record.required_of_find rfl h) ?_
  rfl

/-- What a request is read back as. -/
def WorkerRequest.cut (q : WorkerRequest) : WorkerRequest :=
  { q with options := q.options.cut }

theorem WorkerRequest.cut_eq_self {q : WorkerRequest}
    (h : ∀ d ∈ q.options.durations, d.2.IsWhole) : q.cut = q := by
  rw [cut, RunOptions.cut_eq_self h]

theorem WorkerRequest.decode_encode (q : WorkerRequest) : decode q.encode = some q.cut :=
  q.decode_mapMember_options (f := id) q.options.decode_encode

theorem Implementation.plain_encode (depth : Nat) (i : Implementation) :
    Plain (depth + 1) i.encode := by
  simp [encode]

theorem WorkerRequest.plain_encode (depth : Nat) (q : WorkerRequest) :
    Plain (depth + 3) q.encode := by
  simp [encode, Implementation.plain_encode, RunOptions.plain_encode]

/-! ## Responses -/

namespace WorkerResponse

theorem plain_encode (depth : Nat) (r : WorkerResponse) : Plain (depth + 2) r.encode := by
  cases r <;> simp [encode]

theorem decodeFailure_encode_failure (message : String) :
    decodeFailure (encode (failure message)) = some (failure message) := by
  refine bind_eq_some_of (Record.ofObject?_obj (by simp)) ?_
  refine bind_eq_some_of (Record.required_of_find rfl rfl) ?_
  rfl

theorem decodeFailure_encode_completed (error : Option String) (warnings : List String) :
    decodeFailure (encode (completed error warnings)) = none := by
  rw [decodeFailure, encode, Record.ofObject?_obj (by simp)]
  rfl

theorem decodeCompleted_encode (error : Option String) (warnings : List String) :
    decodeCompleted (encode (completed error warnings)) = some (completed error warnings) := by
  refine bind_eq_some_of (Record.ofObject?_obj (by simp)) ?_
  refine bind_eq_some_of (Record.optional_of_find rfl Decode.orNull_ofOption) ?_
  refine bind_eq_some_of (Record.required_of_find rfl (Decode.list_ofStrings warnings)) ?_
  rfl

/-- The two forms of a response are told apart by their fields. -/
theorem decode_encode (r : WorkerResponse) : decode r.encode = some r := by
  rw [decode, Decode.entire, if_pos (r.plain_encode 0).isReadable]
  cases r with
  | failure message => rw [decodeFailure_encode_failure, Option.some_or]
  | completed error warnings =>
    rw [decodeFailure_encode_completed, decodeCompleted_encode, Option.none_or]

end WorkerResponse

end PaintBench
