import Mathlib
import PaintBench.Proofs.Json.Extended
import PaintBench.Proofs.Trace.Numbers

/-!
# Records among other members

A record of the log means the same event when it is wrapped into another object (`ofJson?_wrapped`),
and when the record, its parameters or their arguments are given members that nobody asks for
(`ofJson?_of_recordWidened`). But a text is read as a whole: one that holds something that cannot be
read, wherever that is, stands for no event.
-/

namespace PaintBench.Trace

open Json (Extended Widened valuesOf lastMember)

/-! ## More members -/

/-- Arguments with more members, of names that no event asks for. -/
def ArgsWidened : Json → Json → Prop :=
  Widened ["data", "usedHeapSizeAfter"] fun _ j j' => j' = j

/-- Parameters with more members, also in their arguments. -/
def ParamsWidened : Json → Json → Prop :=
  Widened ["name", "ts", "dur", "args"] fun name j j' => j' = j ∨ name = "args" ∧ ArgsWidened j j'

/-- A record with more members, also in its parameters. -/
def RecordWidened : Json → Json → Prop :=
  Widened ["method", "params", "message"] fun name j j' =>
    j' = j ∨ name = "params" ∧ ParamsWidened j j'

theorem ArgsWidened.isReadable {j j' : Json} (h : ArgsWidened j j') (hreadable : j'.isReadable) :
    j.isReadable :=
  Widened.isReadable h (fun _ _ _ hsame hj => hsame ▸ hj) hreadable

theorem ParamsWidened.isReadable {j j' : Json} (h : ParamsWidened j j')
    (hreadable : j'.isReadable) : j.isReadable :=
  Widened.isReadable h (fun _ _ _ hchanged hj =>
    hchanged.elim (fun hsame => hsame ▸ hj) fun hargs => hargs.2.isReadable hj) hreadable

theorem RecordWidened.isReadable {j j' : Json} (h : RecordWidened j j')
    (hreadable : j'.isReadable) : j.isReadable :=
  Widened.isReadable h (fun _ _ _ hchanged hj =>
    hchanged.elim (fun hsame => hsame ▸ hj) fun hparams => hparams.2.isReadable hj) hreadable

/-! ## Arguments -/

/-- Arguments of which an event sees the same. -/
def SameArgs (args args' : Json) : Prop :=
  args'.get? "data" = args.get? "data" ∧
    args'.get? "usedHeapSizeAfter" = args.get? "usedHeapSizeAfter"

theorem TraceRecord.event?_congr {t : TraceRecord} {args : Json} (h : SameArgs t.args args)
    (ts : Float) : TraceRecord.event? { t with args } ts = t.event? ts := by
  obtain ⟨hdata, hheap⟩ := h
  simp only [TraceRecord.event?, Json.at?, hdata, hheap]
  rfl

theorem sameArgs_of_argsWidened {args args' : Json} (h : ArgsWidened args args') :
    SameArgs args.lastWins args'.lastWins := by
  cases h with
  | same => exact ⟨rfl, rfl⟩
  | @obj members members' hmembers =>
    have hlast {name : String} (hname : name ∈ ["data", "usedHeapSizeAfter"]) :
        (Json.obj members').lastWins.get? name = (Json.obj members).lastWins.get? name := by
      rw [Json.get?_lastWins, Json.get?_lastWins, Json.lastMember_eq, Json.lastMember_eq,
        hmembers.valuesOf_eq hname fun _ _ hsame => hsame]
    exact ⟨hlast (by simp), hlast (by simp)⟩

/-! ## Parameters -/

/-- Trace records differ in their arguments at most, if the other fields hold the same. -/
theorem TraceRecord.decode_congr {members members' : List (String × Json)}
    (hdistinct : ∀ name, (valuesOf name members).length ≤ 1)
    (hdistinct' : ∀ name, (valuesOf name members').length ≤ 1)
    (hsame : ∀ name ∈ ["name", "ts", "dur"], valuesOf name members' = valuesOf name members) :
    TraceRecord.decode (.obj members') = (TraceRecord.decode (.obj members)).map fun t =>
      { t with args := (valuesOf "args" members').head?.getD .null } := by
  have hrecord : Json.Record.of? ["name", "ts", "dur", "args"] (.obj members) =
      some ⟨members, false⟩ :=
    Json.Record.ofObject?_eq_some_iff.mpr ⟨members, rfl, rfl, fun name _ => hdistinct name⟩
  have hrecord' : Json.Record.of? ["name", "ts", "dur", "args"] (.obj members') =
      some ⟨members', false⟩ :=
    Json.Record.ofObject?_eq_some_iff.mpr ⟨members', rfl, rfl, fun name _ => hdistinct' name⟩
  simp only [TraceRecord.decode, hrecord, hrecord', Option.bind_eq_bind, Option.bind_some,
    Json.Record.required_congr (hsame "name" (by simp)),
    Json.Record.optional_congr (hsame "ts" (by simp)),
    Json.Record.withDefault_congr (hsame "dur" (by simp)), Json.Record.withDefault_some,
    Option.map_bind, Function.comp_def, Option.map_some]

theorem Message.event?_congr {method : String} {params params' : Json}
    (h : ParamsWidened params params') :
    Message.event? ⟨method, params'.lastWins⟩ = Message.event? ⟨method, params.lastWins⟩ := by
  cases h with
  | same => rfl
  | @obj members members' hmembers =>
    have hdistinct (members : List (String × Json)) (name : String) :
        (valuesOf name (Json.dropShadowed (Json.lastWinsMembers members))).length ≤ 1 := by
      rw [Json.valuesOf_lastWins]
      cases lastMember name members <;> simp
    have hsame : ∀ name ∈ ["name", "ts", "dur"],
        valuesOf name (Json.dropShadowed (Json.lastWinsMembers members')) =
          valuesOf name (Json.dropShadowed (Json.lastWinsMembers members)) := by
      intro name hname
      have hother : name ≠ "args" := by
        rintro rfl
        simp at hname
      have hknown : name ∈ ["name", "ts", "dur", "args"] := by
        simp only [List.mem_cons] at hname ⊢
        tauto
      rw [Json.valuesOf_lastWins, Json.valuesOf_lastWins, Json.lastMember_eq, Json.lastMember_eq,
        hmembers.valuesOf_eq hknown fun _ _ hchanged => hchanged.resolve_right (hother ·.1)]
    have hargs : SameArgs
        ((valuesOf "args" (Json.dropShadowed (Json.lastWinsMembers members))).head?.getD .null)
        ((valuesOf "args" (Json.dropShadowed (Json.lastWinsMembers members'))).head?.getD
          .null) := by
      rw [Json.valuesOf_lastWins, Json.valuesOf_lastWins]
      have hlast := hmembers.rel_lastMember (show "args" ∈ _ by simp)
      generalize lastMember "args" members = last at hlast
      generalize lastMember "args" members' = last' at hlast
      cases hlast with
      | none => exact ⟨rfl, rfl⟩
      | some hchanged =>
        rcases hchanged with rfl | ⟨-, hwidened⟩
        · exact ⟨rfl, rfl⟩
        · exact sameArgs_of_argsWidened hwidened
    have hdecode := TraceRecord.decode_congr (hdistinct members) (hdistinct members) fun _ _ => rfl
    have hdecode' := TraceRecord.decode_congr (hdistinct members) (hdistinct members') hsame
    simp only [Message.event?, Json.lastWins, Option.bind_eq_bind]
    rw [hdecode']
    cases hrecord :
        TraceRecord.decode (.obj (Json.dropShadowed (Json.lastWinsMembers members))) with
    | none => rfl
    | some t =>
      -- the arguments of the smaller record are the ones that stand in it
      rw [hrecord, Option.map_some, Option.some_inj] at hdecode
      have htargs := congrArg TraceRecord.args hdecode
      dsimp only at htargs
      rw [← htargs] at hargs
      simp only [Option.map_some, Option.bind_some, TraceRecord.event?_congr hargs]

/-! ## Records -/

/-- A record that is wrapped by nothing: it names one method. -/
structure IsPlainRecord (members : List (String × Json)) : Prop where
  method : ∃ method, valuesOf "method" members = [.str method]
  params : (valuesOf "params" members).length ≤ 1
  message : valuesOf "message" members = []

theorem Message.decodeWrapped_obj (members : List (String × Json)) :
    Message.decodeWrapped (.obj members) =
      if (valuesOf "message" members).length ≤ 1 then
        (valuesOf "message" members).head?.bind Message.decode
      else none := by
  simp only [Message.decodeWrapped, Json.Record.ofObject?_eq_ite, List.forall_mem_singleton,
    Json.Record.required_eq, Option.bind_eq_bind]
  split <;> rfl

theorem Message.decode_obj (members : List (String × Json)) :
    Message.decode (.obj members) =
      if (valuesOf "method" members).length ≤ 1 ∧ (valuesOf "params" members).length ≤ 1 then
        ((valuesOf "method" members).head?.bind Json.Decode.text).map fun method =>
          ⟨method, ((valuesOf "params" members).head?.getD .null).lastWins⟩
      else none := by
  have hrecord : Json.Record.of? ["method", "params"] (.obj members) = _ :=
    Json.Record.ofObject?_eq_ite ["method", "params"] members
  have hdistinct : (∀ name ∈ ["method", "params"], (valuesOf name members).length ≤ 1) ↔
      (valuesOf "method" members).length ≤ 1 ∧ (valuesOf "params" members).length ≤ 1 := by
    simp
  simp only [Message.decode, hrecord, hdistinct, Json.Record.required_eq,
    Json.Record.withDefault_some, Option.bind_eq_bind, Option.bind_some]
  split
  · exact Option.map_eq_bind.symm
  · rfl

/-- A record means the same when it is wrapped. -/
theorem ofJson?_wrapped {members wrapping : List (String × Json)} (h : IsPlainRecord members)
    (hwrapped : valuesOf "message" wrapping = [.obj members]) :
    ofJson? (.obj wrapping) = ofJson? (.obj members) := by
  obtain ⟨method, hmethod⟩ := h.method
  have hplain : Message.decodeWrapped (.obj members) = none := by
    rw [Message.decodeWrapped_obj, h.message]
    rfl
  have hwrapped : Message.decodeWrapped (.obj wrapping) = Message.decode (.obj members) := by
    rw [Message.decodeWrapped_obj, hwrapped]
    rfl
  have hdecode : Message.decode (.obj members) =
      some ⟨method, ((valuesOf "params" members).head?.getD .null).lastWins⟩ := by
    rw [Message.decode_obj, if_pos ⟨by simp [hmethod], h.params⟩, hmethod]
    rfl
  rw [ofJson?, ofJson?, hplain, hwrapped, hdecode]
  rfl

/-- A record means the same with more members. -/
theorem ofJson?_of_recordWidened {j j' : Json} (h : RecordWidened j j') :
    ofJson? j' = ofJson? j := by
  cases h with
  | same => rfl
  | @obj members members' hmembers =>
    have hmethod : valuesOf "method" members' = valuesOf "method" members :=
      hmembers.valuesOf_eq (by simp) fun _ _ hchanged =>
        hchanged.resolve_right fun hparams => by simp at hparams
    have hmessage : valuesOf "message" members' = valuesOf "message" members :=
      hmembers.valuesOf_eq (by simp) fun _ _ hchanged =>
        hchanged.resolve_right fun hparams => by simp at hparams
    have hparams := hmembers.forall₂_valuesOf (show "params" ∈ _ by simp)
    have hevent : (Message.decode (.obj members')).bind Message.event? =
        (Message.decode (.obj members)).bind Message.event? := by
      rw [Message.decode_obj, Message.decode_obj, hmethod, ← hparams.length_eq]
      split
      · simp only [Option.bind_map, Function.comp_def]
        refine congrArg _ (funext fun method => ?_)
        generalize valuesOf "params" members = values at hparams
        generalize valuesOf "params" members' = values' at hparams
        cases hparams with
        | nil => rfl
        | cons hchanged _ =>
          rcases hchanged with rfl | ⟨-, hwidened⟩
          · rfl
          · exact Message.event?_congr hwidened
      · rfl
    rw [ofJson?, ofJson?, Message.decodeWrapped_obj, Message.decodeWrapped_obj, hmessage, hevent]

/-! ## Texts -/

theorem classify_of_parse? {text : String} {j : Json} (h : Json.parse? text = some j) :
    classify text = if j.isReadable then ofJson? j else none := by
  rw [classify, h]
  rfl

/-- Texts that hold the same record stand for the same event, if all of the larger one can be
read. -/
theorem classify_of_ofJson?_eq {text text' : String} {j j' : Json} (h : Json.parse? text = some j)
    (h' : Json.parse? text' = some j') (hreadable : j'.isReadable → j.isReadable)
    (hsame : ofJson? j' = ofJson? j) :
    classify text' = if j'.isReadable then classify text else none := by
  rw [classify_of_parse? h, classify_of_parse? h', hsame]
  split
  · next hj => rw [if_pos (hreadable hj)]
  · rfl

/-- A record means the same wrapped and bare, whatever else the object that wraps it holds, and it
means the same with more members in it, in its parameters or in their arguments; but what cannot be
read, wherever it stands, makes the whole text mean nothing. Events happen at finite times. -/
theorem records_mean_the_same :
    (∀ bare wrapped members wrapping, Json.parse? bare = some (.obj members) →
      Json.parse? wrapped = some (.obj wrapping) → IsPlainRecord members →
      valuesOf "message" wrapping = [.obj members] →
      classify wrapped = if (Json.obj wrapping).isReadable then classify bare else none) ∧
    (∀ text text' j j', Json.parse? text = some j → Json.parse? text' = some j' →
      RecordWidened j j' → classify text' = if j'.isReadable then classify text else none) ∧
    ∀ text e, classify text = some e → e.ts.isFinite = true := by
  refine ⟨fun bare wrapped members wrapping hbare hwrapped hplain hmessage => ?_,
    fun text text' j j' htext htext' hwidened => ?_, fun text e he => ?_⟩
  · exact classify_of_ofJson?_eq hbare hwrapped
      (fun hreadable =>
        Json.isReadable_of_mem_valuesOf hreadable (hmessage ▸ List.mem_singleton_self _))
      (ofJson?_wrapped hplain hmessage)
  · exact classify_of_ofJson?_eq htext htext' hwidened.isReadable
      (ofJson?_of_recordWidened hwidened)
  · exact ts_isFinite (measurable_of_classify he).times

/-- The record of a paint. -/
def paintText : String :=
  "\x7b\"method\":\"Tracing.dataCollected\"," ++
    "\"params\":\x7b\"name\":\"Paint\",\"ts\":5,\"dur\":1,\"args\":\x7b\x7d\x7d\x7d"

/-- The parameters of a paint that has arguments. -/
def paintParams (arguments : List (String × Json)) : Json :=
  .obj [("name", .str "Paint"), ("ts", .num (.whole 5)), ("dur", .num (.whole 1)),
    ("args", .obj arguments)]

/-- The members of a record of that paint, which may have some more. -/
def paintMembers (arguments more : List (String × Json)) : List (String × Json) :=
  ("method", .str "Tracing.dataCollected") :: ("params", paintParams arguments) :: more

theorem isPlainRecord_paintMembers : IsPlainRecord (paintMembers [] []) :=
  ⟨⟨_, rfl⟩, by decide, rfl⟩

theorem parse?_paintText : Json.parse? paintText = some (.obj (paintMembers [] [])) := by
  cbv

/-- A paint that is wrapped next to another method, and one with a member more in the record and
two more in its arguments. -/
theorem paints_mean_the_same :
    classify ("\x7b\"method\":\"Page.x\",\"message\":" ++ paintText ++ ",\"params\":7\x7d") =
        classify paintText ∧
      classify ("\x7b\"method\":\"Tracing.dataCollected\",\"params\":\x7b\"name\":\"Paint\"," ++
        "\"ts\":5,\"dur\":1,\"args\":\x7b\"a\":0,\"a\":1\x7d\x7d,\"id\":1\x7d") =
        classify paintText ∧
      (5 : Float).isFinite = true := by
  obtain ⟨hwrapped, hwidened, htimes⟩ := records_mean_the_same
  refine ⟨?_, ?_, ?_⟩
  · refine (hwrapped paintText _ (paintMembers [] []) [("method", .str "Page.x"),
      ("message", .obj (paintMembers [] [])), ("params", .num (.whole 7))] parse?_paintText
      (by cbv) isPlainRecord_paintMembers rfl).trans (if_pos (by decide))
  · refine (hwidened paintText _ _ (.obj (paintMembers
      [("a", .num (.whole 0)), ("a", .num (.whole 1))] [("id", .num (.whole 1))])) parse?_paintText
      (by cbv) ?_).trans (if_pos (by decide))
    have hargs : ArgsWidened (.obj []) (.obj [("a", .num (.whole 0)), ("a", .num (.whole 1))]) :=
      .obj (.add _ (by decide) (.add _ (by decide) .nil))
    have hparams : ParamsWidened (paintParams [])
        (paintParams [("a", .num (.whole 0)), ("a", .num (.whole 1))]) :=
      .obj (.keep (.inl rfl) (.keep (.inl rfl) (.keep (.inl rfl) (.keep (.inr ⟨rfl, hargs⟩) .nil))))
    exact .obj (.keep (.inl rfl) (.keep (.inr ⟨rfl, hparams⟩) (.add _ (by decide) .nil)))
  · exact htimes paintText (.paint 5 1) (by decide +kernel)

/-- A lone surrogate next to a record makes the text mean nothing. -/
theorem wrapped_paint_is_lost :
    ∃ members wrapping, Json.parse? paintText = some (.obj members) ∧
      Json.parse? ("\x7b\"message\":" ++ paintText ++ ",\"webview\":\"\\ud800\"\x7d") =
        some (.obj wrapping) ∧
      IsPlainRecord members ∧ valuesOf "message" wrapping = [.obj members] ∧
      classify paintText = some (.paint 5 1) ∧
      classify ("\x7b\"message\":" ++ paintText ++ ",\"webview\":\"\\ud800\"\x7d") = none :=
  ⟨paintMembers [] [], [("message", .obj (paintMembers [] [])), ("webview", .unreadable)],
    parse?_paintText, by cbv, isPlainRecord_paintMembers, rfl, by decide +kernel,
    by decide +kernel⟩

end PaintBench.Trace
