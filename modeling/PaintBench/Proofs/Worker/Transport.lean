import PaintBench.Proofs.Text.Lines
import PaintBench.Proofs.Text.Utf8
import PaintBench.Proofs.Worker.Message
import PaintBench.Proofs.Worker.Requests
import PaintBench.Worker.Transport

/-!
# Workers in processes of their own answer like workers inside

A request is sent as one line and a response comes back as one line, so neither gets mixed
up with what a process reads or writes besides (`WorkerRequest.receive_line`,
`WorkerResponse.ofOutput?_line`). A worker that answers the request on its input answers it as
one inside the program does (`Worker.serve_of_receive`), and the number of its task shows only
if it is brought down (`Worker.dispatch_other_task`). It follows that a batch gets the same
response whether the worker runs in a process of its own or inside the program, whatever the
worker talks to, as long as that process ends in time (`messages_survive_transport`).
-/

namespace PaintBench

open Text

/-! ## Requests -/

namespace WorkerRequest

theorem newline_not_mem_write_encode (q : WorkerRequest) : '\n' ∉ q.encode.write :=
  (q.plain_encode 0).printable_write.newline_not_mem

/-- A worker takes the line of a request off its input, whichever object the request is read
from, and nothing behind the line. -/
theorem receive_write {q : WorkerRequest} {members : List (String × Json)}
    (hplain : Json.Plain Json.depthLimit (.obj members)) (hdecode : decode (.obj members) = some q)
    (rest : List Char) :
    receive ((Json.obj members).write ++ ['\n'] ++ rest) = (.request q, rest) := by
  have hparse : (Json.parseChars? (Json.obj members).write).bind decode = some q := by
    rw [Json.parseChars?_write hplain, Option.bind_some, hdecode]
  have hnewline : '\n' ∉ (Json.obj members).write := hplain.printable_write.newline_not_mem
  obtain ⟨t, ht⟩ : ∃ t, (Json.obj members).write = '\x7b' :: t ++ ['\x7d'] :=
    Json.exists_write_obj_eq _
  have htrim : trim ((Json.obj members).write ++ ['\n']) = (Json.obj members).write := by
    rw [ht]
    exact trim_append_newline t (by decide) (by decide)
  have hempty : (Json.obj members).write.isEmpty = false := by
    rw [ht]
    rfl
  rw [receive, List.append_assoc, List.cons_append, List.nil_append,
    takeLine_append_newline hnewline]
  simp only [htrim, hempty, hparse, Bool.false_eq_true, if_false]

/-- A worker takes the line of a request off its input, and nothing behind it. -/
theorem receive_line (q : WorkerRequest) (rest : List Char) :
    receive (q.line ++ rest) = (.request q.cut, rest) :=
  receive_write (q.plain_encode 124) q.decode_encode rest

end WorkerRequest

/-! ## Responses -/

namespace WorkerResponse

theorem parseChars?_write_encode (r : WorkerResponse) :
    (Json.parseChars? r.encode.write).bind decode = some r := by
  rw [Json.parseChars?_write (r.plain_encode 125), Option.bind_some, decode_encode]

theorem exists_write_encode_eq (r : WorkerResponse) :
    ∃ t, r.encode.write = '\x7b' :: t ++ ['\x7d'] := by
  cases r <;> exact Json.exists_write_obj_eq _

/-- Blank lines behind a line do not hide it, nor do whole lines before it. -/
theorem lastLine?_append {noise w trailing : List Char} (hnoise : WholeLines noise)
    (hnewline : '\n' ∉ w) (hreturn : w.getLast? ≠ some '\r') (hw : isBlankText w = false)
    (htrailing : isBlankText trailing) :
    lastLine? (noise ++ (w ++ '\n' :: trailing)) = some w := by
  have hlines : lines (noise ++ (w ++ '\n' :: trailing)) =
      lines noise ++ ([w] ++ lines trailing) := by
    rw [hnoise.lines_append, lines_append_newline, lines_of_newline_not_mem hnewline,
      chompReturn_of_getLast? hreturn]
  have hblank : (lines trailing).reverse.find? (!isBlankText ·) = none := by
    rw [List.find?_eq_none]
    intro l hl
    simp [isBlankText_of_mem_lines htrailing (List.mem_reverse.mp hl)]
  rw [lastLine?, hlines]
  simp [hblank, hw]

theorem ofOutput?_line (r : WorkerResponse) {noise trailing : List Char}
    (hnoise : WholeLines noise) (htrailing : isBlankText trailing) :
    ofOutput? (noise ++ r.line ++ trailing) = some (some r) := by
  obtain ⟨t, ht⟩ := r.exists_write_encode_eq
  have hlast : lastLine? (noise ++ r.line ++ trailing) = some r.encode.write := by
    rw [line, List.append_assoc, List.append_assoc]
    refine lastLine?_append hnoise (r.plain_encode 0).printable_write.newline_not_mem ?_ ?_
      htrailing
    · rw [ht, List.getLast?_concat]
      decide
    · rw [ht, isBlankText, List.cons_append, List.all_cons]
      rfl
  rw [ofOutput?, hlast, Option.map_some, r.parseChars?_write_encode]

end WorkerResponse

/-! ## Processes -/

/-- The process ended in time, and what it wrote is the given output with whole lines
before it and blank lines behind it. -/
def FinishesWith (output : List Char) (outcome : ChildOutcome) : Prop :=
  ∃ status errors noise trailing, WholeLines noise ∧ isBlankText trailing ∧
    outcome = .finished status (Utf8.encode (noise ++ output ++ trailing)) errors

variable {σ τ : Type}

theorem WorkerProcess.dispatch_of_finishesWith (host : Host σ) (program : String)
    (args : List String) (limit : Duration) (q : WorkerRequest) (s : σ) {r : WorkerResponse}
    (h : FinishesWith r.line (host.start (command program args q) limit s).1.outcome) :
    (dispatch host program args limit q s).1 = r := by
  obtain ⟨status, errors, noise, trailing, hnoise, htrailing, houtcome⟩ := h
  show response program limit (host.start (command program args q) limit s).1.outcome = r
  rw [houtcome, response, Utf8.decodeLossy_encode, r.ofOutput?_line hnoise htrailing]

namespace Worker

variable (w : Worker τ) (task : Nat)

/-- A request on the input is answered as one inside the program is. -/
theorem serve_of_receive {q : WorkerRequest} {input rest : List Char}
    (h : WorkerRequest.receive input = (.request q, rest)) :
    w.serve task input = Ending.ofResponse <$> w.dispatch task q := by
  rw [serve, h]
  rfl

theorem fst_serve_of_receive {q : WorkerRequest} {input rest : List Char}
    (h : WorkerRequest.receive input = (.request q, rest)) (found : Surroundings τ) :
    (w.serve task input found).1 = .ofResponse (w.dispatch task q found).1 := by
  rw [w.serve_of_receive task h]
  rfl

theorem Ending.exists_of_output?_ofResponse {r : Option WorkerResponse} {code : Nat}
    {output : List Char} (h : (ofResponse r).output? = some (code, output)) :
    ∃ response, r = some response ∧ output = response.line := by
  cases r with
  | none => cases h
  | some response =>
    cases h
    exact ⟨response, rfl, rfl⟩

theorem dispatch_fst (q : WorkerRequest) (found : Surroundings τ) :
    (w.dispatch task q found).1 = response? task ((execute w.custom q).outcome
      ⟨w.world, none, w.patience⟩ (.start found.outside found.disk)).1 :=
  rfl

/-- A response is the one of every other task too, but for the number of the task if the worker
was brought down. -/
theorem dispatch_other_task {q : WorkerRequest} {found : Surroundings τ} {r : WorkerResponse}
    (h : (w.dispatch task q found).1 = some r) (other : Nat) :
    (w.dispatch other q found).1 = some r ∨
      ∃ text, r = crashed task text ∧ (w.dispatch other q found).1 = some (crashed other text) := by
  rw [dispatch_fst] at h ⊢
  rcases hresult : ((execute w.custom q).outcome ⟨w.world, none, w.patience⟩
    (.start found.outside found.disk)).1 with (_ | _ | text) | response <;> rw [hresult] at h
  · cases h
  · cases h
  · exact .inr ⟨text, (Option.some.inj h).symm, rfl⟩
  · exact .inl h

end Worker

/-- A process that answers the request on its input in time gives the response that a worker inside
the program gives. -/
theorem WorkerProcess.dispatch_of_serve (host : Host σ) (program : String) (args : List String)
    (limit : Duration) {q : WorkerRequest} (hwhole : ∀ d ∈ q.options.durations, d.2.IsWhole)
    (s : σ) {w : Worker τ} {task : Nat} {found : Surroundings τ} {code : Nat} {output : List Char}
    (hends : (w.serve task (command program args q).input found).1.output? = some (code, output))
    (hfinishes : FinishesWith output (host.start (command program args q) limit s).1.outcome) :
    (w.dispatch task q found).1 = some (dispatch host program args limit q s).1 := by
  have hreceive : WorkerRequest.receive (command program args q).input = (.request q, []) := by
    have hline := q.receive_line []
    rwa [List.append_nil, WorkerRequest.cut_eq_self hwhole] at hline
  rw [w.fst_serve_of_receive task hreceive] at hends
  obtain ⟨response, hresponse, rfl⟩ := Worker.Ending.exists_of_output?_ofResponse hends
  rw [dispatch_of_finishesWith host program args limit q s hfinishes]
  exact hresponse

/-- Requests and responses of any content arrive as they were sent: the request is one
line of the input of a process, of which nothing but that line is read, and if its durations are
whole it is the request that was sent; the response is found among the other output. So a process
that answers the request on its input in time makes no difference to answering the request inside
the program. This is so for every worker, whatever its sessions and audits are, and for every
task that it runs in; another task gives another response only if the worker is brought down, and
then nothing but its number differs. -/
theorem messages_survive_transport :
    (∀ (program : String) (args : List String) (q : WorkerRequest) (further : List Char),
      (∃ w, (WorkerProcess.command program args q).input = w ++ ['\n'] ∧ '\n' ∉ w) ∧
      ((∀ d ∈ q.options.durations, d.2.IsWhole) →
        WorkerRequest.receive ((WorkerProcess.command program args q).input ++ further) =
          (.request q, further))) ∧
    (∀ (r : WorkerResponse) (noise trailing : List Char),
      WholeLines noise → isBlankText trailing →
      WorkerResponse.ofOutput? (Utf8.decodeLossy (Utf8.encode (noise ++ r.line ++ trailing))) =
        some (some r)) ∧
    ∀ {σ τ : Type} (host : Host σ) (program : String) (args : List String) (limit : Duration)
      (q : WorkerRequest), (∀ d ∈ q.options.durations, d.2.IsWhole) →
      ∀ (s : σ) (worker : Worker τ) (task : Nat) (found : Surroundings τ) (code : Nat)
        (output : List Char),
      (worker.serve task (WorkerProcess.command program args q).input found).1.output? =
        some (code, output) →
      FinishesWith output
        (host.start (WorkerProcess.command program args q) limit s).1.outcome →
      let response := (WorkerProcess.dispatch host program args limit q s).1
      (worker.dispatch task q found).1 = some response ∧
      ∀ other, (worker.dispatch other q found).1 = some response ∨
        ∃ text, response = Worker.crashed task text ∧
          (worker.dispatch other q found).1 = some (Worker.crashed other text) := by
  refine ⟨fun program args q further => ⟨?_, fun hwhole => ?_⟩,
    fun r noise trailing hnoise htrailing => ?_, ?_⟩
  · exact ⟨q.encode.write, rfl, q.newline_not_mem_write_encode⟩
  · have hline := q.receive_line further
    rwa [WorkerRequest.cut_eq_self hwhole] at hline
  · rw [Utf8.decodeLossy_encode, r.ofOutput?_line hnoise htrailing]
  · intro σ τ host program args limit q hwhole s worker task found code output hends hfinishes
    have hsame := WorkerProcess.dispatch_of_serve host program args limit hwhole s hends hfinishes
    exact ⟨hsame, worker.dispatch_other_task task hsame⟩

/-! ### An example -/

/-- A worker whose sessions answer, but show no garbage collection. -/
def silentWorker : Worker Bool :=
  ⟨.steady [] (.ok ()), [Worker.idleHeap], 1⟩

/-- A request with a line break, a quote and an accent in it. -/
def oddRequest : WorkerRequest :=
  ⟨.plain "a\nb" "c\"\\é" true none, "idle-heap", .standard⟩

/-- A host whose processes log a line, answer the request on their input in a task of their own,
and end their output with blank lines. -/
def talkativeHost (worker : Worker τ) (task : Nat) (found : Surroundings τ) : Host σ where
  start c _ s :=
    let output := ((worker.serve task c.input found).1.output?.map Prod.snd).getD []
    (⟨.finished (.code 0)
      (Utf8.encode ("worker started\n".toList ++ output ++ " \n\n".toList)) [], 1⟩, s)

theorem finishesWith_talkativeHost {worker : Worker τ} {task : Nat} {found : Surroundings τ}
    {c : Command} {code : Nat} {output : List Char}
    (h : (worker.serve task c.input found).1.output? = some (code, output)) (limit : Duration)
    (s : σ) :
    FinishesWith output ((talkativeHost worker task found).start c limit s).1.outcome := by
  refine ⟨.code 0, [], "worker started\n".toList, " \n\n".toList, .of_getLast? rfl, by decide, ?_⟩
  simp only [talkativeHost, h]
  rfl

theorem exists_completed_silentWorker (task : Nat) :
    ∃ error warnings, (silentWorker.dispatch task oddRequest ⟨true, .empty []⟩).1 =
      some (.completed error warnings) := by
  have htarget : Worker.target [Worker.idleHeap] oddRequest = some (.timed Worker.idleHeap) := rfl
  obtain ⟨result, hresult⟩ : ∃ result,
      (Worker.runBenchmark oddRequest.implementation (.timed Worker.idleHeap) oddRequest.options
        ⟨.steady [] (.ok ()), none, 1⟩ (.start true (.empty []))).1 = .ok result :=
    exists_of_isOk (by decide +kernel)
  obtain ⟨error, warnings, hcompleted⟩ := Worker.exists_completed_of_respond result
  refine ⟨error, warnings, ?_⟩
  rw [Worker.dispatch_fst, silentWorker, Worker.outcome_of_target htarget, hresult, ← hcompleted]
  rfl

/-- A response is found among other output. The worker of the host opens a session and completes the
request, so the response is the same in every task. -/
theorem messages_survive_talkative_host :
    WorkerResponse.ofOutput? (Utf8.decodeLossy (Utf8.encode
        ("ready\n".toList ++ (WorkerResponse.failure "é\n").line ++ " \n".toList))) =
      some (some (.failure "é\n")) ∧
    (∀ d ∈ oddRequest.options.durations, d.2.IsWhole) ∧
    let found : Surroundings Bool := ⟨true, .empty []⟩
    let host : Host Unit := talkativeHost silentWorker 9 found
    let command := WorkerProcess.command "bench-runner" ["worker"] oddRequest
    let limit := Duration.ofMilliseconds 1000
    (∃ code output,
      (silentWorker.serve 9 command.input found).1.output? = some (code, output) ∧
      FinishesWith output (host.start command limit ()).1.outcome) ∧
    ∃ error warnings, ∀ other,
      (WorkerProcess.dispatch host "bench-runner" ["worker"] limit oddRequest ()).1 =
        .completed error warnings ∧
      (silentWorker.dispatch other oddRequest found).1 = some (.completed error warnings) := by
  have hwhole : ∀ d ∈ oddRequest.options.durations, d.2.IsWhole :=
    RunOptions.isWhole_durations_standard
  refine ⟨messages_survive_transport.2.1 _ _ _ (.of_getLast? rfl) (by decide), hwhole, ?_⟩
  intro found host command limit
  obtain ⟨error, warnings, hcompleted⟩ := exists_completed_silentWorker 9
  have hreceive : WorkerRequest.receive command.input = (.request oddRequest, []) := by
    have hline := messages_survive_transport.1 "bench-runner" ["worker"] oddRequest []
    rw [← hline.2 hwhole, List.append_nil]
  have hends : (silentWorker.serve 9 command.input found).1.output? =
      some (0, (WorkerResponse.completed error warnings).line) := by
    rw [silentWorker.fst_serve_of_receive 9 hreceive, hcompleted]
    rfl
  have hfinishes := finishesWith_talkativeHost hends limit ()
  obtain ⟨hsame, hother⟩ := messages_survive_transport.2.2 host "bench-runner" ["worker"]
    limit oddRequest hwhole () silentWorker 9 found 0 _ hends hfinishes
  have hresponse : (WorkerProcess.dispatch host "bench-runner" ["worker"] limit oddRequest ()).1 =
      .completed error warnings := Option.some.inj (hsame.symm.trans hcompleted)
  rw [hresponse] at hother
  refine ⟨⟨0, _, hends, hfinishes⟩, error, warnings, fun other => ⟨hresponse, ?_⟩⟩
  obtain hthere | ⟨text, hcrashed, -⟩ := hother other
  · exact hthere
  · cases hcrashed

end PaintBench
