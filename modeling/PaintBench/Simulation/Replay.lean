import PaintBench.Batch.Batch
import PaintBench.Session.World

/-!
# Replaying answers

Simple outsides that answer from a list: a log with given batches, and a worker with given
responses.
-/

namespace PaintBench.Simulation

/-- The item of a place, or else the last one. -/
def replay {α : Type} (items : List α) (place : Nat) : Option α :=
  items[place]?.or items.getLast?

/-- The batches that the drains of a log still yield. -/
abbrev Batches := List (Except SessionError (List String))

/-- Answer a call on a session of which only the log is known. -/
def Batches.answerCall (batches : Batches) (c : Call) : Except SessionError c.Reply × Batches :=
  match c, batches with
  | .drain, [] => (.ok ([] : List String), [])
  | .drain, batch :: rest => (batch, rest)
  | _, batches => (.error .closed, batches)

/-- Answer a request to an outside with one session, of which only the log is known. -/
def Batches.answer : (r : Request) → Nat → Batches → r.Answer × Batches
  | .openSession _, _, batches => (.ok (), batches)
  | .call _ c, _, batches => batches.answerCall c
  | .audit .., _, batches => (.error (.audit "no report"), batches)

/-- An outside with one session, of which only the log is known. -/
def Batches.world : World Batches where
  receive _ batches := (.after 0, batches)
  answer := Batches.answer

/-- Answer a request by the next of some responses, and keep the requests, the latest
first. -/
def replayResponses (responses : List WorkerResponse) (q : WorkerRequest) :
    StateM (List WorkerRequest) WorkerResponse := do
  let asked ← get
  set (q :: asked)
  return (replay responses asked.length).getD (.failure "no response")

end PaintBench.Simulation
