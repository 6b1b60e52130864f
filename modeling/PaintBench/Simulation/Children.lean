import PaintBench.Process.Command
import PaintBench.Results.Disk
import PaintBench.Simulation.Replay

/-!
# Simulated programs

A host with a single program, and a disk without any. Every start of the program plays the
next of some scripted replies.
-/

namespace PaintBench.Simulation

/-- What a program does when it is started. -/
structure ChildReply where
  output : List UInt8
  errors : List UInt8
  status : ExitStatus
  /-- how long it takes, in milliseconds -/
  duration : Nat
deriving DecidableEq, Repr

/-- A program that does nothing. -/
def ChildReply.silent : ChildReply := ⟨[], [], .code 0, 0⟩

/-- The state of the host. -/
structure Children where
  /-- the name of the program that there is -/
  program : String
  replies : List ChildReply
  /-- the disk where other programs are sought -/
  disk : Disk
  /-- the commands that were started, the latest first -/
  started : List Command

namespace Children

/-- What becomes of a program that does something within a limit. -/
def finish (reply : ChildReply) (limit : Duration) : ChildRun :=
  if limit.ticks ≤ reply.duration then ⟨.timedOut, limit.ticks⟩
  else ⟨.finished reply.status reply.output reply.errors, reply.duration⟩

/-- Start a command. -/
def start (c : Command) (limit : Duration) (s : Children) : ChildRun × Children :=
  match c.fault? with
  | some reason => (.notStarted reason, s)
  | none =>
    if c.program ≠ s.program then
      (.notStarted (s.disk.programFault c.program).message, s)
    else if c.isOversized then (.notStarted ChildOutcome.oversized, s)
    else
      let reply := (replay s.replies s.started.length).getD .silent
      (finish reply limit, { s with started := c :: s.started })

/-- The host. -/
def host : Host Children := ⟨start⟩

end Children

end PaintBench.Simulation
