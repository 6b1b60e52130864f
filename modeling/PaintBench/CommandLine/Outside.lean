import PaintBench.Process.AuditTool
import PaintBench.Results.Disk
import PaintBench.Session.World

/-!
# The outside of the command line

On the command line pages are audited by a program of the host. No browser is at hand, so
no session opens.
-/

namespace PaintBench.CommandLine

/-- Programs of a host, and the audit that is under way. -/
structure Outside (σ : Type) where
  programs : σ
  audit : Option ChildOutcome

variable {σ : Type}

/-- Why a session does not open: the browser that is asked for cannot be run, or there is
none to be found. -/
def noBrowser (d : Disk) : Option String → SessionError
  | none => .launch "Could not auto detect a chrome executable"
  | some program =>
    .launch ((Command.plain program).fault?.getD (d.programFault program).message)

/-- Receive a request; an audit takes as long as its program. -/
def Outside.receive (host : Host σ) (auditTool : String) (r : Request) (s : Outside σ) :
    Receipt × Outside σ :=
  match r with
  | .audit url o =>
    let (child, programs) :=
      host.start (AuditTool.command auditTool url o) o.timeout s.programs
    (.after child.duration, ⟨programs, some child.outcome⟩)
  | .openSession _ | .call .. => (.after 0, s)

/-- The result of the audit that is under way. -/
def Outside.auditResult (auditTool url : String) (o : RunOptions) (s : Outside σ) :
    Except RunError Json :=
  match s.audit with
  | some outcome => AuditTool.result auditTool url o outcome
  | none => .error (.audit "no report")

/-- Answer a request. -/
def Outside.answer (auditTool : String) (d : Disk) :
    (r : Request) → Nat → Outside σ → r.Answer × Outside σ
  | .openSession o, _, s => (.error (noBrowser d o.chromeBinary), s)
  | .call .., _, s => (.error .closed, s)
  | .audit url o, _, s => (s.auditResult auditTool url o, { s with audit := none })

/-- The outside of the command line. -/
def Outside.world (host : Host σ) (auditTool : String) (d : Disk) : World (Outside σ) where
  receive := Outside.receive host auditTool
  answer := Outside.answer auditTool d

end PaintBench.CommandLine
