import PaintBench.RunOptions

/-!
# Running other programs

A `Command` names a program with its arguments, one environment variable and its input. A
`Host` starts commands and says what became of them within a limit. A command with a NUL
character anywhere cannot be started.
-/

namespace PaintBench

/-- A program to start. -/
structure Command where
  program : String
  args : List String
  /-- the browser that the program is told to use -/
  chromePath : Option String
  input : List Char
deriving DecidableEq, Repr

/-- How a program ended. -/
inductive ExitStatus where
  | code (n : Nat)
  | signal (n : Nat)
deriving DecidableEq, Repr

/-- What became of a command. -/
inductive ChildOutcome where
  | notStarted (reason : String)
  /-- it was still running at the end of its limit -/
  | timedOut
  | finished (status : ExitStatus) (output errors : List UInt8)
deriving DecidableEq, Repr

/-- What became of a command, and how long that took in milliseconds. -/
structure ChildRun where
  outcome : ChildOutcome
  duration : Nat
deriving DecidableEq, Repr

/-- What starts programs. -/
structure Host (σ : Type) where
  start : Command → (limit : Duration) → σ → ChildRun × σ

/-- A command that could not be started. -/
def ChildRun.notStarted (reason : String) : ChildRun :=
  ⟨.notStarted reason, 0⟩

/-- The reason why a program cannot be started that does not exist. -/
def ChildOutcome.noSuchProgram : String :=
  "No such file or directory (os error 2)"

/-- The reason why a program cannot be started that is told too much. -/
def ChildOutcome.oversized : String :=
  "Argument list too long (os error 7)"

/-- A host without any program. -/
def Host.empty {σ : Type} : Host σ where
  start _ _ s := (.notStarted ChildOutcome.noSuchProgram, s)

namespace ExitStatus

/-- The names of the signals, from the first one on. -/
def signalNames : List String :=
  ["SIGHUP", "SIGINT", "SIGQUIT", "SIGILL", "SIGTRAP", "SIGABRT", "SIGBUS", "SIGFPE",
    "SIGKILL", "SIGUSR1", "SIGSEGV", "SIGUSR2", "SIGPIPE", "SIGALRM", "SIGTERM",
    "SIGSTKFLT", "SIGCHLD", "SIGCONT", "SIGSTOP", "SIGTSTP", "SIGTTIN", "SIGTTOU",
    "SIGURG", "SIGXCPU", "SIGXFSZ", "SIGVTALRM", "SIGPROF", "SIGWINCH", "SIGIO", "SIGPWR",
    "SIGSYS"]

/-- The name of a signal in brackets, if it has one. -/
def signalName : Nat → String
  | 0 => ""
  | n + 1 => ((signalNames[n]?).map fun name => " (" ++ name ++ ")").getD ""

/-- The words for how a program ended. -/
def message : ExitStatus → String
  | code n => s!"exit status: {n}"
  | signal n => s!"signal: {n}" ++ signalName n

/-- Whether a program ended well. -/
def isSuccess (s : ExitStatus) : Bool :=
  s = code 0

end ExitStatus

namespace Command

/-- The texts that the system is handed to start a command. -/
def texts (c : Command) : List String :=
  c.program :: c.args ++ c.chromePath.toList

/-- Why a command cannot be started, whatever programs there are. -/
def fault? (c : Command) : Option String :=
  if c.texts.any (·.toList.contains '\x00') then some "nul byte found in provided data"
  else none

/-- How many bytes of a text for a program are too many. -/
def textLimit : Nat := 131072

/-- Whether a program, if there is one, cannot be handed what it is told. -/
def isOversized (c : Command) : Bool :=
  (c.args ++ c.chromePath.toList.map ("CHROME_PATH=" ++ ·)).any fun text =>
    textLimit ≤ Text.byteCount text.toList

/-- A program with nothing but its name. -/
def plain (program : String) : Command := ⟨program, [], none, []⟩

end Command

end PaintBench
