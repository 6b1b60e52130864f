import PaintBench.CommandLine.Program
import Std.Time.DateTime.Timestamp

/-!
# The command line

The program reads its configuration from a file and, as a worker, its request from the
standard input. It prints its report and writes the result files. There is no browser and
no other program outside of it.
-/

namespace PaintBench.CommandLine

/-- The path of the configuration that an invocation names. -/
def Invocation.configPath? : Invocation → Option String
  | batch a => a.config
  | worker a => a.config
  | help | version => none

/-- Whether an invocation reads the standard input. -/
def Invocation.readsInput : Invocation → Bool
  | worker _ => true
  | batch _ | help | version => false

/-- The working directory, with the file of a path if there is one. -/
def findDisk (path : Option String) : IO Disk := do
  let directory ← IO.currentDir
  let disk := Disk.empty (pathParts directory.toString)
  let some path := path | return disk
  let .ok content ← (IO.FS.readFile path).toBaseIO | return disk
  return disk.withFile path content

/-- What the arguments find. -/
def findSetting (invocation : Option Invocation) : IO (Setting Unit) := do
  let disk ← findDisk (invocation.bind Invocation.configPath?)
  let input ←
    if invocation.any Invocation.readsInput then (← IO.getStdin).getLine else pure ""
  let time ← Std.Time.Timestamp.now
  let nanoseconds := time.toNanosecondsSinceUnixEpoch.val
  let startedAt := ⟨nanoseconds / 1000000000, (nanoseconds % 1000000000).toNat⟩
  return ⟨disk, input.toList, startedAt, ()⟩

/-- Write the files that one disk has and another has not. -/
def writeFiles (before after : Disk) : IO Unit := do
  for (place, content) in after.files do
    if (place, content) ∉ before.files then
      IO.FS.createDirAll ("/" ++ "/".intercalate place.dropLast)
      IO.FS.writeFile ("/" ++ "/".intercalate place) content

end PaintBench.CommandLine

open PaintBench PaintBench.CommandLine in
/-- Run the program with its arguments. -/
def main (args : List String) : IO UInt32 := do
  let setting ← findSetting (read args)
  let some left := run Host.empty args setting
    | throw (IO.userError "a worker never ends")
  writeFiles setting.disk left.disk
  IO.print left.output
  return .ofNat left.exitCode
