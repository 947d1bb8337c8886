import PolicyAuthoring.CommandLine.Outcome
import Std.Time.DateTime.Timestamp

/-!
# The program

Collects what a run of the program depends on, and carries out what comes of it.
-/

namespace PolicyAuthoring.CommandLine

/-- The variables of the environment that the program looks at. -/
def variableNames : List String :=
  ["POLICYWRIGHT_VERBOSE", "POLICYWRIGHT_RULE_IDS", "POLICYWRIGHT_SUMMARY_MAX_LENGTH"]

/-- The environment as the program sees it. -/
def readEnvironment : IO Environment := do
  let found ← variableNames.mapM fun name => do return (name, ← IO.getEnv name)
  return found.filterMap fun (name, value) => value.map (name, ·)

/-- Those of the files that can be read. -/
def readFiles (paths : List String) : IO Files := do
  let found ← paths.mapM fun (path : String) => do
    try
      let text ← IO.FS.readFile path
      return [(path, text)]
    catch _ => return []
  return found.flatten

/-- Whether a path can be opened for writing. Nothing is left of the attempt. -/
def canWrite (path : String) : IO Bool := do
  try
    discard <| IO.FS.Handle.mk path .readWrite
    return true
  catch _ =>
    try
      discard <| IO.FS.Handle.mk path .writeNew
      IO.FS.removeFile path
      return true
    catch _ => return false

/-- The time now. -/
def readClock : IO Clock := do
  let now ← Std.Time.Timestamp.now
  return .float (.ofDecimal false now.toMillisecondsSinceUnixEpoch.val.toNat (-3))

/-- A token drawn at random. -/
def drawToken : IO Nat := do
  return (← IO.getRandomBytes 16).foldl (fun token byte => token * 256 + byte.toNat) 0

/-- Leave behind what a run leaves behind. -/
def World.leave (files : Files) (world : World) : IO Unit := do
  for (path, text) in world.files do
    if files.lookup path ≠ some text then IO.FS.writeFile path text
  IO.print (String.ofList (world.printed.map Char.ofNat))

/-- Carry out what a command line asks for. -/
def Invocation.carryOut (invocation : Invocation) : IO UInt32 := do
  let files ← readFiles invocation.inputs
  let writable ← invocation.output?.toList.filterM canWrite
  let surroundings : Surroundings := {
    files
    env := ← readEnvironment
    clock := ← readClock
    token := ← drawToken
    writable := writable.contains }
  match invocation.outcome surroundings with
  | .ok exitCode world =>
    world.leave files
    return exitCode.toUInt32
  | .error fault world =>
    world.leave files
    IO.eprintln (String.ofList (fault.message.map Char.ofNat))
    return 1

end PolicyAuthoring.CommandLine

/-- Run the program. -/
def main (args : List String) : IO UInt32 :=
  (PolicyAuthoring.CommandLine.Invocation.ofArguments args).carryOut
