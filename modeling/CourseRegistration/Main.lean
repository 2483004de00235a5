import CourseRegistration.Office
import CourseRegistration.Settings
import CourseRegistration.Snapshot.Build
import CourseRegistration.Stored.Snapshot

/-!
# Command line

`main` puts a registry into service.  Its one optional argument is the path of the settings;
without it the default settings hold.  If the environment variable `ENROLLMENT_SNAPSHOT` is set and
not empty, it takes the place of the snapshot's path in the settings.

The registry stays in service until standard input ends.  If it cannot be built, the reason is
written to standard error and the exit code is 1.
-/

namespace CourseRegistration.CommandLine

/-- What is found at a path. -/
def documentAt (path : String) : IO Document := do
  try
    return .bytes (← IO.FS.readBinFile path)
  catch _ =>
    return .absent

/-- The settings at the path that the arguments give, or the default settings. -/
def settingsOf : List String → IO (Except String Settings)
  | [] => return .ok .default
  | path :: _ => do
    match Settings.load (← documentAt path) with
    | .ok settings => return .ok settings
    | .error why => return .error ("loading config from " ++ path ++ ": " ++ why.message)

/-- The registry of the snapshot at a path. -/
def registryAt (path : String) : IO (Except String Registry) := do
  let blame (why : String) : Except String Registry :=
    .error ("loading snapshot " ++ path ++ ": " ++ why)
  match Snapshot.load (← documentAt path) with
  | .error why => return blame why.message
  | .ok snapshot =>
    match snapshot.build with
    | .ok registry => return .ok registry
    | .error why => return blame why.message

/-- Writes an event to standard output if the settings show its level. -/
def report (settings : Settings) (event : Event) : IO Unit :=
  if event.level.isShown settings.logLevel then
    IO.println (event.level.name ++ " " ++ event.message)
  else
    pure ()

/-- Writes the reason of a failed start to standard error. -/
def giveUp (why : String) : IO UInt32 := do
  IO.eprintln ("Error: " ++ why)
  return 1

/-- Reads lines until there are none. -/
partial def awaitEnd (input : IO.FS.Stream) : IO Unit := do
  if (← input.getLine).isEmpty then return
  awaitEnd input

/-- Starts as the arguments and the environment say, and serves until standard input ends. -/
def run (args : List String) : IO UInt32 := do
  match ← settingsOf args with
  | .error why => giveUp why
  | .ok settings =>
    let settings := settings.withSnapshotPath (← IO.getEnv "ENROLLMENT_SNAPSHOT")
    match ← registryAt settings.snapshotPath with
    | .error why => giveUp why
    | .ok registry =>
      report settings registry.loadedEvent
      match Journal.Channel.ofSize? settings.queueCapacity.toNat with
      | none => giveUp "no queue can hold as many intents as the settings ask for"
      | some _ =>
        report settings registry.servingEvent
        awaitEnd (← IO.getStdin)
        return 0

end CourseRegistration.CommandLine

/-- Puts a registry into service. -/
def main (args : List String) : IO UInt32 :=
  CourseRegistration.CommandLine.run args
