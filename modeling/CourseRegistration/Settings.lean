import CourseRegistration.Document
import CourseRegistration.Json.Coded
import CourseRegistration.Json.Reader

/-!
# Settings

The settings name the snapshot to start from, the bound of the queue to the journal and how much
is reported.  Each has a default.  The bound must not be zero.
-/

namespace CourseRegistration

open Json

/-- The settings of a registry in service. -/
structure Settings where
  snapshotPath : String
  /-- How many records may wait for the journal. -/
  queueCapacity : UInt64
  /-- The least level that is reported. -/
  logLevel : String
  deriving DecidableEq

/-- Why settings cannot be used. -/
inductive SettingsError where
  /-- The document cannot be read. -/
  | unreadable (why : Unreadable)
  /-- The text is not that of settings. -/
  | malformed
  /-- The bound of the queue is zero. -/
  | emptyQueue
  deriving DecidableEq

namespace Settings

/-- The settings where nothing is said. -/
def default : Settings := ⟨"snapshot.json", 1024, "info"⟩

/-- The stored names of the settings, in order. -/
def fieldNames : List String := ["snapshot_path", "intent_queue_capacity", "log_level"]

instance : Coded Settings where
  encode s := .ofMembers
    [("snapshot_path", encode s.snapshotPath), ("intent_queue_capacity", encode s.queueCapacity),
      ("log_level", encode s.logLevel)]
  decode? j := do
    let fields ← record? fieldNames j
    return ⟨← fields.optional "snapshot_path" default.snapshotPath,
      ← fields.optional "intent_queue_capacity" default.queueCapacity,
      ← fields.optional "log_level" default.logLevel⟩

/-- The settings that a text gives. -/
def ofText (text : String) : Except SettingsError Settings :=
  match (read? text).bind decode? with
  | none => .error .malformed
  | some (s : Settings) => if s.queueCapacity = 0 then .error .emptyQueue else .ok s

/-- The settings that a document gives. -/
def load (d : Document) : Except SettingsError Settings :=
  match d.read with
  | .error why => .error (.unreadable why)
  | .ok text => ofText text

/-- The settings with another place for the snapshot, if one is given and not empty. -/
def withSnapshotPath (s : Settings) : Option String → Settings
  | none => s
  | some path => if path = "" then s else { s with snapshotPath := path }

end Settings

/-- The message for people; malformed settings have none of their own. -/
def SettingsError.message : SettingsError → String
  | unreadable why => "could not read config file: " ++ why.message
  | malformed => "could not parse config file"
  | emptyQueue => "intent queue capacity must be positive"

end CourseRegistration
