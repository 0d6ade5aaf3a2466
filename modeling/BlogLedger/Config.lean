import BlogLedger.Disk
import BlogLedger.Json.Fields
import BlogLedger.Json.Parser
import BlogLedger.Json.Printer

/-!
# Configuration

Where a ledger keeps its journal and how it works, from a JSON file.

## Main Definitions

* `Config` — the settings.
* `Config.load` — the settings in a file.
* `ConfigFault` — why there are none.
-/

namespace BlogLedger

/-- The settings of a ledger. -/
structure Config where
  dataDir : String
  journalFsync : Bool
  maxTasksPerTick : UInt64
  deriving DecidableEq, Repr

/-- Why settings cannot be used. -/
inductive ConfigFault where
  | unreadable (path : String)
  | malformed
  | invalid (field reason : String)
  deriving DecidableEq, Repr

/-- The wording of a fault. -/
def ConfigFault.message : ConfigFault → String
  | .unreadable path => "failed to read config " ++ path
  | .malformed => "invalid config JSON"
  | .invalid field reason => "invalid " ++ field ++ ": " ++ reason

namespace Config

/-- The settings for a data directory, with defaults. -/
def ofDataDir (dataDir : String) : Config := ⟨dataDir, true, 256⟩

/-- Settings as JSON. -/
def toJson (c : Config) : Json :=
  .ofMembers [("data_dir", .ofText c.dataDir), ("journal_fsync", .bool c.journalFsync),
    ("max_tasks_per_tick", .ofNat c.maxTasksPerTick.toNat)]

/-- The settings that a JSON value writes. -/
def ofJson? (j : Json) : Option Config := do
  let fields ← j.fields? ["data_dir", "journal_fsync", "max_tasks_per_tick"]
  let dataDir ← fields.required "data_dir" Json.text?
  let defaults := ofDataDir dataDir
  return {
    dataDir
    journalFsync := ← fields.orDefault "journal_fsync" defaults.journalFsync Json.bool?
    maxTasksPerTick :=
      ← fields.orDefault "max_tasks_per_tick" defaults.maxTasksPerTick Json.uint64? }

/-- Refuse settings that no ledger can work with.  Without a directory there is no place for the
journal, and with a limit of zero no task would ever fire. -/
def validate (c : Config) : Except ConfigFault Unit :=
  if c.dataDir = "" then .error (.invalid "data_dir" "must not be empty")
  else if c.maxTasksPerTick = 0 then .error (.invalid "max_tasks_per_tick" "must be > 0")
  else .ok ()

/-- The settings in a file. -/
def load (path : String) (d : Disk) : Except ConfigFault Config :=
  match (d.file? path).bind fun f => Bytes.toText? f.bytes with
  | none => .error (.unreadable path)
  | some text =>
    match (Json.parse? (Bytes.ofText text)).bind ofJson? with
    | none => .error .malformed
    | some config =>
      match config.validate with
      | .ok () => .ok config
      | .error fault => .error fault

end Config

end BlogLedger
