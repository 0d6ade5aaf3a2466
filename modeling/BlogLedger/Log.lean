import BlogLedger.Text.Quoted

/-!
# The log

One line an event, a JSON object of texts with the event and its level first and the fields in the
order of their names.

What is logged comes from outside and may hold any character, so names and texts are escaped.  A
line never holds a line feed, and it can be read by itself.

## Main Definitions

* `Event`, `Level` — what is logged and how grave it is.
* `LogEntry`, `LogEntry.line` — one line.
-/

namespace BlogLedger

/-- How grave an event is. -/
inductive Level where
  | trace
  | info
  | warn
  | error
  | fatal
  deriving DecidableEq, Repr

/-- The name of a level. -/
def Level.name : Level → String
  | .trace => "TRACE"
  | .info => "INFO"
  | .warn => "WARN"
  | .error => "ERROR"
  | .fatal => "FATAL"

/-- The level of a name. -/
def Level.ofName? (name : String) : Option Level :=
  [Level.trace, .info, .warn, .error, .fatal].find? fun l => l.name = name

/-- What is logged. -/
inductive Event where
  | configLoaded
  | ledgerOpened
  | journalReplayed
  | journalCorrupted
  | journalAppended
  | transitionChecked
  | transitionDelivered
  | transitionRejected
  | taskScheduled
  | taskCancelled
  | taskFired
  | taskSkipped
  | taskFailed
  | tickCompleted
  deriving DecidableEq, Repr

namespace Event

/-- The name of an event. -/
def name : Event → String
  | .configLoaded => "CONFIG_LOADED"
  | .ledgerOpened => "LEDGER_OPENED"
  | .journalReplayed => "JOURNAL_REPLAYED"
  | .journalCorrupted => "JOURNAL_CORRUPTED"
  | .journalAppended => "JOURNAL_APPENDED"
  | .transitionChecked => "TRANSITION_CHECKED"
  | .transitionDelivered => "TRANSITION_DELIVERED"
  | .transitionRejected => "TRANSITION_REJECTED"
  | .taskScheduled => "TASK_SCHEDULED"
  | .taskCancelled => "TASK_CANCELLED"
  | .taskFired => "TASK_FIRED"
  | .taskSkipped => "TASK_SKIPPED"
  | .taskFailed => "TASK_FAILED"
  | .tickCompleted => "TICK_COMPLETED"

/-- All events. -/
def all : List Event :=
  [.configLoaded, .ledgerOpened, .journalReplayed, .journalCorrupted, .journalAppended,
    .transitionChecked, .transitionDelivered, .transitionRejected, .taskScheduled, .taskCancelled,
    .taskFired, .taskSkipped, .taskFailed, .tickCompleted]

/-- The event of a name. -/
def ofName? (name : String) : Option Event := all.find? fun e => e.name = name

/-- The level at which an event is logged by default. -/
def level : Event → Level
  | .journalAppended | .transitionChecked => .trace
  | .transitionRejected | .taskFailed => .warn
  | .journalCorrupted => .fatal
  | _ => .info

end Event

/-- One line of the log. -/
structure LogEntry where
  level : Level
  event : Event
  fields : List (String × String)
  deriving DecidableEq, Repr

namespace LogEntry

/-- An event at its own level. -/
def of (event : Event) (fields : List (String × String)) : LogEntry :=
  ⟨event.level, event, fields⟩

/-- A lower-case hexadecimal digit. -/
def hexDigit (n : Nat) : Char :=
  if n < 10 then Char.ofNat (48 + n) else Char.ofNat (87 + n)

/-- Whether a character is a control character, below the space or from delete up to `0x9f`. -/
def isControl (c : Char) : Bool :=
  c.toNat < 0x20 || (0x7f ≤ c.toNat && c.toNat ≤ 0x9f)

/-- A character inside quotes. -/
def escapeChar (c : Char) : List Char :=
  if c = '\"' then ['\\', '\"']
  else if c = '\\' then ['\\', '\\']
  else if c = '\n' then ['\\', 'n']
  else if c = '\r' then ['\\', 'r']
  else if c = '\t' then ['\\', 't']
  else if isControl c then
    ['\\', 'u', '0', '0', hexDigit (c.toNat / 16), hexDigit (c.toNat % 16)]
  else [c]

/-- A text inside quotes. -/
def escape (text : String) : String :=
  String.ofList (text.toList.flatMap escapeChar)

/-- Put a field before the first one whose name is greater. -/
def insertField (field : String × String) : List (String × String) → List (String × String)
  | [] => [field]
  | f :: rest => if field.1 < f.1 then field :: f :: rest else f :: insertField field rest

/-- Fields in the order of their names; fields of one name keep their order. -/
def sortFields (fields : List (String × String)) : List (String × String) :=
  fields.foldl (fun sorted f => insertField f sorted) []

/-- A member of the line, in quotes. -/
def member (name value : String) : String :=
  "\"" ++ escape name ++ "\":\"" ++ escape value ++ "\""

/-- The members of a line, in order. -/
def members (e : LogEntry) : List (String × String) :=
  ("event", e.event.name) :: ("level", e.level.name) :: sortFields e.fields

/-- The line without its end. -/
def line (e : LogEntry) : String :=
  "\x7b" ++ String.intercalate "," (e.members.map fun m => member m.1 m.2) ++ "\x7d"

/-- The line with its end. -/
def written (e : LogEntry) : String := e.line ++ "\n"

end LogEntry

end BlogLedger
