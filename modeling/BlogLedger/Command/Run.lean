import BlogLedger.Command.Arguments
import BlogLedger.Ledger.Opening
import BlogLedger.Query

/-!
# Running a command

A command reads the configuration, opens the ledger, does its work and answers with lines of JSON.

Settings and journal are all that a command reads from the disk.  All that it does is in its
answers, its log and the disk that it leaves.

## Main Definitions

* `Command.run` — run a command on a disk.
* `Session` — what a command writes, logs and leaves on the disk.
* `CommandFault` — why a command stops.
-/

namespace BlogLedger

/-- Why a command stops. -/
inductive CommandFault where
  | config (fault : ConfigFault)
  | ledger (failure : Failure)
  | io (message : String)
  /-- A line of input is no transaction. -/
  | json
  | argument (message : String)
  | alreadyInitialized
  | notInitialized
  deriving DecidableEq, Repr

namespace CommandFault

/-- The code of a fault. -/
def code : CommandFault → String
  | .config _ => "QUILL_CLI_CONFIG_ERROR"
  | .ledger failure => failure.code.name
  | .io _ | .json => "QUILL_CLI_IO_ERROR"
  | .argument _ => "QUILL_CLI_INVALID_ARGUMENT"
  | .alreadyInitialized => "QUILL_CLI_ALREADY_INITIALIZED"
  | .notInitialized => "QUILL_CLI_NOT_INITIALIZED"

/-- The wording of a fault. -/
def message : CommandFault → String
  | .config fault => fault.message
  | .ledger failure => failure.display
  | .io message => "I/O error: " ++ message
  | .json => "JSON error"
  | .argument message => "invalid argument: " ++ message
  | .alreadyInitialized => "data directory already initialized"
  | .notInitialized =>
    "data directory not initialized, run " ++ Quoted.apostrophe.toString ++ "quillstate init"
      ++ Quoted.apostrophe.toString ++ " first"

end CommandFault

/-- What a command writes, logs and leaves on the disk, and whether it stopped.  Answers that were
given before it stopped are kept. -/
structure Session where
  result : Except CommandFault Unit
  output : List Json
  log : List LogEntry
  disk : Disk

namespace Session

/-- The answer to something that worked. -/
def okResponse (data : Json) : Json :=
  .ofMembers [("status", .ofText "ok"), ("data", data)]

/-- The answer to something that failed. -/
def errorResponse (code message : String) : Json :=
  .ofMembers [("status", .ofText "error"), ("code", .ofText code), ("message", .ofText message)]

/-- The lines on standard output: all answers and, if the command stopped, why. -/
def lines (s : Session) : List String :=
  let stopped := match s.result with
    | .ok () => []
    | .error fault => [errorResponse fault.code fault.message]
  (s.output ++ stopped).map fun answer => answer.sortNames.printText

/-- The lines on standard error: the log and, if the command stopped, why. -/
def errorLines (s : Session) : List String :=
  s.log.map LogEntry.line ++
    match s.result with
    | .ok () => []
    | .error fault => [fault.message]

/-- The exit code. -/
def exitCode (s : Session) : UInt8 :=
  match s.result with
  | .ok () => 0
  | .error _ => 1

/-- A command that stopped before it wrote anything. -/
def stopped (fault : CommandFault) (log : List LogEntry) (d : Disk) : Session :=
  ⟨.error fault, [], log, d⟩

end Session

namespace Command

/-- The lines of an input, without their ends.  An end at the very end of the input begins no
further line. -/
def splitLines : Bytes → List Bytes
  | [] => []
  | b :: rest =>
    if b = 10 then [] :: splitLines rest
    else
      match splitLines rest with
      | [] => [[b]]
      | line :: lines => (b :: line) :: lines

/-- The transaction on a line, if the line is not blank. -/
def transactionOn (line : Bytes) : Except CommandFault (Option Transaction) :=
  match Bytes.toText? line with
  | none => .error (.io "stream did not contain valid UTF-8")
  | some text =>
    if Blank.isAllBlank text then .ok none
    else
      match (Json.parse? line).bind Transaction.ofJson? with
      | some tx => .ok (some tx)
      | none => .error .json

/-- Whether a data directory holds a journal. -/
def isInitialized (config : Config) (d : Disk) : Bool :=
  d.hasNode (Journal.pathIn config.dataDir)

/-- Go on with the settings in a file. -/
def withConfig (path : String) (d : Disk) (next : Config → List LogEntry → Session) : Session :=
  match Config.load path d with
  | .error fault => .stopped (.config fault) [] d
  | .ok config => next config [.of .configLoaded [("path", path)]]

/-- Go on with the ledger that the settings in a file name. -/
def withLedger (path : String) (d : Disk) (next : Ledger → List LogEntry → Disk → Session) :
    Session :=
  withConfig path d fun config log =>
    if !isInitialized config d then .stopped .notInitialized log d
    else
      match Ledger.openIn config d with
      | (.error f, d, opening) => .stopped (.ledger f) (log ++ opening) d
      | (.ok ledger, d, opening) => next ledger (log ++ opening) d

/-- Make a data directory with an empty journal. -/
def runInit (path : String) (d : Disk) : Session :=
  withConfig path d fun config log =>
    if isInitialized config d then .stopped .alreadyInitialized log d
    else
      match Journal.openIn config.dataDir config.journalFsync d with
      | (.error fault, d) => .stopped (.ledger fault.failure) log d
      | (.ok journal, d) =>
        ⟨.ok (), [Session.okResponse (.ofMembers
          [("initialized", .bool true), ("journal", .ofText journal.path)])], log, d⟩

/-- Check a transaction and, unless it is only to be checked, make its change.  The price is told in
either case, so a transaction that is made was checked first. -/
def apply (checkOnly : Bool) (tx : Transaction) (l : Ledger) : Step Json :=
  let checked := l.check tx
  match checked.result with
  | .error f => ⟨.error f, checked.ledger, checked.log⟩
  | .ok cost =>
    let priced := [("path", Json.ofText tx.message.path), ("cost", Json.ofNat cost)]
    if checkOnly then ⟨.ok (.ofMembers priced), checked.ledger, checked.log⟩
    else
      let delivered := checked.ledger.deliver tx
      ⟨delivered.result.map fun o => .ofMembers (priced ++ [("result", o.toJson)]),
        delivered.ledger, checked.log ++ delivered.log⟩

/-- Apply the transactions on lines.  A rejected one is answered and the next one follows; a fatal
failure and a malformed line stop the command.  What was committed before stays. -/
def applyLines (checkOnly : Bool) (d : Disk) :
    List Bytes → Ledger → List Json → List LogEntry → Session
  | [], l, output, log => ⟨.ok (), output, log, d.keep l⟩
  | line :: rest, l, output, log =>
    match transactionOn line with
    | .error fault => ⟨.error fault, output, log, d.keep l⟩
    | .ok none => applyLines checkOnly d rest l output log
    | .ok (some tx) =>
      let step := apply checkOnly tx l
      let log := log ++ step.log
      match step.result with
      | .ok data => applyLines checkOnly d rest step.ledger (output ++ [Session.okResponse data]) log
      | .error f =>
        if f.isFatal then ⟨.error (.ledger f), output, log, d.keep step.ledger⟩
        else
          applyLines checkOnly d rest step.ledger
            (output ++ [Session.errorResponse f.code.name f.display]) log

/-- Apply the transactions on standard input. -/
def runSubmit (path : String) (checkOnly : Bool) (input : Bytes) (d : Disk) : Session :=
  withLedger path d fun ledger log d =>
    applyLines checkOnly d (splitLines input) ledger [] log

/-- Fire the tasks that are due at a time. -/
def runTick (path now : String) (d : Disk) : Session :=
  match Timestamp.read now with
  | .error f => .stopped (.ledger f) [] d
  | .ok now =>
    withLedger path d fun ledger log d =>
      let step := ledger.tick now
      let d := d.keep step.ledger
      match step.result with
      | .error f => .stopped (.ledger f) (log ++ step.log) d
      | .ok report => ⟨.ok (), [Session.okResponse report.toJson], log ++ step.log, d⟩

/-- The data of a query: bytes in hexadecimal, a record number, or nothing. -/
def queryData (data : Option String) (id : Option UInt64) : Except CommandFault Bytes :=
  match data, id with
  | some text, _ =>
    match Hex.read text with
    | .ok bytes => .ok bytes
    | .error fault => .error (.argument ("--data is not hex: " ++ fault.message))
  | none, some id => .ok (RecordId.mk id).key
  | none, none => .ok []

/-- Look records up. -/
def runQuery (path query : String) (data : Option String) (id : Option UInt64) (leading : Bool)
    (d : Disk) : Session :=
  match queryData data id with
  | .error fault => .stopped fault [] d
  | .ok data =>
    withLedger path d fun ledger log d =>
      let mode := if leading then .leading else .exact
      match QueryTable.standard.query query data mode ledger.store with
      | .error f => .stopped (.ledger f) log d
      | .ok found =>
        ⟨.ok (), [Session.okResponse (.array (found.map Found.toJson))], log, d⟩

/-- The path of the settings of a command. -/
def configPath : Command → String
  | .init config | .submit config _ | .tick config _ | .query config .. => config

/-- Run a command with an input on a disk. -/
def run (c : Command) (input : Bytes) (d : Disk) : Session :=
  match c with
  | .init config => runInit config d
  | .submit config checkOnly => runSubmit config checkOnly input d
  | .tick config now => runTick config now d
  | .query config path data id leading => runQuery config path data id leading d

end Command

end BlogLedger
