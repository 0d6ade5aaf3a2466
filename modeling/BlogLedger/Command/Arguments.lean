import BlogLedger.Bytes.Decimal
import BlogLedger.Bytes.Word

/-!
# Command line arguments

Four commands, each with options.  An option is written `--name=value` or as two words, and a value
that begins with a hyphen must be attached.

## Main Definitions

* `Command` — what is to be done.
* `Command.ofArguments` — the command of a list of words, or what is wrong with them.
* `UsageFault` — what is wrong with them.

## Design Notes

An option waits for its value and is accepted only when the next known option begins or the words end.
An unknown word is reported at once, whatever is still waiting.
-/

namespace BlogLedger

/-- What is to be done. -/
inductive Command where
  /-- Make a data directory with an empty journal. -/
  | init (config : String)
  /-- Apply the transactions on standard input, one a line, or only check them. -/
  | submit (config : String) (checkOnly : Bool)
  /-- Fire the tasks that are due. -/
  | tick (config now : String)
  /-- Look records up by number or index value. -/
  | query (config path : String) (data : Option String) (id : Option UInt64) (leading : Bool)
  deriving DecidableEq, Repr

/-- What is wrong with the words of a command line. -/
inductive UsageFault where
  | missingRequiredArgument
  | unknownArgument
  | invalidSubcommand
  /-- An option stands without its value. -/
  | invalidValue
  /-- A value is of the wrong form. -/
  | valueValidation
  /-- An option is given twice, or together with one that excludes it. -/
  | argumentConflict
  /-- A flag is given a value. -/
  | tooManyValues
  /-- There are no words. -/
  | noArguments
  | help
  | version
  deriving DecidableEq, Repr

namespace UsageFault

/-- The name of a fault. -/
def name : UsageFault → String
  | .missingRequiredArgument => "MissingRequiredArgument"
  | .unknownArgument => "UnknownArgument"
  | .invalidSubcommand => "InvalidSubcommand"
  | .invalidValue => "InvalidValue"
  | .valueValidation => "ValueValidation"
  | .argumentConflict => "ArgumentConflict"
  | .tooManyValues => "TooManyValues"
  | .noArguments => "DisplayHelpOnMissingArgumentOrSubcommand"
  | .help => "DisplayHelp"
  | .version => "DisplayVersion"

/-- The exit code of a program that stops with a fault; asking for help or the version is none. -/
def exitCode : UsageFault → UInt8
  | .help | .version => 0
  | _ => 2

end UsageFault

namespace Arguments

/-- What an option takes. -/
inductive Takes where
  | nothing
  | path
  | text
  | number
  deriving DecidableEq, Repr

/-- An option of a command. -/
structure OptionSpec where
  name : String
  takes : Takes
  deriving DecidableEq, Repr

/-- Words read so far: the options accepted with their values, the option that waits with the value
it got, and whether a double hyphen ended the options. -/
structure State where
  given : List (String × String)
  waiting : Option (OptionSpec × Option String)
  ended : Bool

/-- No words read yet. -/
def State.start : State := ⟨[], none, false⟩

/-- The number of decimal digits with an optional plus sign. -/
def number? (text : String) : Option UInt64 :=
  let digits := match Bytes.ofText text with
    | 43 :: digits => digits
    | digits => digits
  (Decimal.nat? digits).bind Word.ofNat?

/-- Accept an option with its value. -/
def State.accept (s : State) (spec : OptionSpec) (value : String) : Except UsageFault State :=
  if (s.given.lookup spec.name).isSome then .error .argumentConflict
  else if spec.takes = .path ∧ value = "" then .error .invalidValue
  else if spec.takes = .number ∧ (number? value).isNone then .error .valueValidation
  else .ok { s with given := (spec.name, value) :: s.given, waiting := none }

/-- Accept the option that waits. -/
def State.settle (s : State) : Except UsageFault State :=
  match s.waiting with
  | none => .ok s
  | some (_, none) => .error .invalidValue
  | some (spec, some value) => { s with waiting := none }.accept spec value

/-- A word as a long option, with its name and the attached value. -/
def longOption? (word : String) : Option (String × Option String) :=
  match word.toList with
  | '-' :: '-' :: rest =>
    let name := String.ofList (rest.takeWhile (· ≠ '='))
    match rest.dropWhile (· ≠ '=') with
    | _ :: value => some (name, some (String.ofList value))
    | [] => some (name, none)
  | _ => none

/-- Read a long option. -/
def State.readLong (specs : List OptionSpec) (s : State) (name : String) (value : Option String) :
    Except UsageFault State :=
  match specs.find? fun spec => spec.name = name, value with
  | none, none => if name = "help" then do let _ ← s.settle; .error .help else .error .unknownArgument
  | none, some _ => if name = "help" then .error .tooManyValues else .error .unknownArgument
  | some ⟨_, .nothing⟩, some _ => .error .tooManyValues
  | some spec, some value => do (← s.settle).accept spec value
  | some spec, none => do
    let s ← s.settle
    if spec.takes = .nothing then s.accept spec "" else .ok { s with waiting := some (spec, none) }

/-- Read one word after the name of a command. -/
def State.read (specs : List OptionSpec) (s : State) (word : String) : Except UsageFault State :=
  if s.ended then .error .unknownArgument
  else if word = "--" then .ok { s with ended := true }
  else
    match longOption? word, word.toList with
    | some (name, value), _ => s.readLong specs name value
    | none, '-' :: 'h' :: _ => do let _ ← s.settle; .error .help
    | none, '-' :: _ :: _ => .error .unknownArgument
    | none, _ =>
      match s.waiting with
      | some (spec, none) => .ok { s with waiting := some (spec, some word) }
      | _ => .error .unknownArgument

/-- Read all words after the name of a command. -/
def readAll (specs : List OptionSpec) (words : List String) : Except UsageFault State := do
  (← words.foldlM (State.read specs) .start).settle

/-- The value of an option that must be given. -/
def State.required (s : State) (name : String) : Except UsageFault String :=
  match s.given.lookup name with
  | some value => .ok value
  | none => .error .missingRequiredArgument

/-- Whether an option is given. -/
def State.has (s : State) (name : String) : Bool := (s.given.lookup name).isSome

/-- The path of the configuration. -/
def State.config (s : State) : String := (s.given.lookup "config").getD "./quill.json"

/-- The option for the path of the configuration. -/
def configOption : OptionSpec := ⟨"config", .path⟩

/-- The command of a name with the given words after it. -/
def command? (name : String) (words : List String) : Option (Except UsageFault Command) :=
  match name with
  | "init" => some do
    let s ← readAll [configOption] words
    return .init s.config
  | "submit" => some do
    let s ← readAll [configOption, ⟨"check-only", .nothing⟩] words
    return .submit s.config (s.has "check-only")
  | "tick" => some do
    let s ← readAll [configOption, ⟨"now", .text⟩] words
    return .tick s.config (← s.required "now")
  | "query" => some do
    let s ← readAll [configOption, ⟨"path", .text⟩, ⟨"data", .text⟩, ⟨"id", .number⟩,
      ⟨"prefix", .nothing⟩] words
    if s.has "data" && s.has "id" then .error .argumentConflict
    return .query s.config (← s.required "path") (s.given.lookup "data")
      ((s.given.lookup "id").bind number?) (s.has "prefix")
  | _ => none

/-- The names of the commands, and of the one that explains them. -/
def commandNames : List String := ["init", "submit", "tick", "query", "help"]

/-- What asking for the help of a list of commands gives. -/
def helpOn : List String → UsageFault
  | [] => .help
  | [name] => if commandNames.contains name then .help else .invalidSubcommand
  | _ => .invalidSubcommand

end Arguments

open Arguments in
/-- The command of a list of words. -/
def Command.ofArguments : List String → Except UsageFault Command
  | [] | ["--"] => .error .noArguments
  | "--" :: word :: _ =>
    .error (if commandNames.contains word then .unknownArgument else .invalidSubcommand)
  | "help" :: rest => .error (helpOn rest)
  | word :: rest =>
    match command? word rest with
    | some result => result
    | none =>
      match longOption? word, word.toList with
      | some ("help", none), _ => .error .help
      | some ("version", none), _ => .error .version
      | some ("help", some _), _ | some ("version", some _), _ => .error .tooManyValues
      | some _, _ => .error .unknownArgument
      | none, '-' :: 'h' :: _ => .error .help
      | none, '-' :: 'V' :: _ => .error .version
      | none, '-' :: _ :: _ => .error .unknownArgument
      | none, _ => .error .invalidSubcommand

end BlogLedger
