import BlogLedger.Command.Run

/-!
# The program

Runs one command on the file system.  The settings and the journal are read first, the command runs
on a disk that holds nothing else, and what it added to the journal is written before anything is
reported.

## Main Definitions

* `main` — the program.
-/

namespace BlogLedger.Program

/-- All bytes of a stream. -/
partial def readAll (stream : IO.FS.Stream) (read : ByteArray) : IO ByteArray := do
  let more ← stream.read 65536
  if more.isEmpty then return read else readAll stream (read ++ more)

/-- The disk together with a file of the file system, if that can be read. -/
def load (path : String) (d : Disk) : IO Disk := do
  try
    return d.install path (← IO.FS.readBinFile path).toList
  catch _ => return d

/-- The disk together with what lies at a place of the file system. -/
def survey (d : Disk) (place : List String) : IO Disk := do
  let path := (← IO.currentDir) / ("/" ++ "/".intercalate place)
  if ← path.isDir then return d.put place .directory
  if !(← path.pathExists) then return d
  try
    return d.put place (.file { File.empty with bytes := (← IO.FS.readBinFile path).toList })
  catch _ => return d.put place (.file .empty)

/-- The places that one comes to by going along names, were all of them directories. -/
def stations (place : List String) : List String → List (List String)
  | [] => []
  | name :: rest =>
    if name = "" ∨ name = "." then stations place rest
    else if name = ".." then stations place.dropLast rest
    else (place ++ [name]) :: stations (place ++ [name]) rest

/-- A disk with what a command can look at. -/
def snapshot (config : String) : IO (Disk × Option Config) := do
  let current := (← IO.currentDir).toString.splitOn "/"
  let d ← load config (.within (current.filter (· ≠ "")))
  match Config.load config d with
  | .ok settings =>
    let (start, names) := d.route (Journal.pathIn settings.dataDir)
    return (← (stations start names).foldlM survey d, some settings)
  | .error _ => return (d, none)

/-- Make the directories that were made, as far as that is possible, and write to a journal what was
added to it. -/
def keep (dataDir : String) (before after : Disk) : IO Unit := do
  if before.nodes.length < after.nodes.length then
    try IO.FS.createDirAll (Journal.directoryIn dataDir) catch _ => pure ()
  let path := Journal.pathIn dataDir
  match after.file? path with
  | none => return
  | some file =>
    let known := ((before.file? path).map File.size).getD 0
    let handle ← IO.FS.Handle.mk path .append
    handle.write ⟨(file.bytes.drop known).toArray⟩
    handle.flush

/-- Run a command and report what it did; a journal that cannot be written is all that is reported. -/
def run (command : Command) : IO UInt32 := do
  let (before, settings) ← snapshot command.configPath
  let input ← match command with
    | .submit .. => readAll (← IO.getStdin) .empty
    | _ => pure .empty
  let session := command.run input.toList before
  let session ← match settings with
    | none => pure session
    | some settings =>
      try
        keep settings.dataDir before session.disk
        pure session
      catch _ =>
        let fault := StorageFault.appendFailed.failure
        pure (.stopped (.ledger fault) session.log before)
  for line in session.lines do IO.println line
  for line in session.errorLines do IO.eprintln line
  return session.exitCode.toUInt32

end BlogLedger.Program

open BlogLedger in
/-- Run the command of the given words; words that make no command are reported by what is wrong
with them. -/
def main (words : List String) : IO UInt32 := do
  match Command.ofArguments words with
  | .ok command => Program.run command
  | .error fault =>
    IO.eprintln fault.name
    return fault.exitCode.toUInt32
