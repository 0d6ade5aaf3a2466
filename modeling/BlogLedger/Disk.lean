import BlogLedger.Journal.File

/-!
# Disks

A tree of directories and files, addressed by texts in which names are separated by slashes.

A disk is what the program sees of a file system: enough to say where a journal lies, which
directories have to be made for it, and what is left behind when this fails halfway.

## Main Definitions

* `Disk` — the tree and the current directory.
* `Disk.locate` — the place that a text names.
* `Disk.find`, `Disk.put` — what lies there.
* `Disk.createDirectories`, `Disk.openFile` — make what is missing.
* `Disk.within`, `Disk.install` — a disk that holds nothing but given files.

## Design Notes

A place is the list of names from the root.  Going on from a place, even to a parent, asks for the
place to be a directory.  Names and whole paths are bounded in length, and no path holds a zero
character.
-/

namespace BlogLedger

/-- What lies at a place. -/
inductive Node where
  | directory
  | file (file : File)

/-- A tree of directories and files, and the current directory. -/
structure Disk where
  current : List String
  nodes : List (List String × Node)

namespace Disk

/-- Directory and name in one text. -/
def join (directory name : String) : String :=
  if directory = "" then name
  else if directory.toList.getLast? = some '/' then directory ++ name
  else directory ++ "/" ++ name

/-- What lies at a place; the root is a directory. -/
def node? (place : List String) (d : Disk) : Option Node :=
  if place = [] then some .directory else d.nodes.lookup place

/-- Whether a directory lies at a place. -/
def isDirectory (place : List String) (d : Disk) : Bool :=
  match d.node? place with
  | some .directory => true
  | _ => false

/-- How many bytes a name may have. -/
def maxName : Nat := 255

/-- How many bytes a path may have. -/
def maxPath : Nat := 4095

/-- Whether a text can be a path. -/
def isPath (text : String) : Bool :=
  text ≠ "" && text.utf8ByteSize ≤ maxPath && !text.toList.contains (Char.ofNat 0)

/-- Where a path starts, and the names to go along. -/
def route (text : String) (d : Disk) : List String × List String :=
  (if text.toList.head? = some '/' then [] else d.current,
    (text.toList.splitOn '/').map String.ofList)

/-- The place reached from `place` by going along names. -/
def walk (d : Disk) (place : List String) : List String → Option (List String)
  | [] => some place
  | name :: rest =>
    if !d.isDirectory place ∨ maxName < name.utf8ByteSize then none
    else if name = "" ∨ name = "." then walk d place rest
    else if name = ".." then walk d place.dropLast rest
    else walk d (place ++ [name]) rest

/-- The place reached from `place` by going along names.  A name that is empty or a dot stays where
it is, and two dots go back.  Links are not followed, as there are none. -/
def locate (text : String) (d : Disk) : Option (List String) :=
  if isPath text then walk d (d.route text).1 (d.route text).2 else none

/-- What lies at the place that a text names. -/
def find (text : String) (d : Disk) : Option Node :=
  (d.locate text).bind d.node?

/-- Whether anything lies at the place that a text names. -/
def hasNode (text : String) (d : Disk) : Bool := (d.find text).isSome

/-- The file at the place that a text names. -/
def file? (text : String) (d : Disk) : Option File :=
  match d.find text with
  | some (.file f) => some f
  | _ => none

/-- Put something at a place. -/
def put (place : List String) (node : Node) (d : Disk) : Disk :=
  { d with nodes := (place, node) :: d.nodes.filter fun n => n.1 ≠ place }

/-- Put a file at the place that a text names, if it can lie there. -/
def writeFile (text : String) (f : File) (d : Disk) : Disk :=
  match d.locate text with
  | some place => d.put place (.file f)
  | none => d

/-- Remove what lies at the place that a text names. -/
def remove (text : String) (d : Disk) : Disk :=
  match d.locate text with
  | some place => { d with nodes := d.nodes.filter fun n => n.1 ≠ place }
  | none => d

/-- Go along names and make each directory that is missing.  Where that is not possible it ends, and
what was made on the way stays. -/
def makeAlong (d : Disk) (place : List String) : List String → Bool × Disk
  | [] => (d.isDirectory place, d)
  | name :: rest =>
    if !d.isDirectory place ∨ maxName < name.utf8ByteSize then (false, d)
    else if name = "" ∨ name = "." then makeAlong d place rest
    else if name = ".." then makeAlong d place.dropLast rest
    else
      let next := place ++ [name]
      match d.node? next with
      | none => makeAlong (d.put next .directory) next rest
      | some _ => makeAlong d next rest

/-- Make the directory that a text names and those around it, as far as they are missing.  Tells
whether it is there now. -/
def createDirectories (text : String) (d : Disk) : Bool × Disk :=
  if isPath text then makeAlong d (d.route text).1 (d.route text).2 else (false, d)

/-- The file at the place that a text names, made without bytes if it is missing.  It fails where a
directory lies, and where no file can lie. -/
def openFile (text : String) (d : Disk) : Option (File × Disk) := do
  let place ← d.locate text
  match d.node? place with
  | some (.file f) => some (f, d)
  | some .directory => none
  | none => some (.empty, d.put place (.file .empty))

/-- The disk that holds nothing but the directories down to the current one. -/
def within (current : List String) : Disk :=
  ⟨current, (List.range (current.length + 1)).map fun n => (current.take n, .directory)⟩

/-- Put a file with the given bytes at the place that a text names, with the directories around it;
the text ends in the name of the file. -/
def install (text : String) (bytes : Bytes) (d : Disk) : Disk :=
  let names := (d.route text).2
  let around := (makeAlong d (d.route text).1 names.dropLast).2
  around.writeFile text { File.empty with bytes }

end Disk

end BlogLedger
