import BlogLedger.Disk
import Mathlib.Tactic.SplitIfs

/-!
# Disks that grow

What is made on a disk never takes a directory away, so every path that led somewhere still leads
there.

Opening a ledger makes directories and a file, and writes to a file.  For a path to the journal to
lead to the same place afterwards, no directory on the way may be lost.  Two relations between disks
say this.  One allows the bytes of a file to change and is kept by everything that is done to a
disk; the other allows additions only, and with it a file that was there can be read as before.

## Main Definitions

* `Disk.Grows` — directories and what else lies on a disk stay where they are.
* `Disk.Extends` — everything on a disk stays as it is.

## Main Results

* `Disk.node?_put` — what lies on a disk after something was put there.
* `Disk.extends_put`, `Disk.grows_put` — putting something where nothing or no directory lies.
* `Disk.Grows.locate` — paths keep leading where they led.
* `Disk.find_writeFile` — an exchanged file leaves other places as they were.
* `Disk.hasNode_createDirectories` — directories that were made are there.
-/

namespace BlogLedger.Disk

variable {d e f : Disk} {place other : List String} {text : String} {names : List String}

/-! ### Putting something on a disk -/

theorem lookup_filter_ne (nodes : List (List String × Node)) (h : place ≠ other) :
    (nodes.filter fun n => n.1 ≠ place).lookup other = nodes.lookup other := by
  induction nodes with
  | nil => rfl
  | cons head rest ih =>
    obtain ⟨key, node⟩ := head
    by_cases hkey : key = place
    · have hother : (other == key) = false := by
        rw [beq_eq_false_iff_ne, hkey]
        exact h.symm
      rw [List.filter_cons_of_neg (by simpa using hkey), ih, List.lookup_cons, hother]
    · rw [List.filter_cons_of_pos (by simpa using hkey), List.lookup_cons, List.lookup_cons, ih]

/-- What is put at a place lies there, and everything else lies where it lay.  The root cannot be
put, as it is no entry. -/
theorem node?_put (hplace : place ≠ []) (node : Node) :
    (d.put place node).node? other = if other = place then some node else d.node? other := by
  unfold node? put
  by_cases hroot : other = []
  · rw [if_pos hroot, if_pos hroot, if_neg fun h => hplace (h.symm.trans hroot)]
  · rw [if_neg hroot, if_neg hroot, List.lookup_cons]
    by_cases hother : other = place
    · rw [if_pos hother, hother, beq_self_eq_true]
    · rw [if_neg hother, beq_eq_false_iff_ne.2 hother]
      exact lookup_filter_ne d.nodes (Ne.symm hother)

theorem isDirectory_iff : d.isDirectory place = true ↔ d.node? place = some .directory := by
  unfold isDirectory
  cases d.node? place with
  | none => exact iff_of_false nofun nofun
  | some node => cases node <;> simp

/-- The root is a directory.  So a place where no directory lies is not the root. -/
theorem ne_nil_of_not_directory (h : d.isDirectory place = false) : place ≠ [] := by
  rintro rfl
  have hroot : d.isDirectory [] = true := isDirectory_iff.2 (if_pos rfl)
  rw [hroot] at h
  cases h

theorem not_directory_of_none (h : d.node? place = none) : d.isDirectory place = false := by
  unfold isDirectory
  rw [h]

theorem not_directory_of_file {file : File} (h : d.node? place = some (.file file)) :
    d.isDirectory place = false := by
  unfold isDirectory
  rw [h]

/-! ### Going along names -/

/-- The place where a name leads.  A walk goes up at two dots, stays at one dot, and goes down
otherwise. -/
def along (place : List String) (name : String) : List String :=
  if name = "" ∨ name = "." then place
  else if name = ".." then place.dropLast
  else place ++ [name]

/-- A walk goes on from a directory along a name that is not too long.  Inductions on paths unfold
one name at a time with it. -/
theorem walk_cons (place : List String) (name : String) (names : List String) (d : Disk) :
    d.walk place (name :: names) =
      if d.isDirectory place = true ∧ name.utf8ByteSize ≤ maxName then
        d.walk (along place name) names
      else none := by
  rw [Disk.walk, along]
  by_cases hgo : d.isDirectory place = true ∧ name.utf8ByteSize ≤ maxName
  · rw [if_neg (by simpa using hgo), if_pos hgo]
    split_ifs <;> rfl
  · rw [if_pos (by simpa [Decidable.imp_iff_not_or] using hgo), if_neg hgo]

/-! ### Growing -/

/-- Directories and what else lies on a disk stay where they are; a file may have other bytes.  A
file never turns into a directory, or a directory into a file. -/
structure Grows (d e : Disk) : Prop where
  current : e.current = d.current
  directory : ∀ place, d.isDirectory place = true → e.isDirectory place = true
  node : ∀ place, (d.node? place).isSome = true → (e.node? place).isSome = true

/-- Everything on a disk stays as it is.  Other things may be added. -/
structure Extends (d e : Disk) : Prop where
  current : e.current = d.current
  node : ∀ place node, d.node? place = some node → e.node? place = some node

theorem Extends.grows (h : d.Extends e) : d.Grows e where
  current := h.current
  directory place hplace := isDirectory_iff.2 (h.node place _ (isDirectory_iff.1 hplace))
  node place hplace := by
    obtain ⟨node, hnode⟩ := Option.isSome_iff_exists.1 hplace
    rw [h.node place node hnode]
    rfl

theorem Extends.refl (d : Disk) : d.Extends d := ⟨rfl, fun _ _ h => h⟩

theorem Extends.trans (hde : d.Extends e) (hef : e.Extends f) : d.Extends f :=
  ⟨hef.current.trans hde.current, fun place node h => hef.node place node (hde.node place node h)⟩

/-- Putting something where nothing lies leaves everything as it is.  So it is when a directory or
an empty file is made. -/
theorem extends_put (h : d.node? place = none) (node : Node) : d.Extends (d.put place node) := by
  refine ⟨rfl, fun other found hother => ?_⟩
  have hne : other ≠ place := by
    rintro rfl
    cases h.symm.trans hother
  rw [node?_put (ne_nil_of_not_directory (not_directory_of_none h)), if_neg hne, hother]

/-- Nothing is lost when something is put where no directory lies.  So it is when a file is written. -/
theorem grows_put (h : d.isDirectory place = false) (node : Node) :
    d.Grows (d.put place node) := by
  have hplace := ne_nil_of_not_directory h
  refine ⟨rfl, fun other hother => ?_, fun other hother => ?_⟩
  · have hne : other ≠ place := by
      rintro rfl
      cases h.symm.trans hother
    rw [isDirectory_iff] at hother ⊢
    rw [node?_put hplace, if_neg hne, hother]
  · rw [node?_put hplace]
    by_cases heq : other = place
    · rw [if_pos heq]
      rfl
    · rw [if_neg heq, hother]

namespace Grows

theorem walk (h : d.Grows e) (hwalk : d.walk place names = some other) :
    e.walk place names = some other := by
  induction names generalizing place with
  | nil => exact hwalk
  | cons name rest ih =>
    rw [walk_cons] at hwalk ⊢
    split at hwalk
    · rename_i hgo
      rw [if_pos ⟨h.directory place hgo.1, hgo.2⟩]
      exact ih hwalk
    · cases hwalk

/-- Paths keep leading where they led.  A walk only asks for directories, and those are still there. -/
theorem locate (h : d.Grows e) (hlocate : d.locate text = some place) :
    e.locate text = some place := by
  unfold Disk.locate route at hlocate ⊢
  rw [h.current]
  split at hlocate
  · exact (if_pos ‹_›).trans (h.walk hlocate)
  · cases hlocate

theorem hasNode (h : d.Grows e) (hnode : d.hasNode text = true) : e.hasNode text = true := by
  unfold Disk.hasNode find at hnode ⊢
  cases hlocate : d.locate text with
  | none =>
    rw [hlocate] at hnode
    cases hnode
  | some place =>
    rw [hlocate] at hnode
    rw [h.locate hlocate]
    exact h.node place hnode

end Grows

/-- What a path led to is there as it was.  The place is the same, and so is what lies there. -/
theorem Extends.find {node : Node} (h : d.Extends e) (hfind : d.find text = some node) :
    e.find text = some node := by
  obtain ⟨place, hplace, hnode⟩ := Option.bind_eq_some_iff.1 hfind
  unfold Disk.find
  rw [h.grows.locate hplace]
  exact h.node place node hnode

/-! ### Exchanging a file -/

section Exchange

variable {file : File} {path : String} (hpath : d.locate path = some other)
  (hfile : d.node? other = some (.file file))
include hpath hfile

theorem grows_writeFile (written : File) : d.Grows (d.writeFile path written) := by
  unfold writeFile
  rw [hpath]
  exact grows_put (not_directory_of_file hfile) (.file written)

/-- A file is exchanged, and what lies at another place is as it was.  Two paths may lead to one
place, so places are compared and not paths. -/
theorem find_writeFile (htext : d.locate text = some place) (hne : place ≠ other)
    (written : File) : (d.writeFile path written).find text = d.find text := by
  have hlocate := (grows_writeFile hpath hfile written).locate htext
  unfold find
  rw [hlocate, htext]
  unfold writeFile
  rw [hpath, Option.bind_some, Option.bind_some,
    node?_put (ne_nil_of_not_directory (not_directory_of_file hfile)), if_neg hne]

end Exchange

/-! ### Making directories -/

/-- Making directories goes on like a walk, on a disk that may have grown by a directory.  A name
that is too long stops both. -/
theorem makeAlong_cons_ok {name : String}
    (h : d.makeAlong place (name :: names) = (true, e)) :
    (d.isDirectory place = true ∧ name.utf8ByteSize ≤ maxName)
      ∧ ∃ d', d.Extends d' ∧ d'.makeAlong (along place name) names = (true, e) := by
  rw [makeAlong] at h
  split at h
  · cases h
  · rename_i hgo
    refine ⟨by simpa using hgo, ?_⟩
    unfold along
    split_ifs at h ⊢ with hstay hparent
    · exact ⟨d, .refl d, h⟩
    · exact ⟨d, .refl d, h⟩
    · dsimp only at h
      split at h
      · exact ⟨_, extends_put ‹_› .directory, h⟩
      · exact ⟨d, .refl d, h⟩

/-- Where directories were made, a walk along the same names ends in a directory.  The disk grows at
every step, and what was walked before is still there. -/
theorem makeAlong_ok (h : d.makeAlong place names = (true, e)) :
    d.Extends e ∧ ∃ last, e.walk place names = some last ∧ e.isDirectory last = true := by
  induction names generalizing d place with
  | nil =>
    obtain ⟨hdirectory, rfl⟩ := Prod.mk.inj h
    exact ⟨.refl d, place, rfl, hdirectory⟩
  | cons name rest ih =>
    obtain ⟨⟨hdirectory, hname⟩, d', hfirst, hrest⟩ := makeAlong_cons_ok h
    obtain ⟨hlater, last, hwalk, hlast⟩ := ih hrest
    have hall := hfirst.trans hlater
    refine ⟨hall, last, ?_, hlast⟩
    rw [walk_cons, if_pos ⟨hall.grows.directory place hdirectory, hname⟩, hwalk]

/-- Directories that were made are there.  It is what the path of a journal needs. -/
theorem hasNode_createDirectories (h : d.createDirectories text = (true, e)) :
    d.Extends e ∧ e.hasNode text = true := by
  unfold createDirectories at h
  split at h
  · rename_i hpath
    obtain ⟨hextends, last, hwalk, hlast⟩ := makeAlong_ok h
    have hroute : e.route text = d.route text := by
      unfold route
      rw [hextends.current]
    refine ⟨hextends, ?_⟩
    unfold hasNode find locate
    rw [if_pos hpath, hroute, hwalk, Option.bind_some, isDirectory_iff.1 hlast]
    rfl
  · cases h

end BlogLedger.Disk
