/-
# Files and folders

A disk holds files and folders.  Each has a location, the list of the names that lead to it
from the root, and a path is followed name by name, starting in the home folder unless the
path starts with a slash.  This file says what a path leads to, why it may lead nowhere, and
what writing to it changes.
-/
import FlatQuery.Text.Utf8
import FlatQuery.Error

namespace FlatQuery

/-- A place on a disk, given by the names on the way from the root. -/
abbrev Location := List (List Char)

/-- What is found at a location. -/
inductive Node where
  | folder
  | file (bytes : Bytes)
deriving DecidableEq, Repr

/-- A disk, with the folder in which paths start. -/
structure Disk where
  home : Location
  node? : Location → Option Node
  /-- The home folder is a folder, and so is everything around it. -/
  around : ∀ location, location <+: home → node? location = some .folder

/-- The names in a path, which are separated by slashes.  Slashes in a row, or one at an end
of the path, have empty names between or behind them. -/
def pathNames : List Char → List (List Char)
  | [] => [[]]
  | c :: cs => if c = '/' then [] :: pathNames cs else (pathNames cs).modifyHead (c :: ·)

/-- The names that lead from a folder to no new one: the empty name and the dot stay, and two
dots lead back. -/
def isTurn (name : List Char) : Bool :=
  name == [] || name == ['.'] || name == ['.', '.']

/-- The location to which a name leads from a folder.  From the root one cannot go back. -/
def Location.follow (location : Location) (name : List Char) : Location :=
  if name = ['.', '.'] then location.dropLast
  else if isTurn name then location
  else location ++ [name]

namespace Disk

/-- The disk that holds nothing but a home folder and the folders around it. -/
def empty (home : Location) : Disk where
  home
  node? location := if location.isPrefixOf home then some .folder else none
  around _ h := if_pos (List.isPrefixOf_iff_prefix.2 h)

/-- The disk with a file put at a location.  A folder is not replaced. -/
def putFile (disk : Disk) (location : Location) (bytes : Bytes) : Disk :=
  { disk with
    node? := fun l =>
      if l = location ∧ disk.node? l ≠ some .folder then some (.file bytes) else disk.node? l
    around := fun l h => by
      have hfolder : disk.node? l = some .folder := disk.around l h
      rw [if_neg fun hput => hput.2 hfolder, hfolder] }

/-- The disk with a folder at a location, and folders all the way to it. -/
def putFolder (disk : Disk) (location : Location) : Disk :=
  { disk with
    node? := fun l => if l.isPrefixOf location then some .folder else disk.node? l
    around := fun l h => by
      rw [disk.around l h]
      split <;> rfl }

/-- The location where a path starts. -/
def start (disk : Disk) (path : String) : Location :=
  if path.toList.head? = some '/' then [] else disk.home

/-- The disk with a folder that a path names, and folders all the way to it. -/
def addFolder (disk : Disk) (path : String) : Disk :=
  disk.putFolder ((pathNames path.toList).foldl .follow (disk.start path))

/-- The disk with a file that a path names, and folders all the way to it. -/
def addFile (disk : Disk) (path : String) (bytes : Bytes) : Disk :=
  let location := (pathNames path.toList).foldl .follow (disk.start path)
  (disk.putFolder location.dropLast).putFile location bytes

/-- A location that must be a folder. -/
def folderAt (disk : Disk) (location : Location) : Except FileError Location :=
  match disk.node? location with
  | none => .error .missing
  | some (.file _) => .error .notFolder
  | some .folder => .ok location

/-- The location to which a list of names leads.  Each name is followed from a folder. -/
def walk (disk : Disk) (location : Location) : List (List Char) → Except FileError Location
  | [] => .ok location
  | name :: names => do
    let folder ← disk.folderAt location
    disk.walk (folder.follow name) names

/-- A path that the system accepts: it has no character with code 0, and is not empty. -/
def checkPath (path : String) : Except FileError Unit :=
  if path.toList.contains '\x00' then .error .nulInPath
  else if path.isEmpty then .error .missing
  else .ok ()

/-- The location to which a path leads. -/
def locate (disk : Disk) (path : String) : Except FileError Location := do
  checkPath path
  disk.walk (disk.start path) (pathNames path.toList)

/-- The content of the file to which a path leads. -/
def read (disk : Disk) (path : String) : Except FileError Bytes := do
  let location ← disk.locate path
  match disk.node? location with
  | none => .error .missing
  | some .folder => .error .isFolder
  | some (.file bytes) => .ok bytes

/-- The location at which a file is written by the given path.  Its folder must be there, and
the file need not be; a path that cannot name a file is taken to name a folder. -/
def target (disk : Disk) (path : String) : Except FileError Location := do
  checkPath path
  let names := pathNames path.toList
  let solid := (names.reverse.dropWhile (· == [])).reverse
  let around ← disk.walk (disk.start path) solid.dropLast
  let folder ← disk.folderAt around
  match solid.getLast? with
  | none => .error .isFolder
  | some name =>
    if isTurn name || solid.length < names.length then .error .isFolder
    else if disk.node? (folder ++ [name]) = some .folder then .error .isFolder
    else .ok (folder ++ [name])

/-- The disk after the given bytes are written to a path, in place of what was there. -/
def write (disk : Disk) (path : String) (bytes : Bytes) : Except FileError Disk := do
  let location ← disk.target path
  return disk.putFile location bytes

end Disk

end FlatQuery
