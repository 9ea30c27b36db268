import Folio.Files.IoError
import Folio.Files.Path

/-!
# Disks

A disk holds files and directories. Each of them is held under its place, the list of names that
leads to it from the top; the top itself is always a directory. There are no symbolic links and no
hard links, so that a file has one place only, and there are no permissions, apart from the mark of
a file that can be executed.
-/

namespace Folio

inductive Disk.Entry where
  | file (content : ByteArray) (executable : Bool)
  | directory

structure Disk where
  entries : List (List String × Disk.Entry)

namespace Disk

def Entry.isDirectory : Entry → Bool
  | file .. => false
  | directory => true

def empty : Disk := ⟨[]⟩

def entry? (d : Disk) (place : List String) : Option Entry :=
  if place = [] then some .directory else d.entries.lookup place

def put (place : List String) (e : Entry) (d : Disk) : Disk :=
  ⟨(place, e) :: d.entries.filter (·.1 != place)⟩

def erase (place : List String) (d : Disk) : Disk :=
  ⟨d.entries.filter (·.1 != place)⟩

/-- Takes away a place and all that is below it. -/
def eraseTree (place : List String) (d : Disk) : Disk :=
  ⟨d.entries.filter (!place.isPrefixOf ·.1)⟩

def nameLimit : Nat := 255

/-- A path has fewer bytes than this. -/
def pathLimit : Nat := 4096

/-- Follows names from a place on. Every name but the last must lead to a directory. -/
def follow (d : Disk) (place : List String) : List String → Except IoError (List String)
  | [] => .ok place
  | name :: rest =>
    match d.entry? place with
    | none => .error .notFound
    | some (.file ..) => .error .notADirectory
    | some .directory =>
      if name = "." then d.follow place rest
      else if name = ".." then d.follow place.dropLast rest
      else if nameLimit < name.utf8ByteSize then .error .nameTooLong
      else d.follow (place ++ [name]) rest

/-- The place that a path leads to from a directory. Nothing need be there. -/
def locate (d : Disk) (start : List String) (path : String) : Except IoError (List String) :=
  if path.toList.contains '\x00' then .error .nulInPath
  else if path.isEmpty then .error .notFound
  else if pathLimit ≤ path.utf8ByteSize then .error .nameTooLong
  else d.follow (if Path.isAbsolute path then [] else start) (Path.rawNames path)

def find? (d : Disk) (start : List String) (path : String) : Option Entry :=
  match d.locate start path with
  | .error _ => none
  | .ok place =>
    match d.entry? place with
    | some (.file content executable) =>
      if Path.meansDirectory path then none else some (.file content executable)
    | r => r

def file? (d : Disk) (start : List String) (path : String) :
    Except IoError (List String × ByteArray × Bool) := do
  let place ← d.locate start path
  match d.entry? place with
  | none => .error .notFound
  | some .directory => .error .isADirectory
  | some (.file content executable) =>
    if Path.meansDirectory path then .error .notADirectory else .ok (place, content, executable)

def read (d : Disk) (start : List String) (path : String) : Except IoError ByteArray :=
  (d.file? start path).map (·.2.1)

def isDirectory (d : Disk) (start : List String) (path : String) : Bool :=
  (d.find? start path).any Entry.isDirectory

def makeDirectory (d : Disk) (start : List String) (path : String) : Except IoError Disk := do
  let place ← d.locate start path
  match d.entry? place with
  | some _ => .error .alreadyExists
  | none => .ok (d.put place .directory)

/-- Empties a file, or makes an empty one. -/
def truncate (d : Disk) (start : List String) (path : String) : Except IoError Disk := do
  let place ← d.locate start path
  match d.entry? place with
  | some .directory => .error .isADirectory
  | some (.file _ executable) =>
    if Path.meansDirectory path then .error .notADirectory
    else .ok (d.put place (.file ByteArray.empty executable))
  | none =>
    if Path.meansDirectory path then .error .isADirectory
    else .ok (d.put place (.file ByteArray.empty false))

def append (d : Disk) (start : List String) (path : String) (bytes : ByteArray) :
    Except IoError Disk := do
  let (place, content, executable) ← d.file? start path
  .ok (d.put place (.file (content ++ bytes) executable))

/-- Moves a file in one step; a file at the target is replaced. -/
def rename (d : Disk) (start : List String) (source target : String) : Except IoError Disk := do
  let (place, content, executable) ← d.file? start source
  let goal ← d.locate start target
  match d.entry? goal with
  | some .directory => .error .isADirectory
  | _ =>
    if Path.meansDirectory target then .error .notADirectory
    else .ok ((d.erase place).put goal (.file content executable))

def remove (d : Disk) (start : List String) (path : String) : Except IoError Disk := do
  let (place, _, _) ← d.file? start path
  .ok (d.erase place)

def removeTree (d : Disk) (start : List String) (path : String) : Except IoError Disk := do
  let place ← d.locate start path
  match d.entry? place with
  | none => .error .notFound
  | some (.file ..) => .error .notADirectory
  | some .directory => .ok (d.eraseTree place)

/-- A name in a directory that is not in use: one of more candidates than there are entries. -/
def freshName (d : Disk) (place : List String) (stem : String) : String :=
  let candidate := fun (n : Nat) =>
    let digits := toString n
    stem ++ String.ofList (List.replicate (6 - digits.length) '0') ++ digits
  match (List.range (d.entries.length + 1)).find? fun n =>
    (d.entry? (place ++ [candidate n])).isNone with
  | some n => candidate n
  | none => candidate (d.entries.length + 1)

def directory? (d : Disk) (start : List String) (path : String) :
    Except IoError (List String) := do
  let place ← d.locate start path
  match d.entry? place with
  | none => .error .notFound
  | some (.file ..) => .error .notADirectory
  | some .directory => .ok place

/-- Makes something new in a directory under a fresh name, and yields its path. The empty path
stands for the directory that paths start from. -/
def createFresh (d : Disk) (start : List String) (path stem : String) (e : Entry) :
    Except IoError (String × Disk) := do
  let place ← d.directory? start (if path.isEmpty then "." else path)
  let fresh := Path.join path (d.freshName place stem)
  let goal ← d.locate start fresh
  .ok (fresh, d.put goal e)

/-- All that is below a place: the names that lead there from it, and what is there. Each
directory comes before what is in it, and the names in a directory come in the order of their
characters. -/
def below (d : Disk) (place : List String) : List (List String × Entry) :=
  let inner := d.entries.filterMap fun (p, e) =>
    if place.isPrefixOf p && p != place then some (p.drop place.length, e) else none
  inner.mergeSort fun a b => decide (¬b.1 < a.1)

end Disk

end Folio
