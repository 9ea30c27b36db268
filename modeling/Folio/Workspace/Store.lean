import Folio.Effect.Program
import Folio.Workspace.FileNode

/-!
# Stores

A store is a directory that holds one JSON file for each of its keys. A value is written to a fresh
file first, which then takes the place of the old one in one step, so that no reader ever sees a
part of a value.
-/

namespace Folio

inductive StorageError where
  | io (path : String) (cause : IoError)
  /-- A file holds something other than the JSON text that should be there. -/
  | json (path : String)
deriving DecidableEq, Repr

namespace StorageError

def message : StorageError → String
  | io path cause => "I/O error at " ++ path ++ ": " ++ cause.message
  | json path => "Invalid JSON in " ++ path

end StorageError

structure Store where
  directory : String
deriving DecidableEq, Repr

namespace Store

def defaultDatabase : String := "mdseo_db"

def defaultCollection : String := "files"

def fileTreeKey : String := "file_tree"

def logArea : String := "mdseo::storage"

/-- Opens a collection in a database below a root directory; it is made if it is not there. -/
def openNamed (root database collection : String) : ExceptT StorageError Program Store := do
  let directory := Path.join (Path.join root database) collection
  let isThere : Bool ← Effect.act (.isDirectory directory)
  unless isThere do
    Effect.act (.log .debug logArea ("creating store at " ++ directory))
    (Program.makeDirectories directory).elseFail (.io directory)
  return ⟨directory⟩

def openDefault (root : String) : ExceptT StorageError Program Store :=
  openNamed root defaultDatabase defaultCollection

def keyPath (s : Store) (key : String) : String :=
  Path.join s.directory (key ++ ".json")

def discard (temporary path : String) (cause : IoError) :
    Program (Except StorageError Unit) := do
  let _ ← Effect.act (.remove temporary)
  return .error (.io path cause)

def put (s : Store) (key : String) (v : Json) : ExceptT StorageError Program Unit :=
  ExceptT.mk do
    match ← Effect.act (.createTemporary s.directory) with
    | .error e => return .error (.io s.directory e)
    | .ok temporary =>
      match ← Effect.act (.append temporary v.compact.toUTF8) with
      | .error e => discard temporary temporary e
      | .ok () =>
        match ← Effect.act (.rename temporary (s.keyPath key)) with
        | .error e => discard temporary (s.keyPath key) e
        | .ok () => return .ok ()

/-- What is stored under a key, as `read?` takes it; `none` if nothing is. -/
def get (s : Store) (key : String) (read? : String → Option α) :
    ExceptT StorageError Program (Option α) :=
  ExceptT.mk do
    match ← Program.readText (s.keyPath key) with
    | .error .notFound => return .ok none
    | .error e => return .error (.io (s.keyPath key) e)
    | .ok text =>
      match read? text with
      | some a => return .ok (some a)
      | none => return .error (.json (s.keyPath key))

/-- Any value that a JSON text describes, with the fields of its objects sorted. -/
def readValue? (text : String) : Option Json := do
  let v ← Json.read? text
  if v.isAdmissible 0 then some v.sorted else none

def save (s : Store) (nodes : List FileNode) : ExceptT StorageError Program Unit :=
  s.put fileTreeKey (FileNode.forestToJson nodes)

def load (s : Store) : ExceptT StorageError Program (Option (List FileNode)) :=
  s.get fileTreeKey FileNode.readForest?

end Store

end Folio
