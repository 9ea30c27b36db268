import Folio.Workspace.Store

/-!
# Legacy files

Before there were stores, the file tree was kept as a text in a file of its own: one JSON object
that maps keys to texts.
-/

namespace Folio

structure LegacyFile where
  path : String
deriving DecidableEq, Repr

namespace LegacyFile

def fileTreeKey : String := "mdxport_fs_tree"

/-- The texts in an object, sorted by key, of each key the last. -/
def entriesOfJson? : Json → Option (List (String × String))
  | .object fields => do
    let texts ← fields.mapM fun (k, v) => v.string?.map (k, ·)
    some (texts.foldl (fun entries (k, s) => Json.insertField k s entries) [])
  | _ => none

def entries (l : LegacyFile) : ExceptT StorageError Program (List (String × String)) := do
  let text ← (Program.readText l.path).elseFail (.io l.path)
  match Json.read? text >>= entriesOfJson? with
  | some es => return es
  | none => throw (.json l.path)

/-- The file tree, if the file, the key and a readable text are all there. -/
def fileTree (l : LegacyFile) : Program (Option (List FileNode)) := do
  match ← l.entries.run with
  | .error _ => return none
  | .ok es =>
    match es.lookup fileTreeKey with
    | none => return none
    | some text =>
      match FileNode.readForest? text with
      | some nodes => return some nodes
      | none =>
        Effect.act (.log .debug Store.logArea "ignoring unreadable legacy file tree")
        return none

def write (l : LegacyFile) (es : List (String × String)) : ExceptT StorageError Program Unit :=
  (Program.writeText l.path (Json.object (es.map fun (k, s) => (k, .string s))).indented).elseFail
    (.io l.path)

/-- Removes the file tree and keeps all other entries. -/
def clear (l : LegacyFile) : ExceptT StorageError Program Unit :=
  ExceptT.mk do
    match ← l.entries.run with
    | .error (.io _ .notFound) => return .ok ()
    | .error e => return .error e
    | .ok es =>
      if (es.lookup fileTreeKey).isSome then
        (l.write (es.filter (·.1 != fileTreeKey))).run
      else return .ok ()

end LegacyFile

end Folio
