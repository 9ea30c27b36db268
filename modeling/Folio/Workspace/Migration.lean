import Folio.Workspace.Legacy

/-!
# Migration

The file tree moves from a legacy file into a store: it is saved there before it is removed here.
-/

namespace Folio

inductive Migration where
  | migrated (count : Nat)
  /-- The store had a tree already, and the one in the legacy file was given up. -/
  | alreadyMigrated
  | nothingToMigrate
deriving DecidableEq, Repr

namespace Migration

def run (s : Store) (l : LegacyFile) : ExceptT StorageError Program Migration := do
  match ← l.fileTree with
  | none => return nothingToMigrate
  | some nodes =>
    match ← s.load with
    | some _ =>
      l.clear
      return alreadyMigrated
    | none =>
      s.save nodes
      l.clear
      let count := FileNode.countAll nodes
      Effect.act (.log .debug Store.logArea
        ("migrated " ++ toString count ++ " file tree nodes from " ++ l.path))
      return migrated count

end Migration

end Folio
