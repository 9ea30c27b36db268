import Folio.Proofs.FileAccess
import Folio.Workspace.Legacy

/-!
# Files that hold trees

What a store and a legacy file yield is a function of the bytes of one file each. Clearing a legacy
file writes nothing but this file.
-/

namespace Folio

open Program

namespace Store

/-- What a store yields for a key, given what can be read from the file of the key. -/
def valueOf (path : String) (read? : String → Option α) (r : Except IoError ByteArray) :
    Except StorageError (Option α) :=
  match textOf r with
  | .error .notFound => .ok none
  | .error e => .error (.io path e)
  | .ok text =>
    match read? text with
    | some a => .ok (some a)
    | none => .error (.json path)

lemma get_run_eq (s : Store) (key : String) (read? : String → Option α) :
    (s.get key read?).run = (Effect.readFile (s.keyPath key)).act >>= fun r =>
      pure (valueOf (s.keyPath key) read? r) := by
  unfold get
  rw [ExceptT.run_mk, readText_eq]
  refine congrArg (Program.perform _) (funext fun r => ?_)
  change Program.bind (.done (textOf r)) _ = .done (valueOf (s.keyPath key) read? r)
  rw [Program.bind]
  unfold valueOf
  rcases textOf r with e | text
  · cases e <;> rfl
  · simp only
    rcases read? text with _ | a <;> rfl

lemma run_get (h : Host) (s : Store) (key : String) (read? : String → Option α) :
    h.run (s.get key read?).run =
      (valueOf (s.keyPath key) read? (h.disk.read h.workingDirectory (s.keyPath key)), h) := by
  rw [get_run_eq]
  rfl

lemma valueOf_eq_ok_none {path : String} {read? : String → Option α}
    {r : Except IoError ByteArray} :
    valueOf path read? r = .ok none ↔ r = .error .notFound := by
  constructor
  · intro h
    have htext : textOf r = .error .notFound := by
      unfold valueOf at h
      split at h
      · next htext => exact htext
      · cases h
      · split at h <;> cases h
    unfold textOf at htext
    split at htext
    · cases htext
      rfl
    · split at htext <;> cases htext
  · rintro rfl
    rfl

lemma valueOf_toUTF8 {path : String} {read? : String → Option α} {text : String} {a : α}
    (h : read? text = some a) : valueOf path read? (.ok text.toUTF8) = .ok (some a) := by
  unfold valueOf
  rw [textOf_toUTF8]
  simp only [h]

end Store

namespace LegacyFile

/-- The entries of a legacy file, given what can be read from it. -/
def entriesOf (path : String) (r : Except IoError ByteArray) :
    Except StorageError (List (String × String)) :=
  match textOf r with
  | .error e => .error (.io path e)
  | .ok text =>
    match Json.read? text >>= entriesOfJson? with
    | some es => .ok es
    | none => .error (.json path)

def treeOf : Except StorageError (List (String × String)) → Option (List FileNode)
  | .error _ => none
  | .ok es => es.lookup fileTreeKey >>= FileNode.readForest?

lemma entries_run_eq (l : LegacyFile) :
    l.entries.run = (Effect.readFile l.path).act >>= fun r => pure (entriesOf l.path r) := by
  unfold entries elseFail
  rw [readText_eq]
  refine congrArg (Program.perform _) (funext fun r => ?_)
  change Program.bind (Program.bind (.done (textOf r)) _) _ = .done (entriesOf l.path r)
  rw [Program.bind]
  unfold entriesOf
  rcases textOf r with e | text
  · rfl
  · change Program.bind (.done _) _ = _
    rw [Program.bind]
    simp only [ExceptT.bindCont]
    rcases Json.read? text >>= entriesOfJson? with _ | es <;> rfl

/-- The file tree is that of what can be read; if there is none, this may be logged. -/
lemma always_fileTree {mayFail : Effect → Prop} {I : Host → Prop} {h : Host} {l : LegacyFile}
    {Q : Option (List FileNode) → Host → Prop} (hI : ∀ h', h.SameFiles h' → I h')
    (hQ : ∀ r h', h.Reads mayFail l.path r → h.SameFiles h' → Q (treeOf (entriesOf l.path r)) h') :
    l.fileTree.Always mayFail I Q h := by
  unfold fileTree
  rw [entries_run_eq]
  refine always_readFile_bind (hI h (.refl h)) ?_
  intro r hr
  have hQ := fun h' => hQ r h' hr
  have hsame : h.SameFiles h := .refl h
  rcases hes : entriesOf l.path r with e | es <;> rw [hes] at hQ
  · exact always_pure (hI h hsame) (hQ h hsame)
  · dsimp only
    rcases hlookup : es.lookup fileTreeKey with _ | text
    · rw [treeOf, hlookup] at hQ
      exact always_pure (hI h hsame) (hQ h hsame)
    · rw [treeOf, hlookup] at hQ
      dsimp only
      rcases hread : FileNode.readForest? text with _ | nodes
      · refine always_act_bind (hI h hsame) ?_
        intro _ h' hlog
        have hsame' := hlog.message fun _ => rfl
        exact always_pure (hI h' hsame') (hread ▸ hQ h' hsame')
      · exact always_pure (hI h hsame) (hread ▸ hQ h hsame)

lemma always_clear (mayFail : Effect → Prop) (l : LegacyFile) (h : Host) :
    l.clear.run.Always mayFail (h.WriteLeaves l.path) (fun _ h' => h.WriteLeaves l.path h') h := by
  have hidle : h.WriteLeaves l.path h := .inl (.refl h)
  unfold clear
  rw [ExceptT.run_mk, entries_run_eq]
  refine always_readFile_bind hidle ?_
  intro r _
  dsimp only
  split
  · exact always_pure hidle hidle
  · exact always_pure hidle hidle
  · split
    · refine always_elseFail (always_writeFile mayFail l.path _ h) ?_ ?_
      · rintro _ h' ⟨place, executable, hw⟩
        exact hw.leaves
      · rintro _ h' ⟨hleaves, -⟩
        exact hleaves
    · exact always_pure hidle hidle

end LegacyFile

end Folio
