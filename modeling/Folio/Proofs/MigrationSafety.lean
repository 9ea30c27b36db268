import Folio.Proofs.FileNodeJson
import Folio.Proofs.StoreWrites
import Folio.Proofs.TreeFiles
import Folio.Workspace.Migration

/-!
# Migration loses no tree

A migration passes from hosts on which the legacy file holds the tree and the store holds none to
hosts on which the store holds it. On the former the legacy file is not touched, on the latter the
file of the store is not, so that the tree can be read wherever a migration stops.
-/

namespace Folio.Migration

/-- The legacy file holds the tree, and nothing is stored. -/
structure Unsaved (s : Store) (l : LegacyFile) (nodes : List FileNode) (h : Host) : Prop where
  legacy : ∃ place content executable,
    h.disk.file? h.workingDirectory l.path = .ok (place, content, executable) ∧
      LegacyFile.treeOf (LegacyFile.entriesOf l.path (.ok content)) = some nodes
  free : h.disk.read h.workingDirectory (s.keyPath Store.fileTreeKey) = .error .notFound

/-- The tree is stored, in another file than the legacy file. -/
structure Saved (s : Store) (l : LegacyFile) (nodes : List FileNode) (h : Host) : Prop where
  stored : ∃ place executable legacy,
    h.disk.file? h.workingDirectory (s.keyPath Store.fileTreeKey) =
      .ok (place, (FileNode.forestToJson nodes).compact.toUTF8, executable) ∧
    h.disk.locate h.workingDirectory l.path = .ok legacy ∧ legacy ≠ place

variable {s : Store} {l : LegacyFile} {nodes : List FileNode} {h h' : Host}

section Readings

lemma run_load (h : Host) (s : Store) :
    (h.run s.load.run).1 = Store.valueOf (s.keyPath Store.fileTreeKey) FileNode.readForest?
      (h.disk.read h.workingDirectory (s.keyPath Store.fileTreeKey)) := by
  rw [Store.load, Store.run_get]

lemma run_fileTree (h : Host) (l : LegacyFile) :
    (h.run l.fileTree).1 =
      LegacyFile.treeOf (LegacyFile.entriesOf l.path (h.disk.read h.workingDirectory l.path)) := by
  have hnoFault : Program.Always (fun _ => False) (fun _ => True)
      (fun tree _ => tree = LegacyFile.treeOf
        (LegacyFile.entriesOf l.path (h.disk.read h.workingDirectory l.path))) l.fileTree h := by
    refine LegacyFile.always_fileTree (fun _ _ => trivial) ?_
    intro r h' hr _
    rcases hr with rfl | ⟨hfault, -⟩
    · rfl
    · exact hfault.elim
  exact hnoFault.run

lemma unsaved_iff :
    Unsaved s l nodes h ↔
      (h.run l.fileTree).1 = some nodes ∧ (h.run s.load.run).1 = .ok none := by
  rw [run_fileTree, run_load, Store.valueOf_eq_ok_none]
  constructor
  · rintro ⟨⟨place, content, executable, hfile, htree⟩, hfree⟩
    rw [Disk.read_eq_of_file? hfile]
    exact ⟨htree, hfree⟩
  · rintro ⟨htree, hfree⟩
    refine ⟨?_, hfree⟩
    rcases hread : h.disk.read h.workingDirectory l.path with e | content
    · rw [hread] at htree
      cases htree
    · obtain ⟨place, executable, hfile⟩ := Disk.exists_file?_of_read hread
      rw [hread] at htree
      exact ⟨place, content, executable, hfile, htree⟩

lemma Unsaved.readForest? (hu : Unsaved s l nodes h) :
    FileNode.readForest? (FileNode.forestToJson nodes).compact = some nodes := by
  obtain ⟨place, content, executable, -, htree⟩ := hu.legacy
  rcases hentries : LegacyFile.entriesOf l.path (.ok content) with e | es
  · rw [hentries] at htree
    cases htree
  · rw [hentries, LegacyFile.treeOf] at htree
    obtain ⟨text, -, hread⟩ := Option.bind_eq_some_iff.mp htree
    exact FileNode.readForest?_forestToJson_of_readForest? hread

lemma Saved.run_load (hs : Saved s l nodes h)
    (hread : FileNode.readForest? (FileNode.forestToJson nodes).compact = some nodes) :
    (h.run s.load.run).1 = .ok (some nodes) := by
  obtain ⟨place, executable, legacy, hfile, -⟩ := hs.stored
  rw [Migration.run_load, Disk.read_eq_of_file? hfile]
  exact Store.valueOf_toUTF8 hread

end Readings

section Stages

lemma Unsaved.of_sameFiles (hu : Unsaved s l nodes h) (hsame : h.SameFiles h') :
    Unsaved s l nodes h' := by
  obtain ⟨place, content, executable, hfile, htree⟩ := hu.legacy
  refine ⟨⟨place, content, executable, ?_, htree⟩, ?_⟩
  · rw [hsame.file?_eq, hfile]
  · rw [hsame.read_eq, hu.free]

lemma Saved.of_sameFiles (hs : Saved s l nodes h) (hsame : h.SameFiles h') :
    Saved s l nodes h' := by
  obtain ⟨place, executable, legacy, hfile, hlegacy, hne⟩ := hs.stored
  refine ⟨place, executable, legacy, ?_, ?_, hne⟩
  · rw [hsame.file?_eq, hfile]
  · rw [hsame.locate_eq, hlegacy]

lemma isPlain_fileTreeKey : Path.IsPlain (Store.fileTreeKey ++ ".json") :=
  ⟨by decide, by decide, by decide, by decide, by decide⟩

/-- As long as the tree is not stored, there is nothing at the place of its key. -/
lemma Unsaved.entry?_key (hu : Unsaved s l nodes h) {dir : List String}
    (hdir : h.disk.directory? h.workingDirectory
      (if s.directory.isEmpty then "." else s.directory) = .ok dir) :
    h.disk.locate h.workingDirectory (s.keyPath Store.fileTreeKey) =
        .ok (dir ++ [Store.fileTreeKey ++ ".json"]) ∧
      h.disk.entry? (dir ++ [Store.fileTreeKey ++ ".json"]) = none := by
  have hfree := hu.free
  have hlocate := Disk.locate_join isPlain_fileTreeKey hdir
  change h.disk.locate h.workingDirectory (s.keyPath Store.fileTreeKey) = _ at hlocate
  rw [Disk.read, Disk.file?, hlocate] at hfree
  rw [hlocate]
  split at hfree
  · cases hfree
  · next hshort =>
    rw [if_neg hshort]
    refine ⟨rfl, ?_⟩
    simp only [bind, Except.bind] at hfree
    rcases hentry : h.disk.entry? (dir ++ [Store.fileTreeKey ++ ".json"]) with _ | e
    · rfl
    · rw [hentry] at hfree
      cases e with
      | file content executable =>
        simp only at hfree
        split at hfree <;> cases hfree
      | directory => cases hfree

/-- Writing the temporary file changes neither the legacy file nor the file of the key. -/
lemma Unsaved.of_writing (hu : Unsaved s l nodes h) {dir : List String} {content : ByteArray}
    (hw : s.Writing dir content h h') : Unsaved s l nodes h' := by
  obtain ⟨place, text, executable, hfile, htree⟩ := hu.legacy
  have hnone := Disk.entry?_freshName h.disk dir Host.temporaryStem
  have hnotDirectory : h.disk.entry? (dir ++ [h.disk.freshName dir Host.temporaryStem]) ≠
      some .directory := by simp [hnone]
  obtain ⟨hkey, hfree⟩ := hu.entry?_key hw.directory
  refine ⟨⟨place, text, executable, hw.same.file? hnotDirectory ?_ hfile, htree⟩, ?_⟩
  · rintro rfl
    obtain ⟨-, hentry, -⟩ := Disk.file?_eq_ok.mp hfile
    rw [hnone] at hentry
    cases hentry
  · have hkey' := (hw.same.keepsDirectories hnotDirectory).locate hkey
    have hne : dir ++ [Store.fileTreeKey ++ ".json"] ≠
        dir ++ [h.disk.freshName dir Host.temporaryStem] := by
      intro heq
      have hname := List.singleton_inj.mp (List.append_cancel_left heq)
      exact Disk.freshName_ne h.disk dir Host.temporaryStem (c := 'n') (by decide) (by decide)
        hname.symm
    have hfree' : h'.disk.entry? (dir ++ [Store.fileTreeKey ++ ".json"]) = none := by
      rw [hw.same.entry? _ hne, hfree]
    rw [hw.same.workingDirectory, Disk.read, Disk.file?, hkey']
    simp only [bind, Except.bind, hfree']
    rfl

lemma Unsaved.saved_of_stored (hu : Unsaved s l nodes h) {place : List String}
    (hst : s.Stored Store.fileTreeKey (FileNode.forestToJson nodes) place h h') :
    Saved s l nodes h' := by
  obtain ⟨legacy, text, executable, hfile, -⟩ := hu.legacy
  obtain ⟨hlegacy, hentry, -⟩ := Disk.file?_eq_ok.mp hfile
  have hkeeps := hst.same.keepsDirectories hst.notDirectory
  refine ⟨place, false, legacy, hst.file?, ?_, ?_⟩
  · rw [hst.same.workingDirectory]
    exact hkeeps.locate hlegacy
  · intro heq
    rw [heq] at hentry
    have hkey : h.disk.file? h.workingDirectory (s.keyPath Store.fileTreeKey) =
        .ok (place, text, executable) :=
      Disk.file?_eq_ok.mpr ⟨hst.located, hentry, hst.meansFile⟩
    have hfree := hu.free
    rw [Disk.read_eq_of_file? hkey] at hfree
    cases hfree

lemma Saved.of_writeLeaves (hs : Saved s l nodes h) (hleaves : h.WriteLeaves l.path h') :
    Saved s l nodes h' := by
  rcases hleaves with hsame | ⟨goal, content, x, hw⟩
  · exact hs.of_sameFiles hsame
  · obtain ⟨place, executable, legacy, hfile, hlegacy, hne⟩ := hs.stored
    rw [hw.located] at hlegacy
    cases hlegacy
    refine ⟨place, executable, goal, hw.same.file? hw.notDirectory hne.symm hfile, ?_, hne⟩
    rw [hw.same.workingDirectory]
    exact hw.keepsDirectories.locate hw.located

end Stages

section Runs

/-- Reading yields what the disk holds. -/
def ReadsHold (mayFail : Effect → Prop) : Prop := ∀ path, ¬mayFail (.readFile path)

/-- Everything but readings. If nothing else fails, they yield what the disk holds. -/
def NotReading (e : Effect) : Prop := ∀ path, e ≠ .readFile path

lemma readsHold_notReading : ReadsHold NotReading :=
  fun path hfault => hfault path rfl

variable {mayFail : Effect → Prop}

lemma ReadsHold.eq (hreads : ReadsHold mayFail) {path : String} {r : Except IoError ByteArray}
    (hr : h.Reads mayFail path r) : r = h.disk.read h.workingDirectory path := by
  rcases hr with rfl | ⟨hfault, -⟩
  · rfl
  · exact absurd hfault (hreads path)

/-- What a migration can find and can leave behind: the tree, in one file or in the other. -/
def Holds (s : Store) (l : LegacyFile) (nodes : List FileNode) (h : Host) : Prop :=
  Unsaved s l nodes h ∨ Saved s l nodes h

lemma Unsaved.always_save (hu : Unsaved s l nodes h) (mayFail : Effect → Prop) :
    (s.save nodes).run.Always mayFail (Holds s l nodes)
      (fun r h' => r = .ok () → Saved s l nodes h') h := by
  refine (Store.always_put mayFail s Store.fileTreeKey (FileNode.forestToJson nodes) h).mono ?_ ?_
  · rintro h' (hsame | ⟨dir, content, hw⟩ | ⟨place, hst⟩)
    · exact .inl (hu.of_sameFiles hsame)
    · exact .inl (hu.of_writing hw)
    · exact .inr (hu.saved_of_stored hst)
  · rintro r h' hyields rfl
    obtain ⟨place, hst⟩ := hyields
    exact hu.saved_of_stored hst

lemma Saved.always_clear (hs : Saved s l nodes h) (mayFail : Effect → Prop) :
    l.clear.run.Always mayFail (Holds s l nodes) (fun _ h' => Saved s l nodes h') h :=
  (LegacyFile.always_clear mayFail l h).mono (fun _ hleaves => .inr (hs.of_writeLeaves hleaves))
    fun _ _ hleaves => hs.of_writeLeaves hleaves

lemma Saved.always_log (hs : Saved s l nodes h) (mayFail : Effect → Prop) (text : String)
    (outcome : Migration) :
    ((liftM (Effect.act (.log .debug Store.logArea text)) : ExceptT StorageError Program Unit) >>=
      fun _ => pure outcome).run.Always mayFail (Holds s l nodes)
        (fun _ h' => Saved s l nodes h') h := by
  refine Program.always_message_bind (fun _ => rfl) (.inr hs) ?_
  intro _ h' hsame
  have hs' := hs.of_sameFiles hsame
  exact Program.always_pure (.inr hs') hs'

lemma Unsaved.always_fileTree (hu : Unsaved s l nodes h) (mayFail : Effect → Prop) :
    l.fileTree.Always mayFail (Holds s l nodes)
      (fun tree h' => Unsaved s l nodes h' ∧
        (tree = some nodes ∨ tree = none ∧ ¬ReadsHold mayFail)) h := by
  refine LegacyFile.always_fileTree (fun h' hsame => .inl (hu.of_sameFiles hsame)) ?_
  rintro r h' hr hsame
  refine ⟨hu.of_sameFiles hsame, ?_⟩
  rcases hr with rfl | ⟨hfault, cause, rfl⟩
  · obtain ⟨place, content, executable, hfile, htree⟩ := hu.legacy
    rw [Disk.read_eq_of_file? hfile]
    exact .inl htree
  · exact .inr ⟨rfl, fun hreads => hreads _ hfault⟩

lemma Unsaved.always_load (hu : Unsaved s l nodes h) (mayFail : Effect → Prop) :
    s.load.run.Always mayFail (Holds s l nodes)
      (fun r h' => Unsaved s l nodes h' ∧ ∀ tree, r = .ok (some tree) → False) h := by
  rw [Store.load, Store.get_run_eq]
  refine Program.always_readFile_bind (.inl hu) ?_
  rintro r hr
  refine Program.always_pure (.inl hu) ⟨hu, ?_⟩
  rintro tree htree
  rcases hr with rfl | ⟨-, cause, rfl⟩
  · rw [hu.free] at htree
    cases htree
  · cases cause <;> cases htree

/-- A migration that has something to do stores the tree or leaves it where it is. -/
lemma Unsaved.always_run (hu : Unsaved s l nodes h) (mayFail : Effect → Prop) :
    (Migration.run s l).run.Always mayFail (Holds s l nodes)
      (fun r h' => (∃ outcome, r = .ok outcome) → ReadsHold mayFail → Saved s l nodes h') h := by
  unfold Migration.run
  refine Program.Always.except_bind (Program.Always.lift (hu.always_fileTree mayFail)
    (R := fun r h' => ∃ tree, r = .ok tree ∧ Unsaved s l nodes h' ∧
      (tree = some nodes ∨ tree = none ∧ ¬ReadsHold mayFail))
    fun tree h' htree => ⟨tree, rfl, htree⟩) ?_ ?_
  · rintro tree h₁ - ⟨_, ⟨⟩, hu₁, rfl | ⟨rfl, hfault⟩⟩
    · refine (hu₁.always_load mayFail).except_bind ?_ ?_
      · rintro (_ | tree) h₂ - ⟨hu₂, htree⟩
        · refine (hu₂.always_save mayFail).except_bind ?_ ?_
          · rintro ⟨⟩ h₃ - hs
            refine ((hs rfl).always_clear mayFail).except_bind ?_ ?_
            · rintro ⟨⟩ h₄ - hs'
              exact (hs'.always_log mayFail _ _).mono (fun _ hh => hh) fun _ _ hs _ _ => hs
            · rintro e h₄ hs' ⟨_, ⟨⟩⟩
          · rintro e h₃ - ⟨_, ⟨⟩⟩
        · exact (htree tree rfl).elim
      · rintro e h₂ - ⟨_, ⟨⟩⟩
    · exact Program.always_pure (.inl hu₁) fun _ hreads => (hfault hreads).elim
  · rintro e h₁ ⟨_, ⟨⟩, -⟩

lemma Saved.always_fileTree (hs : Saved s l nodes h) (mayFail : Effect → Prop) :
    l.fileTree.Always mayFail (Holds s l nodes) (fun _ h' => Saved s l nodes h') h :=
  LegacyFile.always_fileTree (fun _ hsame => .inr (hs.of_sameFiles hsame))
    fun _ _ _ hsame => hs.of_sameFiles hsame

lemma Saved.always_load (hs : Saved s l nodes h)
    (hread : FileNode.readForest? (FileNode.forestToJson nodes).compact = some nodes)
    (hreads : ReadsHold mayFail) :
    s.load.run.Always mayFail (Holds s l nodes)
      (fun r h' => Saved s l nodes h' ∧ r = .ok (some nodes)) h := by
  rw [Store.load, Store.get_run_eq]
  refine Program.always_readFile_bind (.inr hs) ?_
  rintro r hr
  obtain ⟨place, executable, legacy, hfile, -⟩ := hs.stored
  rw [hreads.eq hr, Disk.read_eq_of_file? hfile, Store.valueOf_toUTF8 hread]
  exact Program.always_pure (.inr hs) ⟨hs, rfl⟩

/-- A migration that finds the tree in the store at most clears the legacy file. -/
lemma Saved.always_run (hs : Saved s l nodes h)
    (hread : FileNode.readForest? (FileNode.forestToJson nodes).compact = some nodes)
    (hreads : ReadsHold mayFail) :
    (Migration.run s l).run.Always mayFail (Holds s l nodes)
      (fun _ h' => Saved s l nodes h') h := by
  unfold Migration.run
  refine Program.Always.except_bind (Program.Always.lift (hs.always_fileTree mayFail)
    (R := fun _ h' => Saved s l nodes h') fun _ _ hs' => hs') ?_ ?_
  · rintro (_ | tree) h₁ - hs₁
    · exact Program.always_pure (.inr hs₁) hs₁
    · refine (hs₁.always_load hread hreads).except_bind ?_ ?_
      · rintro _ h₂ - ⟨hs₂, ⟨⟩⟩
        refine (hs₂.always_clear mayFail).except_bind ?_ ?_
        · rintro ⟨⟩ h₃ - hs₃
          exact Program.always_pure (.inr hs₃) hs₃
        · rintro e h₃ hs₃
          exact hs₃
      · rintro e h₂ ⟨hs₂, -⟩
        exact hs₂
  · rintro e h₁ hs₁
    exact hs₁

/-- Once no tree is found in the legacy file, a migration changes nothing. -/
lemma always_run_of_fileTree_none (hreads : ReadsHold mayFail)
    (htree : (h.run l.fileTree).1 = none) :
    (Migration.run s l).run.Always mayFail h.SameFiles (fun r _ => r = .ok .nothingToMigrate) h := by
  have hfileTree : l.fileTree.Always mayFail h.SameFiles
      (fun tree h' => tree = none ∧ h.SameFiles h') h := by
    refine LegacyFile.always_fileTree (fun _ hsame => hsame) ?_
    intro r h' hr hsame
    rw [hreads.eq hr, ← run_fileTree]
    exact ⟨htree, hsame⟩
  unfold Migration.run
  refine Program.Always.except_bind (Program.Always.lift hfileTree
    (R := fun r h' => r = .ok none ∧ h.SameFiles h')
    fun tree h' hr => ⟨congrArg Except.ok hr.1, hr.2⟩) ?_ ?_
  · rintro _ h₁ - ⟨⟨⟩, hsame⟩
    exact Program.always_pure hsame rfl
  · rintro e h₁ ⟨⟨⟩, -⟩

/-- Wherever a migration of a tree stops, whatever fails on the way, the tree can still be read; and
a later migration that succeeds, whose readings yield what the disk holds but in which everything
else may fail, leaves it in the store. -/
theorem tree_readable_of_reaches {nodes : List FileNode} {h h' : Host}
    {rest : Program (Except StorageError Migration)} (hlegacy : (h.run l.fileTree).1 = some nodes)
    (hstore : (h.run s.load.run).1 = .ok none)
    (hreach : Reaches (fun _ => True) (Migration.run s l).run h rest h') :
    ((h'.run s.load.run).1 = .ok (some nodes) ∨ (h'.run l.fileTree).1 = some nodes) ∧
      ∀ (outcome : Migration) (h'' : Host),
        Reaches NotReading (Migration.run s l).run h' (.done (.ok outcome)) h'' →
        (h''.run s.load.run).1 = .ok (some nodes) := by
  have hu : Unsaved s l nodes h := unsaved_iff.mpr ⟨hlegacy, hstore⟩
  have hread := hu.readForest?
  have hholds : Holds s l nodes h' := (hreach.always (hu.always_run _)).here
  have hreads := readsHold_notReading
  constructor
  · rcases hholds with hu' | hs'
    · exact .inr (unsaved_iff.mp hu').1
    · exact .inl (hs'.run_load hread)
  · intro outcome h'' hlater
    have hs : Saved s l nodes h'' := by
      rcases hholds with hu' | hs'
      · exact (hlater.always (hu'.always_run _)).2 ⟨outcome, rfl⟩ hreads
      · exact (hlater.always (hs'.always_run hread hreads)).2
    exact hs.run_load hread

def hostOf (content : ByteArray) : Host :=
  ⟨⟨[(["old.json"], .file content false), (["store"], .directory)]⟩, [],
    fun _ _ _ => .error .notFound, "", [], none, []⟩

lemma isPlain_old : Path.IsPlain "old.json" :=
  ⟨by decide, by decide, by decide, by decide, by decide⟩

lemma isPlain_store : Path.IsPlain "store" :=
  ⟨by decide, by decide, by decide, by decide, by decide⟩

lemma unsaved_hostOf {content : ByteArray}
    (h : LegacyFile.treeOf (LegacyFile.entriesOf "old.json" (.ok content)) = some nodes) :
    Unsaved ⟨"store"⟩ ⟨"old.json"⟩ nodes (hostOf content) := by
  have hlegacy : (hostOf content).disk.locate [] "old.json" = .ok ["old.json"] :=
    Disk.locate_plain isPlain_old rfl (by decide)
  have hdir : (hostOf content).disk.directory? []
      (if "store".isEmpty then "." else "store") = .ok ["store"] := by
    rw [if_neg (by decide)]
    exact Disk.directory?_eq_ok.mpr ⟨Disk.locate_plain isPlain_store rfl (by decide), rfl⟩
  have hkey : (hostOf content).disk.locate [] (Store.keyPath ⟨"store"⟩ Store.fileTreeKey) =
      .ok (["store"] ++ [Store.fileTreeKey ++ ".json"]) := by
    have hjoin : Store.keyPath ⟨"store"⟩ Store.fileTreeKey = "store/file_tree.json" := by
      simp [Store.keyPath, Store.fileTreeKey, Path.join, String.startsWith_char_eq_head?,
        String.endsWith_char_eq_getLast?]
    have hlocate := Disk.locate_join isPlain_fileTreeKey hdir
    rw [← Store.keyPath.eq_1 ⟨"store"⟩ Store.fileTreeKey, hjoin, if_neg (by decide)] at hlocate
    rw [hjoin, hlocate]
  refine ⟨⟨["old.json"], content, false, ?_, h⟩, ?_⟩
  · exact Disk.file?_eq_ok.mpr ⟨hlegacy, rfl, isPlain_old.meansDirectory_eq⟩
  · change (hostOf content).disk.read [] _ = _
    rw [Disk.read, Disk.file?, hkey]
    rfl

lemma treeOf_entriesOf_compact (path : String)
    (h : (FileNode.forestToJson nodes).depth < Json.nestingLimit) :
    LegacyFile.treeOf (LegacyFile.entriesOf path (.ok (Json.object
      [(LegacyFile.fileTreeKey, .string (FileNode.forestToJson nodes).compact)]).compact.toUTF8)) =
        some nodes := by
  have hwritable : (Json.object
      [(LegacyFile.fileTreeKey, .string (FileNode.forestToJson nodes).compact)]).Writable := by
    simp [Json.Writable, Json.FieldsWritable]
  have hentries : LegacyFile.entriesOf path (.ok (Json.object
      [(LegacyFile.fileTreeKey, .string (FileNode.forestToJson nodes).compact)]).compact.toUTF8) =
        .ok [(LegacyFile.fileTreeKey, (FileNode.forestToJson nodes).compact)] := by
    simp only [LegacyFile.entriesOf, Program.textOf_toUTF8, Json.read?_compact hwritable]
    rfl
  rw [hentries, LegacyFile.treeOf, List.lookup_cons_self, Option.bind_eq_bind, Option.bind_some,
    FileNode.readForest?_forestToJson h]

def folderTree : List FileNode := [.folder "d" "docs" []]

/-- A legacy file with a folder, and an empty store. -/
def legacyHost : Host :=
  hostOf (Json.object
    [(LegacyFile.fileTreeKey, .string (FileNode.forestToJson folderTree).compact)]).compact.toUTF8

/-- A host on which a migration stopped when it had emptied the legacy file, to write it anew. -/
def stoppedHost : Host :=
  (legacyHost.runFor 7 (Migration.run ⟨"store"⟩ ⟨"old.json"⟩).run).2

lemma read_stoppedHost :
    stoppedHost.disk.read stoppedHost.workingDirectory "old.json" = .ok ByteArray.empty := by
  decide +kernel

/-- A folder is not lost then, and another migration leaves it in the store. -/
theorem tree_readable_of_reaches_folder :
    (legacyHost.run (LegacyFile.fileTree ⟨"old.json"⟩)).1 = some folderTree ∧
      (legacyHost.run (Store.load ⟨"store"⟩).run).1 = .ok none ∧
      stoppedHost.disk.read stoppedHost.workingDirectory "old.json" = .ok ByteArray.empty ∧
      ((stoppedHost.run (Store.load ⟨"store"⟩).run).1 = .ok (some folderTree) ∨
        (stoppedHost.run (LegacyFile.fileTree ⟨"old.json"⟩)).1 = some folderTree) ∧
      ((stoppedHost.run (Migration.run ⟨"store"⟩ ⟨"old.json"⟩).run).2.run
        (Store.load ⟨"store"⟩).run).1 = .ok (some folderTree) := by
  have hdepth : (FileNode.forestToJson folderTree).depth < Json.nestingLimit := by decide
  have hu : Unsaved ⟨"store"⟩ ⟨"old.json"⟩ folderTree legacyHost :=
    unsaved_hostOf (treeOf_entriesOf_compact "old.json" hdepth)
  obtain ⟨hlegacy, hstore⟩ := unsaved_iff.mp hu
  have hreach := Reaches.runFor (fun _ => True) 7 (Migration.run ⟨"store"⟩ ⟨"old.json"⟩).run
    legacyHost
  have htree : (stoppedHost.run (LegacyFile.fileTree ⟨"old.json"⟩)).1 = none := by
    rw [run_fileTree, read_stoppedHost]
    decide +kernel
  have hnothing : (stoppedHost.run (Migration.run ⟨"store"⟩ ⟨"old.json"⟩).run).1 =
      .ok .nothingToMigrate :=
    (always_run_of_fileTree_none readsHold_notReading htree).run
  have hrun := Reaches.run NotReading (Migration.run ⟨"store"⟩ ⟨"old.json"⟩).run stoppedHost
  rw [hnothing] at hrun
  obtain ⟨hreadable, hlater⟩ := tree_readable_of_reaches hlegacy hstore hreach
  exact ⟨hlegacy, hstore, read_stoppedHost, hreadable, hlater _ _ hrun⟩

end Runs

end Folio.Migration
