import Folio.Proofs.LegacyEntries
import Folio.Proofs.MigrationSafety

/-!
# What migrations report

A migration that succeeds reports one of three things. Each of them is tied to what the two files
held before, and says what they hold afterwards.
-/

namespace Folio.Migration

/-- The legacy file holds some entries, and another file the stored tree. -/
structure Beside (s : Store) (l : LegacyFile) (es : List (String × String))
    (nodes : List FileNode) (h : Host) : Prop where
  files : ∃ place content executable key stored executable',
    h.disk.file? h.workingDirectory l.path = .ok (place, content, executable) ∧
      LegacyFile.entriesOf l.path (.ok content) = .ok es ∧
      h.disk.file? h.workingDirectory (s.keyPath Store.fileTreeKey) =
        .ok (key, stored, executable') ∧
      Store.valueOf (s.keyPath Store.fileTreeKey) FileNode.readForest? (.ok stored) =
        .ok (some nodes) ∧
      place ≠ key

/-- What a migration that succeeds finds and leaves behind. -/
inductive Leads (s : Store) (l : LegacyFile) (h : Host) : Migration → Host → Prop where
  | nothing {h' : Host} (tree : (h.run l.fileTree).1 = none) (same : h.SameFiles h') :
    Leads s l h .nothingToMigrate h'
  | already {nodes stored : List FileNode} {es : List (String × String)} {h' : Host}
    (tree : (h.run l.fileTree).1 = some nodes) (load : (h.run s.load.run).1 = .ok (some stored))
    (entries : l.entriesAt h = .ok es) (beside : Beside s l (LegacyFile.others es) stored h') :
    Leads s l h .alreadyMigrated h'
  | migrated {nodes : List FileNode} {es : List (String × String)} {h' : Host}
    (tree : (h.run l.fileTree).1 = some nodes) (load : (h.run s.load.run).1 = .ok none)
    (entries : l.entriesAt h = .ok es) (beside : Beside s l (LegacyFile.others es) nodes h') :
    Leads s l h (.migrated (FileNode.countAll nodes)) h'

variable {s : Store} {l : LegacyFile} {es : List (String × String)} {nodes stored : List FileNode}
  {h h' : Host}

section Files

lemma exists_object_of_entriesOf {path : String} {content : ByteArray}
    (hes : LegacyFile.entriesOf path (.ok content) = .ok es) :
    ∃ text fields, Program.textOf (.ok content) = .ok text ∧
      Json.read? text = some (.object fields) := by
  unfold LegacyFile.entriesOf at hes
  split at hes
  · cases hes
  · next text htext =>
    split at hes
    · next es' hread =>
      obtain ⟨v, hv, hobject⟩ := Option.bind_eq_some_iff.mp hread
      unfold LegacyFile.entriesOfJson? at hobject
      split at hobject
      · next fields => exact ⟨text, fields, htext, hv⟩
      · cases hobject
    · cases hes

lemma exists_array_of_valueOf {path : String} {content : ByteArray}
    (hvalue : Store.valueOf path FileNode.readForest? (.ok content) = .ok (some nodes)) :
    ∃ text items, Program.textOf (.ok content) = .ok text ∧
      Json.read? text = some (.array items) := by
  unfold Store.valueOf at hvalue
  split at hvalue
  · cases hvalue
  · cases hvalue
  · next text htext =>
    split at hvalue
    · next nodes' hread =>
      obtain ⟨v, hv, harray⟩ := Option.bind_eq_some_iff.mp hread
      unfold FileNode.forestOfJson? at harray
      split at harray
      · next items => exact ⟨text, items, htext, hv⟩
      · cases harray
    · cases hvalue

/-- An object of texts is no forest, so that the two files are not one. -/
lemma beside_of_entries_of_load (hes : l.entriesAt h = .ok es)
    (hload : (h.run s.load.run).1 = .ok (some stored)) : Beside s l es stored h := by
  rw [run_load] at hload
  obtain ⟨content, hcontent⟩ : ∃ content, h.disk.read h.workingDirectory l.path = .ok content := by
    rcases hread : h.disk.read h.workingDirectory l.path with e | content
    · rw [LegacyFile.entriesAt, hread] at hes
      cases hes
    · exact ⟨content, rfl⟩
  obtain ⟨value, hvalue⟩ : ∃ value, h.disk.read h.workingDirectory
      (s.keyPath Store.fileTreeKey) = .ok value := by
    rcases hread : h.disk.read h.workingDirectory (s.keyPath Store.fileTreeKey) with e | value
    · rw [hread] at hload
      cases e <;> cases hload
    · exact ⟨value, rfl⟩
  rw [LegacyFile.entriesAt, hcontent] at hes
  rw [hvalue] at hload
  obtain ⟨place, x, hfile⟩ := Disk.exists_file?_of_read hcontent
  obtain ⟨key, x', hfile'⟩ := Disk.exists_file?_of_read hvalue
  refine ⟨⟨place, content, x, key, value, x', hfile, hes, hfile', hload, ?_⟩⟩
  rintro rfl
  obtain ⟨-, hentry, -⟩ := Disk.file?_eq_ok.mp hfile
  obtain ⟨-, hentry', -⟩ := Disk.file?_eq_ok.mp hfile'
  obtain ⟨rfl, -⟩ : content = value ∧ x = x' := by simpa [hentry] using hentry'
  obtain ⟨text, fields, htext, hobject⟩ := exists_object_of_entriesOf hes
  obtain ⟨text', items, htext', harray⟩ := exists_array_of_valueOf hload
  cases htext.symm.trans htext'
  cases hobject.symm.trans harray

lemma Beside.entriesAt (hb : Beside s l es nodes h) : l.entriesAt h = .ok es := by
  obtain ⟨place, content, x, key, value, x', hfile, hes, -⟩ := hb.files
  rw [LegacyFile.entriesAt, Disk.read_eq_of_file? hfile, hes]

lemma Beside.run_load (hb : Beside s l es nodes h) :
    (h.run s.load.run).1 = .ok (some nodes) := by
  obtain ⟨place, content, x, key, value, x', -, -, hfile, hvalue, -⟩ := hb.files
  rw [Migration.run_load, Disk.read_eq_of_file? hfile, hvalue]

lemma Beside.of_sameFiles (hb : Beside s l es nodes h) (hsame : h.SameFiles h') :
    Beside s l es nodes h' := by
  obtain ⟨place, content, x, key, value, x', hfile, hes, hfile', hvalue, hne⟩ := hb.files
  refine ⟨⟨place, content, x, key, value, x', ?_, hes, ?_, hvalue, hne⟩⟩
  · rw [hsame.file?_eq, hfile]
  · rw [hsame.file?_eq, hfile']

/-- Storing a tree leaves the legacy file as it is. -/
lemma Unsaved.beside_of_stored (hu : Unsaved s l nodes h) (hes : l.entriesAt h = .ok es)
    {key : List String}
    (hst : s.Stored Store.fileTreeKey (FileNode.forestToJson nodes) key h h') :
    Beside s l es nodes h' := by
  obtain ⟨place, content, x, hfile, -⟩ := hu.legacy
  obtain ⟨key', x', legacy, hstored, hlegacy, hne⟩ := (hu.saved_of_stored hst).stored
  obtain ⟨hlocate, -⟩ := Disk.file?_eq_ok.mp hfile
  have hkeeps := hst.same.keepsDirectories hst.notDirectory
  rw [hst.same.workingDirectory, hkeeps.locate hlocate] at hlegacy
  cases hlegacy
  rw [hst.file?] at hstored
  cases hstored
  rw [LegacyFile.entriesAt, Disk.read_eq_of_file? hfile] at hes
  exact ⟨⟨place, content, x, key, _, false, hst.same.file? hst.notDirectory hne hfile, hes,
    hst.file?, Store.valueOf_toUTF8 hu.readForest?, hne⟩⟩

/-- Clearing the legacy file takes the tree from it and leaves the stored tree as it is. -/
lemma Beside.of_clears (hb : Beside s l es nodes h) (hclears : l.Clears es h h') :
    Beside s l (LegacyFile.others es) nodes h' := by
  rcases hclears with ⟨hsame, hlookup⟩ | ⟨goal, y, hw⟩
  · rw [LegacyFile.others_eq_self hlookup]
    exact hb.of_sameFiles hsame
  · obtain ⟨place, content, x, key, value, x', hfile, hes, hfile', hvalue, hne⟩ := hb.files
    obtain ⟨hlocate, -⟩ := Disk.file?_eq_ok.mp hfile
    cases hw.located.symm.trans hlocate
    have hsorted := LegacyFile.isSorted_of_entriesOf hes
    exact ⟨⟨goal, _, y, key, value, x', hw.file,
      LegacyFile.entriesOf_indented l.path (LegacyFile.isSorted_others hsorted),
      hw.same.file? hw.notDirectory hne.symm hfile', hvalue, hne⟩⟩

end Files

section Runs

variable {mayFail : Effect → Prop}

lemma exists_entries_of_fileTree (htree : (h.run l.fileTree).1 = some nodes) :
    ∃ es, l.entriesAt h = .ok es := by
  rw [run_fileTree] at htree
  rcases hes : l.entriesAt h with e | es
  · rw [LegacyFile.entriesAt] at hes
    rw [hes] at htree
    cases htree
  · exact ⟨es, rfl⟩

lemma always_fileTree_eq (hreads : ReadsHold mayFail) (l : LegacyFile) (h : Host) :
    l.fileTree.Always mayFail (fun _ => True)
      (fun tree h' => tree = (h.run l.fileTree).1 ∧ h.SameFiles h') h := by
  refine LegacyFile.always_fileTree (fun _ _ => trivial) ?_
  intro r h' hr hsame
  rw [hreads.eq hr, run_fileTree]
  exact ⟨rfl, hsame⟩

lemma always_load_eq (hreads : ReadsHold mayFail) (s : Store) (h : Host) :
    s.load.run.Always mayFail (fun _ => True)
      (fun r h' => r = (h.run s.load.run).1 ∧ h' = h) h := by
  rw [run_load, Store.load, Store.get_run_eq]
  refine Program.always_readFile_bind trivial ?_
  intro r hr
  rw [hreads.eq hr]
  exact Program.always_pure trivial ⟨rfl, rfl⟩

lemma Beside.always_clear (hb : Beside s l es nodes h) (hreads : ReadsHold mayFail) :
    l.clear.run.Always mayFail (fun _ => True)
      (fun r h' => r = .ok () → Beside s l (LegacyFile.others es) nodes h') h :=
  (LegacyFile.always_clear_clears hreads hb.entriesAt).mono (fun _ hI => hI)
    fun _ _ hclears hr => hb.of_clears (hclears hr)

/-- Saving the tree and clearing the legacy file, one after the other. -/
lemma Unsaved.always_move (hu : Unsaved s l nodes h) (hes : l.entriesAt h = .ok es)
    (hreads : ReadsHold mayFail) (text : String) (outcome : Migration) :
    (do s.save nodes; l.clear; liftM (Effect.act (.log .debug Store.logArea text))
        return outcome : ExceptT StorageError Program Migration).run.Always mayFail
      (fun _ => True) (fun r h' => ∀ outcome', r = .ok outcome' →
        outcome' = outcome ∧ Beside s l (LegacyFile.others es) nodes h') h := by
  have hput := (Store.always_put mayFail s Store.fileTreeKey (FileNode.forestToJson nodes) h).mono
    (J := fun _ => True) (fun _ _ => trivial) fun _ _ hyields => hyields
  refine hput.except_bind ?_ ?_
  · rintro ⟨⟩ h₁ - ⟨key, hst⟩
    refine ((hu.beside_of_stored hes hst).always_clear hreads).except_bind ?_ ?_
    · rintro ⟨⟩ h₂ - hb
      refine Program.always_message_bind (fun _ => rfl) trivial ?_
      intro _ h₃ hsame
      refine Program.always_pure trivial ?_
      rintro _ ⟨⟩
      exact ⟨rfl, (hb rfl).of_sameFiles hsame⟩
    · rintro e h₂ - _ ⟨⟩
  · rintro e h₁ - _ ⟨⟩

/-- A migration whose readings yield what the disk holds, whatever else may fail. -/
lemma always_run_leads (hreads : ReadsHold mayFail) (s : Store) (l : LegacyFile) (h : Host) :
    (Migration.run s l).run.Always mayFail (fun _ => True)
      (fun r h' => ∀ outcome, r = .ok outcome → Leads s l h outcome h') h := by
  unfold Migration.run
  refine Program.Always.except_bind (Program.Always.lift (always_fileTree_eq hreads l h)
    (R := fun r h' => ∃ tree, r = .ok tree ∧ tree = (h.run l.fileTree).1 ∧ h.SameFiles h')
    fun tree h' htree => ⟨tree, rfl, htree⟩) ?_ ?_
  · rintro tree h₁ - ⟨_, ⟨⟩, htree, hsame⟩
    have hload : (h₁.run s.load.run).1 = (h.run s.load.run).1 := by
      rw [run_load, run_load, hsame.read_eq]
    rcases tree with _ | nodes
    · refine Program.always_pure trivial ?_
      rintro _ ⟨⟩
      exact .nothing htree.symm hsame
    obtain ⟨es, hes⟩ := exists_entries_of_fileTree htree.symm
    have hes₁ : l.entriesAt h₁ = .ok es := by
      rw [LegacyFile.entriesAt, hsame.read_eq]
      exact hes
    refine (always_load_eq hreads s h₁).except_bind ?_ ?_
    · rintro (_ | stored) h₂ - ⟨hr, rfl⟩
      · rw [hload] at hr
        have hu : Unsaved s l nodes h := unsaved_iff.mpr ⟨htree.symm, hr.symm⟩
        refine ((hu.of_sameFiles hsame).always_move hes₁ hreads _ _).mono (fun _ hI => hI) ?_
        rintro _ h₃ hmoved outcome rfl
        obtain ⟨rfl, hb⟩ := hmoved outcome rfl
        exact .migrated htree.symm hr.symm hes hb
      · have hb := beside_of_entries_of_load hes₁ hr.symm
        rw [hload] at hr
        refine (hb.always_clear hreads).except_bind ?_ ?_
        · rintro ⟨⟩ h₃ - hb'
          refine Program.always_pure trivial ?_
          rintro _ ⟨⟩
          exact .already htree.symm hr.symm hes (hb' rfl)
        · rintro e h₃ - _ ⟨⟩
    · rintro e h₂ - _ ⟨⟩
  · rintro e h₁ ⟨_, ⟨⟩, -⟩

end Runs

section Outcomes

/-- What a migration that succeeds tells of the files before it, and what it leaves behind. -/
structure Accounts (s : Store) (l : LegacyFile) (h : Host) (outcome : Migration) (h' : Host) :
    Prop where
  migrated : ∀ n, outcome = .migrated n ↔ ∃ nodes, (h.run l.fileTree).1 = some nodes ∧
    (h.run s.load.run).1 = .ok none ∧ n = FileNode.countAll nodes
  load_migrated : ∀ n nodes, outcome = .migrated n → (h.run l.fileTree).1 = some nodes →
    (h'.run s.load.run).1 = .ok (some nodes)
  alreadyMigrated : outcome = .alreadyMigrated ↔ ∃ nodes stored,
    (h.run l.fileTree).1 = some nodes ∧ (h.run s.load.run).1 = .ok (some stored)
  load_alreadyMigrated : outcome = .alreadyMigrated →
    (h'.run s.load.run).1 = (h.run s.load.run).1
  nothingToMigrate : outcome = .nothingToMigrate ↔ (h.run l.fileTree).1 = none
  sameFiles : outcome = .nothingToMigrate → h.SameFiles h'
  /-- The legacy file loses the tree and nothing else. -/
  entries : outcome ≠ .nothingToMigrate → ∃ es, (h.run l.entries.run).1 = .ok es ∧
    (h'.run l.entries.run).1 = .ok (es.filter (·.1 != LegacyFile.fileTreeKey))
  fileTree : (h'.run l.fileTree).1 = none
  /-- A second migration has nothing to do. -/
  again : (Migration.run s l).run.Always NotReading h'.SameFiles
    (fun r _ => r = .ok .nothingToMigrate) h'

lemma Beside.fileTree_eq_none (hb : Beside s l (LegacyFile.others es) nodes h) :
    (h.run l.fileTree).1 = none := by
  have hes := hb.entriesAt
  rw [LegacyFile.entriesAt] at hes
  rw [run_fileTree, hes, LegacyFile.treeOf, LegacyFile.lookup_others_fileTreeKey]
  rfl

lemma Leads.fileTree_eq_none {outcome : Migration} (hleads : Leads s l h outcome h') :
    (h'.run l.fileTree).1 = none := by
  cases hleads with
  | nothing tree same => rwa [run_fileTree, same.read_eq, ← run_fileTree]
  | already tree load entries beside => exact beside.fileTree_eq_none
  | migrated tree load entries beside => exact beside.fileTree_eq_none

/-- A successful migration, whose readings yield what the disk holds but in which everything else
may fail, reports what was there and has done what it reports. -/
theorem accounts_of_reaches {outcome : Migration}
    (hreach : Reaches NotReading (Migration.run s l).run h (.done (.ok outcome)) h') :
    Accounts s l h outcome h' := by
  have hleads : Leads s l h outcome h' :=
    (hreach.always (always_run_leads readsHold_notReading s l h)).2 outcome rfl
  have hnone := hleads.fileTree_eq_none
  have hagain := always_run_of_fileTree_none (s := s) readsHold_notReading hnone
  cases hleads with
  | nothing tree same => exact
    { migrated := by simp [tree]
      load_migrated := by simp
      alreadyMigrated := by simp [tree]
      load_alreadyMigrated := by simp
      nothingToMigrate := by simp [tree]
      sameFiles := fun _ => same
      entries := by simp
      fileTree := hnone
      again := hagain }
  | already tree load entries beside => exact
    { migrated := by simp [tree, load]
      load_migrated := by simp
      alreadyMigrated := by simp [tree, load]
      load_alreadyMigrated := fun _ => beside.run_load.trans load.symm
      nothingToMigrate := by simp [tree]
      sameFiles := by simp
      entries := fun _ => ⟨_, by rw [LegacyFile.run_entries, entries],
        by rw [LegacyFile.run_entries, beside.entriesAt, LegacyFile.others]⟩
      fileTree := hnone
      again := hagain }
  | migrated tree load entries beside => exact
    { migrated := by simp [tree, load, eq_comm]
      load_migrated := by
        rintro n nodes - htree
        rw [tree] at htree
        cases htree
        exact beside.run_load
      alreadyMigrated := by simp [tree, load]
      load_alreadyMigrated := by simp
      nothingToMigrate := by simp [tree]
      sameFiles := by simp
      entries := fun _ => ⟨_, by rw [LegacyFile.run_entries, entries],
        by rw [LegacyFile.run_entries, beside.entriesAt, LegacyFile.others]⟩
      fileTree := hnone
      again := hagain }

/-- A legacy file with a folder, which has no list of children, and another entry. -/
def folderHost : Host :=
  hostOf (LegacyFile.toJson
    [(LegacyFile.fileTreeKey, "[\x7b\"id\":\"d\",\"name\":\"d\",\"kind\":1\x7d]"),
      ("theme", "dark")]).compact.toUTF8

/-- A folder is migrated. -/
theorem accounts_of_reaches_folder :
    Accounts ⟨"store"⟩ ⟨"old.json"⟩ folderHost (.migrated 1)
      (folderHost.run (Migration.run ⟨"store"⟩ ⟨"old.json"⟩).run).2 := by
  have houtcome : (folderHost.run (Migration.run ⟨"store"⟩ ⟨"old.json"⟩).run).1 =
      .ok (.migrated 1) := by decide +kernel
  apply accounts_of_reaches
  rw [← houtcome]
  exact .run _ _ folderHost

/-- A store that has a tree keeps it, and the legacy file keeps its other entries; the tree is taken
from the legacy file exactly if it can be read. A text that is no tree stays there, as if the store
had none. -/
theorem lookup_eq_none_iff_of_reaches {outcome : Migration}
    (hload : (h.run s.load.run).1 = .ok (some stored)) (hes : (h.run l.entries.run).1 = .ok es)
    (hreach : Reaches NotReading (Migration.run s l).run h (.done (.ok outcome)) h') :
    (h'.run s.load.run).1 = .ok (some stored) ∧
      ∃ es', (h'.run l.entries.run).1 = .ok es' ∧
        es'.filter (·.1 != LegacyFile.fileTreeKey) = es.filter (·.1 != LegacyFile.fileTreeKey) ∧
        (es'.lookup LegacyFile.fileTreeKey = none ↔
          ∀ text, es.lookup LegacyFile.fileTreeKey = some text →
            FileNode.readForest? text ≠ none) ∧
        (es'.lookup LegacyFile.fileTreeKey ≠ none →
          outcome = .nothingToMigrate ∧ h.SameFiles h') := by
  have hleads : Leads s l h outcome h' :=
    (hreach.always (always_run_leads readsHold_notReading s l h)).2 outcome rfl
  rw [LegacyFile.run_entries] at hes ⊢
  dsimp only at hes ⊢
  have htreeOf : (h.run l.fileTree).1 =
      (es.lookup LegacyFile.fileTreeKey).bind FileNode.readForest? := by
    rw [run_fileTree, ← LegacyFile.entriesAt, hes]
    rfl
  cases hleads with
  | nothing tree same =>
    rw [htreeOf] at tree
    refine ⟨?_, es, ?_, rfl, ?_, fun _ => ⟨rfl, same⟩⟩
    · rw [run_load, same.read_eq, ← run_load, hload]
    · rw [LegacyFile.entriesAt, same.read_eq]
      exact hes
    · rcases hlookup : es.lookup LegacyFile.fileTreeKey with _ | text
      · simp
      · rw [hlookup] at tree
        simpa using tree
  | already tree load entries beside =>
    obtain rfl := Except.ok.inj (hes.symm.trans entries)
    rw [hload] at load
    cases load
    rw [htreeOf] at tree
    refine ⟨beside.run_load, LegacyFile.others es, beside.entriesAt, ?_, ?_, fun hkey => ?_⟩
    · simp [LegacyFile.others, List.filter_filter]
    · rw [LegacyFile.lookup_others_fileTreeKey, eq_self_iff_true, true_iff]
      intro text htext
      rw [htext] at tree
      exact Option.ne_none_iff_exists'.mpr ⟨_, tree⟩
    · exact absurd (LegacyFile.lookup_others_fileTreeKey es) hkey
  | migrated tree load entries beside =>
    rw [hload] at load
    cases load

def storedTree : List FileNode := [.file "a" "a.md" "# A"]

/-- A legacy file with a text that is no tree, and a store that holds a tree. -/
def garbledHost : Host :=
  ⟨⟨[(["old.json"], .file (LegacyFile.toJson
      [(LegacyFile.fileTreeKey, "[oops"), ("theme", "dark")]).compact.toUTF8 false),
    (["store", "file_tree.json"], .file (FileNode.forestToJson storedTree).compact.toUTF8 false),
    (["store"], .directory)]⟩, [], fun _ _ _ => .error .notFound, "", [], none, []⟩

/-- The text stays in the legacy file, although the store has a tree. -/
theorem lookup_eq_none_iff_of_reaches_garbled :
    let after := (garbledHost.run (Migration.run ⟨"store"⟩ ⟨"old.json"⟩).run).2
    (after.run (Store.load ⟨"store"⟩).run).1 = .ok (some storedTree) ∧
      ∃ es, (after.run (LegacyFile.entries ⟨"old.json"⟩).run).1 = .ok es ∧
        es.lookup LegacyFile.fileTreeKey ≠ none := by
  have hread : garbledHost.disk.read garbledHost.workingDirectory
      (Store.keyPath ⟨"store"⟩ Store.fileTreeKey) =
        .ok (FileNode.forestToJson storedTree).compact.toUTF8 := by decide +kernel
  have hload : (garbledHost.run (Store.load ⟨"store"⟩).run).1 = .ok (some storedTree) := by
    rw [run_load, hread]
    exact Store.valueOf_toUTF8 (FileNode.readForest?_forestToJson (by decide))
  have hes : (garbledHost.run (LegacyFile.entries ⟨"old.json"⟩).run).1 =
      .ok [(LegacyFile.fileTreeKey, "[oops"), ("theme", "dark")] := by decide +kernel
  have houtcome : (garbledHost.run (Migration.run ⟨"store"⟩ ⟨"old.json"⟩).run).1 =
      .ok .nothingToMigrate := by decide +kernel
  have hreach := Reaches.run NotReading (Migration.run ⟨"store"⟩ ⟨"old.json"⟩).run garbledHost
  rw [houtcome] at hreach
  obtain ⟨hstored, es, hafter, -, hkey, -⟩ := lookup_eq_none_iff_of_reaches hload hes hreach
  refine ⟨hstored, es, hafter, fun hnone => hkey.mp hnone "[oops" (by decide) ?_⟩
  decide +kernel

end Outcomes

end Folio.Migration
