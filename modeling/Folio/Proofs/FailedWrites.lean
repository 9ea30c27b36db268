import Folio.Command.Run
import Folio.Proofs.MadeDirectories
import Folio.Proofs.StoreWrites
import Folio.Proofs.TreeFiles

/-!
# Failed writes

Storing a value either works or changes nothing, whichever of its steps fails. If importing a
directory fails, directories for the store may have been made, but what is loaded from the store
stays the same. If it fails over what it reads nothing has changed at all.
-/

namespace Folio

open Program

/-- All that can be asked for, but taking away a file. -/
def SparesFiles (e : Effect) : Prop :=
  ∀ path, e ≠ .remove path

namespace StorageSettings

/-- The directory of the store. -/
def directory (s : StorageSettings) : String :=
  Path.join (Path.join s.dataDirectory s.database) s.collection

/-- What is loaded from the store, if it can be opened. -/
def loaded? (s : StorageSettings) (h : Host) :
    Option (Except StorageError (Option (List FileNode))) :=
  match h.run s.openStore.run with
  | (.ok store, h') => some (h'.run store.load.run).1
  | (.error _, _) => none

end StorageSettings

/-- Directories of a path may have been made, unless all of them were there. -/
structure Host.OpensAlike (path : String) (h h' : Host) : Prop where
  makesAlike : h.MakesAlike (Path.directories path) h'
  sameFiles : h.disk.isDirectory h.workingDirectory path = true → h.SameFiles h'

section Directories

variable {h h' h'' : Host} {path : String}

lemma Host.SameFiles.opensAlike (hh : h.SameFiles h') (path : String) : h.OpensAlike path h' :=
  ⟨hh.makesAlike _, fun _ => hh⟩

lemma Host.OpensAlike.trans_sameFiles (hh : h.OpensAlike path h') (hh' : h'.SameFiles h'') :
    h.OpensAlike path h'' :=
  ⟨hh.makesAlike.trans (hh'.makesAlike _), fun hdirectory => (hh.sameFiles hdirectory).trans hh'⟩

lemma stableUnder_opensAlike (mayFail : Effect → Prop) (h : Host) {q : String}
    (hq : q ∈ Path.directories path) : StableUnder mayFail (h.OpensAlike path) q := by
  intro k r k' hk hr
  refine ⟨?_, fun hdirectory => ?_⟩
  · exact stableUnder_makesAlike mayFail h (Path.pairwise_directories path) hq k r k'
      hk.makesAlike hr
  · exact stableUnder_sameFiles mayFail (Disk.isDirectory_of_mem_directories hdirectory hq) k r k'
      (hk.sameFiles hdirectory) hr

lemma always_makeDirectories_opensAlike (mayFail : Effect → Prop) {k : Host}
    (hk : h.OpensAlike path k) :
    (makeDirectories path).Always mayFail (h.OpensAlike path) (fun _ h' => h.OpensAlike path h')
      k :=
  always_makeDirectories_of (fun _ hq => stableUnder_opensAlike mayFail h hq) hk

end Directories

namespace Store

variable {root database collection : String} {h : Host}

/-- Opening a store leaves behind at most directories on the way to it. -/
lemma always_openNamed_opensAlike (mayFail : Effect → Prop) (h : Host) :
    (openNamed root database collection).run.Always mayFail (fun _ => True)
      (fun _ h' => h.OpensAlike (Path.join (Path.join root database) collection) h') h := by
  refine always_act_bind trivial ?_
  intro isThere h₁ ho
  obtain rfl := ho.isDirectory
  have hidle := (Host.SameFiles.refl h₁).opensAlike
    (Path.join (Path.join root database) collection)
  rcases isThere with _ | _
  · refine always_act_bind trivial ?_
    intro _ h₂ ho
    have hlogged := hidle.trans_sameFiles (ho.message fun _ => rfl)
    have hmade := always_makeDirectories_opensAlike mayFail hlogged
    refine Always.except_bind (always_elseFail_keeps hmade.atEnd) ?_ ?_
    · exact fun _ _ _ hh => always_pure trivial hh
    · exact fun _ _ hh => hh
  · exact always_pure trivial hidle

/-- What opening a store yields without faults. -/
def OpenYields (directory : String) (h : Host) : Except StorageError Store → Host → Prop
  | .ok s, h' => s = ⟨directory⟩ ∧ h'.workingDirectory = h.workingDirectory ∧
      h.disk.ensureAll h.workingDirectory (Path.directories directory) = some h'.disk
  | .error _, _ => h.disk.ensureAll h.workingDirectory (Path.directories directory) = none

lemma always_openNamed_ensures (root database collection : String) (h : Host) :
    (openNamed root database collection).run.Always (fun _ => False) (fun _ => True)
      (OpenYields (Path.join (Path.join root database) collection) h) h := by
  refine always_act_bind trivial ?_
  intro isThere h₁ ho
  obtain ⟨hthere, rfl⟩ := ho.eq_step id
  rcases isThere with _ | _
  · refine always_act_bind trivial ?_
    intro _ h₂ ho
    obtain ⟨hdisk, hworking⟩ := ho.message_disk fun _ => rfl
    have hmade := always_makeDirectories_ensures
      (Path.join (Path.join root database) collection) h₂
    refine Always.except_bind (always_elseFail (R := h₂.Ensures (Path.directories _)) hmade
      (fun _ _ hh => hh) fun _ _ hh => hh) ?_ ?_
    · rintro ⟨⟩ h₃ - ⟨hworking₃, hall⟩
      rw [hdisk, hworking] at hall
      exact always_pure trivial ⟨rfl, hworking₃.trans hworking, hall⟩
    · intro e h₃ hnone
      rw [Host.Ensures, hdisk, hworking] at hnone
      exact hnone
  · refine always_pure trivial ⟨rfl, rfl, ?_⟩
    exact Disk.ensureAll_of_isDirectory fun q hq =>
      Disk.isDirectory_of_mem_directories hthere.symm hq

end Store

namespace StorageSettings

variable {s : StorageSettings} {h h' : Host}

/-- What is loaded is in the file of the tree, once the directories are made. -/
lemma loaded?_eq (s : StorageSettings) (h : Host) :
    s.loaded? h =
      (h.disk.ensureAll h.workingDirectory (Path.directories s.directory)).map fun d =>
        Store.valueOf (Store.keyPath ⟨s.directory⟩ Store.fileTreeKey) FileNode.readForest?
          (d.read h.workingDirectory (Store.keyPath ⟨s.directory⟩ Store.fileTreeKey)) := by
  have hyields := (Store.always_openNamed_ensures s.dataDirectory s.database s.collection h).run
  rw [loaded?, openStore]
  rcases hrun : h.run (Store.openNamed s.dataDirectory s.database s.collection).run with
    ⟨_ | store, h'⟩
  · rw [hrun] at hyields
    have hnone : h.disk.ensureAll h.workingDirectory (Path.directories s.directory) = none :=
      hyields
    rw [hnone, Option.map_none]
  · rw [hrun] at hyields
    obtain ⟨rfl, hworking, hall⟩ := hyields
    change h.disk.ensureAll h.workingDirectory (Path.directories s.directory) = some h'.disk at hall
    change some (h'.run (Store.get _ _ _).run).1 = _
    rw [hall, Option.map_some, Store.run_get, hworking]
    rfl

lemma loaded?_congr (hh : h.MakesAlike (Path.directories s.directory) h') :
    s.loaded? h' = s.loaded? h := by
  rw [loaded?_eq, loaded?_eq]
  have hdisks := hh.ensureAll
  rcases hall : h.disk.ensureAll h.workingDirectory (Path.directories s.directory) with _ | d
  · rw [hall, Option.map_none, Option.map_eq_none_iff] at hdisks
    rw [hdisks, Option.map_none, Option.map_none]
  · rw [hall, Option.map_some, Option.map_eq_some_iff] at hdisks
    obtain ⟨d', hall', hentries⟩ := hdisks
    rw [hall', Option.map_some, Option.map_some, Disk.read, Disk.read, Disk.file?_congr hentries,
      hh.workingDirectory]

end StorageSettings

namespace Scan

variable {mayFail : Effect → Prop} {h : Host}

lemma always_collect (mayFail : Effect → Prop) (directory : String) (met : List Walked)
    (nodes : List FileNode) (h : Host) :
    (collect directory met nodes).run.Always mayFail (fun _ => True) (fun _ h' => h' = h) h := by
  induction met generalizing nodes with
  | nil => exact always_pure trivial rfl
  | cons first rest ih =>
    cases first with
    | unopened names cause => exact always_pure trivial rfl
    | found entry =>
      unfold collect
      split
      · have hread := always_readText mayFail
          (Path.join directory ("/".intercalate entry.names)) h
        have hkeeps := hread.mono (R := fun _ h' => h' = h) (fun _ _ => trivial) fun _ _ hr => hr.1
        refine Always.except_bind (always_elseFail_keeps hkeeps) ?_ ?_
        · rintro text h' - rfl
          exact ih _
        · exact fun _ _ hh => hh
      · exact ih nodes

lemma always_run (mayFail : Effect → Prop) (directory : String) (h : Host) :
    (run directory).run.Always mayFail (fun _ => True) (fun _ h' => h' = h) h := by
  refine always_act_bind trivial ?_
  intro isThere h₁ ho
  obtain rfl := ho.isDirectory
  rcases isThere with _ | _
  · exact always_pure trivial rfl
  · have hwalk : (Effect.walk directory).act.Always mayFail (fun _ => True)
        (fun _ h' => h' = h₁) h₁ := ⟨trivial, fun _ _ ho => ⟨trivial, ho.walk⟩⟩
    refine Always.except_bind (always_elseFail_keeps hwalk) ?_ ?_
    · rintro met h₂ - rfl
      exact always_collect mayFail directory met [] h₂
    · exact fun _ _ hh => hh

end Scan

namespace Command

/-- What importing a directory has left behind when a part of it has ended. After an error these
are at most directories for the store, and not even they if it is what is read that was wrong. -/
def ImportYields (settings : StorageSettings) (done : Host → Prop) (h : Host) :
    Except CommandError α → Host → Prop
  | .ok _, h' => done h'
  | .error e, h' =>
    h.OpensAlike settings.directory h' ∧ ((∃ e', e = .scan e') → h.SameFiles h')

variable {settings : StorageSettings} {h h' : Host}

lemma importYields_of_opensAlike {done : Host → Prop} {e : CommandError}
    (hopens : h.OpensAlike settings.directory h') (he : ∀ e', e ≠ .scan e') :
    ImportYields settings done h (.error e : Except CommandError α) h' :=
  ⟨hopens, fun ⟨e', heq⟩ => absurd heq (he e')⟩

lemma always_openStore (settings : StorageSettings) (h : Host) :
    (openStore settings).run.Always SparesFiles (fun _ => True)
      (ImportYields settings (h.OpensAlike settings.directory) h) h := by
  refine always_adapt (Store.always_openNamed_opensAlike SparesFiles h) ?_ ?_
  · exact fun _ _ hopens => hopens
  · exact fun _ _ hopens => importYields_of_opensAlike hopens nofun

lemma always_save (store : Store) (nodes : List FileNode)
    (hopens : h.OpensAlike settings.directory h') :
    ((store.save nodes).adapt fun _ => CommandError.treeNotSaved store.directory).run.Always
      SparesFiles (fun _ => True) (ImportYields settings (fun _ => True) h) h' := by
  have hput := store.always_put SparesFiles Store.fileTreeKey (FileNode.forestToJson nodes) h'
  refine always_adapt hput.atEnd ?_ ?_
  · exact fun _ _ _ => trivial
  · rintro e h'' (hsame | ⟨⟨path, hfault⟩, -⟩)
    · exact importYields_of_opensAlike (hopens.trans_sameFiles hsame) nofun
    · exact absurd rfl (hfault path)

lemma always_importTree (directory : String) (settings : StorageSettings) (quiet : Bool)
    (h : Host) :
    (importTree directory settings quiet).run.Always SparesFiles (fun _ => True)
      (ImportYields settings (fun _ => True) h) h := by
  refine Always.except_bind (always_adapt (R := fun _ h' => h' = h)
    (Scan.always_run SparesFiles directory h) (fun _ _ hh => hh) fun _ _ hh => hh) ?_ ?_
  · rintro nodes h₁ - rfl
    refine Always.except_bind (always_openStore settings h₁) ?_ fun _ _ hopens => hopens
    intro store h₂ _ hopens
    refine Always.except_bind (always_save store nodes hopens) ?_ fun _ _ hyields => hyields
    rintro ⟨⟩ h₃ - -
    cases quiet with
    | true => exact always_pure trivial trivial
    | false => exact ⟨trivial, fun _ _ _ => ⟨trivial, trivial⟩⟩
  · rintro e h₁ rfl
    exact ⟨(Host.SameFiles.refl h₁).opensAlike _, fun _ => .refl h₁⟩

/-- If storing a value fails nothing has changed. If importing a directory fails, the store yields
what it yielded before, all is as before if its directory was there, and also if it is the
directory that cannot be read. -/
theorem unchanged_of_error (store : Store) (key : String) (v : Json) (directory : String)
    (settings : StorageSettings) (quiet : Bool) (h h' : Host) :
    (∀ e, Reaches SparesFiles (store.put key v).run h (.done (.error e)) h' → h.SameFiles h') ∧
      ∀ e, Reaches SparesFiles (importTree directory settings quiet).run h (.done (.error e)) h' →
        settings.loaded? h' = settings.loaded? h ∧
          (h.disk.isDirectory h.workingDirectory settings.directory = true → h.SameFiles h') ∧
          ((∃ e', e = .scan e') → h.SameFiles h') := by
  constructor
  · intro e hreach
    rcases (hreach.always (store.always_put SparesFiles key v h)).2 with hsame | ⟨⟨path, hfault⟩, -⟩
    · exact hsame
    · exact absurd rfl (hfault path)
  · intro e hreach
    obtain ⟨hopens, hscan⟩ := (hreach.always (always_importTree directory settings quiet h)).2
    exact ⟨StorageSettings.loaded?_congr hopens.makesAlike, hopens.sameFiles, hscan⟩

/-- In the store a directory is in the place of the file of the tree. -/
def blockedHost : Host where
  disk := ⟨[(["docs"], .directory), (["s", "d", "c", "file_tree.json"], .directory),
    (["s", "d", "c"], .directory), (["s", "d"], .directory), (["s"], .directory)]⟩
  workingDirectory := []
  execute _ _ _ := .error .permissionDenied
  output := ""
  reports := []
  logLevel := none
  launches := []

def blockedSettings : StorageSettings := ⟨"s", "d", "c", none⟩

/-- No tree can be stored here, and what is not there cannot be imported. -/
theorem unchanged_of_error_blockedHost :
    let put := (Store.put ⟨"s/d/c"⟩ Store.fileTreeKey .null).run
    let importDocs := (importTree "docs" blockedSettings true).run
    let importMissing := (importTree "missing" blockedSettings true).run
    ((blockedHost.run put).1 = .error (.io "s/d/c/file_tree.json" .isADirectory) ∧
      blockedHost.SameFiles (blockedHost.run put).2) ∧
    ((blockedHost.run importDocs).1 = .error (.treeNotSaved "s/d/c") ∧
      blockedSettings.loaded? (blockedHost.run importDocs).2 =
        blockedSettings.loaded? blockedHost) ∧
    ((blockedHost.run importMissing).1 = .error (.scan (.notADirectory "missing")) ∧
      blockedHost.SameFiles (blockedHost.run importMissing).2) := by
  intro put importDocs importMissing
  have hput : (blockedHost.run put).1 = .error (.io "s/d/c/file_tree.json" .isADirectory) := by
    decide +kernel
  have hdocs : (blockedHost.run importDocs).1 = .error (.treeNotSaved "s/d/c") := by
    decide +kernel
  have hmissing :
      (blockedHost.run importMissing).1 = .error (.scan (.notADirectory "missing")) := by
    decide +kernel
  have hunchanged (directory : String) (h' : Host) :=
    unchanged_of_error ⟨"s/d/c"⟩ Store.fileTreeKey .null directory blockedSettings true blockedHost h'
  refine ⟨⟨hput, ?_⟩, ⟨hdocs, ?_⟩, ⟨hmissing, ?_⟩⟩
  · exact (hunchanged "docs" _).1 _ (hput ▸ Reaches.run SparesFiles put blockedHost)
  · exact ((hunchanged "docs" _).2 _ (hdocs ▸ Reaches.run SparesFiles importDocs blockedHost)).1
  · exact ((hunchanged "missing" _).2 _
      (hmissing ▸ Reaches.run SparesFiles importMissing blockedHost)).2.2 ⟨_, rfl⟩

end Command

end Folio
