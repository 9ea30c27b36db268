import Folio.Proofs.FreshNames
import Folio.Proofs.Interruption
import Folio.Proofs.SameFiles
import Folio.Workspace.Store

/-!
# Writing to a store

A value is stored in three stages. Until the last one, the disk differs from what it was at most by
a file with a fresh name; after it, at most by the file of the key, which holds the whole value.
-/

namespace Folio

namespace Store

/-- A file with a fresh name in the store's directory holds `content`, and nothing else changed. -/
structure Writing (s : Store) (dir : List String) (content : ByteArray) (h h' : Host) :
    Prop where
  directory : h.disk.directory? h.workingDirectory
    (if s.directory.isEmpty then "." else s.directory) = .ok dir
  same : h.SameFilesBut (dir ++ [h.disk.freshName dir Host.temporaryStem]) h'
  file : h'.disk.file? h.workingDirectory
    (Path.join s.directory (h.disk.freshName dir Host.temporaryStem)) =
      .ok (dir ++ [h.disk.freshName dir Host.temporaryStem], content, false)

/-- The file of a key holds a value, and nothing else changed. -/
structure Stored (s : Store) (key : String) (v : Json) (place : List String) (h h' : Host) :
    Prop where
  located : h.disk.locate h.workingDirectory (s.keyPath key) = .ok place
  notDirectory : h.disk.entry? place ≠ some .directory
  meansFile : Path.meansDirectory (s.keyPath key) = false
  same : h.SameFilesBut place h'
  file : h'.disk.entry? place = some (.file v.compact.toUTF8 false)

variable {s : Store} {key : String} {v : Json} {dir : List String} {content : ByteArray}
  {h h' : Host}

lemma isPlain_temporary (d : Disk) (dir : List String) :
    Path.IsPlain (d.freshName dir Host.temporaryStem) :=
  Disk.isPlain_freshName d dir (by decide) (by decide)

lemma writing_of_createFresh {path : String} {d : Disk}
    (hfresh : h.disk.createFresh h.workingDirectory s.directory Host.temporaryStem
      (.file ByteArray.empty false) = .ok (path, d)) :
    ∃ dir, path = Path.join s.directory (h.disk.freshName dir Host.temporaryStem) ∧
      s.Writing dir ByteArray.empty h { h with disk := d } := by
  obtain ⟨dir, hdir, rfl, -, hgoal, rfl⟩ :=
    Disk.exists_place_of_createFresh (by decide) (by decide) hfresh
  have hplain := isPlain_temporary h.disk dir
  have hnone := Disk.entry?_freshName h.disk dir Host.temporaryStem
  refine ⟨dir, rfl, hdir, h.sameFilesBut_put _ _, ?_⟩
  exact Disk.file?_put _ _ hgoal (by simp [hnone]) (hplain.meansDirectory_join s.directory)

lemma Writing.append (hw : s.Writing dir content h h') {bytes : ByteArray} {d : Disk}
    (happend : h'.disk.append h'.workingDirectory
      (Path.join s.directory (h.disk.freshName dir Host.temporaryStem)) bytes = .ok d) :
    s.Writing dir (content ++ bytes) h { h' with disk := d } := by
  rw [hw.same.workingDirectory] at happend
  obtain ⟨rfl, hfile⟩ := Disk.append_of_file? hw.file happend
  exact ⟨hw.directory, hw.same.put _, hfile⟩

lemma Writing.remove (hw : s.Writing dir content h h') {d : Disk}
    (hremove : h'.disk.remove h'.workingDirectory
      (Path.join s.directory (h.disk.freshName dir Host.temporaryStem)) = .ok d) :
    h.SameFiles { h' with disk := d } := by
  rw [hw.same.workingDirectory] at hremove
  obtain ⟨place, old, executable, hfile, rfl⟩ := Disk.remove_eq_ok.mp hremove
  rw [hw.file] at hfile
  cases hfile
  exact hw.same.erase (Disk.entry?_freshName h.disk dir Host.temporaryStem)

lemma Writing.rename (hw : s.Writing dir v.compact.toUTF8 h h') {d : Disk}
    (hrename : h'.disk.rename h'.workingDirectory
      (Path.join s.directory (h.disk.freshName dir Host.temporaryStem)) (s.keyPath key) =
        .ok d) :
    ∃ place, s.Stored key v place h { h' with disk := d } := by
  rw [hw.same.workingDirectory] at hrename
  obtain ⟨source, text, executable, place, hfile, hlocate, hentry, hmeans, rfl⟩ :=
    Disk.rename_eq_ok.mp hrename
  rw [hw.file] at hfile
  cases hfile
  obtain ⟨-, htemporary, -⟩ := Disk.file?_eq_ok.mp hw.file
  have hnone := Disk.entry?_freshName h.disk dir Host.temporaryStem
  have hback : h'.disk.KeepsDirectories h.disk := by
    intro p hp
    have hne : p ≠ dir ++ [h.disk.freshName dir Host.temporaryStem] := by
      rintro rfl
      rw [htemporary] at hp
      cases hp
    rw [← hw.same.entry? p hne, hp]
  have hnotDirectory : h.disk.entry? place ≠ some .directory := by
    by_cases hp : place = dir ++ [h.disk.freshName dir Host.temporaryStem]
    · simp [hp, hnone]
    · rwa [← hw.same.entry? place hp]
  refine ⟨place, hback.locate hlocate, hnotDirectory, hmeans,
    ((hw.same.erase hnone).sameFilesBut place).put _, ?_⟩
  exact Disk.entry?_put _ _ (Disk.ne_nil_of_entry?_ne hnotDirectory)

lemma Stored.file? {place : List String} (hs : s.Stored key v place h h') :
    h'.disk.file? h'.workingDirectory (s.keyPath key) =
      .ok (place, v.compact.toUTF8, false) := by
  have hkeeps := hs.same.keepsDirectories hs.notDirectory
  rw [hs.same.workingDirectory]
  exact Disk.file?_eq_ok.mpr ⟨hkeeps.locate hs.located, hs.file, hs.meansFile⟩

/-- What storing a value can leave behind, also when it is interrupted. -/
def PutLeaves (s : Store) (key : String) (v : Json) (h h' : Host) : Prop :=
  h.SameFiles h' ∨ (∃ dir content, s.Writing dir content h h') ∨ ∃ place, s.Stored key v place h h'

/-- What storing a value leaves behind with an answer. A file with a fresh name can only be left
if it cannot be taken away. -/
def PutYields (mayFail : Effect → Prop) (s : Store) (key : String) (v : Json) (h : Host) :
    Except StorageError Unit → Host → Prop
  | .ok (), h' => ∃ place, s.Stored key v place h h'
  | .error _, h' => h.SameFiles h' ∨
    (∃ path, mayFail (.remove path)) ∧ ∃ dir content, s.Writing dir content h h'

variable {mayFail : Effect → Prop}

lemma Writing.always_discard (hw : s.Writing dir content h h') (path : String) (cause : IoError) :
    (discard (Path.join s.directory (h.disk.freshName dir Host.temporaryStem)) path cause).Always
      mayFail (s.PutLeaves key v h) (s.PutYields mayFail key v h) h' := by
  have hleaves : s.PutLeaves key v h h' := .inr (.inl ⟨dir, content, hw⟩)
  refine Program.always_act_bind hleaves ?_
  intro r h'' hr
  rcases hr.remove with ⟨rfl, cause, rfl, hfault⟩ | ⟨d, hremove, rfl, rfl⟩
  · refine Program.always_pure hleaves ?_
    rcases hfault with hfault | herror
    · exact .inr ⟨⟨_, hfault⟩, dir, content, hw⟩
    · -- the temporary file is there, so that it can be removed
      simp only [Disk.remove, hw.same.workingDirectory, hw.file] at herror
      cases herror
  · have hsame := hw.remove hremove
    exact Program.always_pure (.inl hsame) (.inl hsame)

/-- Whatever goes wrong, a value is stored as a whole or not at all. -/
theorem always_put (mayFail : Effect → Prop) (s : Store) (key : String) (v : Json) (h : Host) :
    (s.put key v).run.Always mayFail (s.PutLeaves key v h) (s.PutYields mayFail key v h) h := by
  have hidle : s.PutLeaves key v h h := .inl (.refl h)
  refine Program.always_act_bind hidle ?_
  intro r h₁ hr
  rcases hr.createTemporary with ⟨rfl, cause, rfl⟩ | ⟨path, d, hfresh, rfl, rfl⟩
  · exact Program.always_pure hidle (.inl (.refl h₁))
  obtain ⟨dir, rfl, hw⟩ := writing_of_createFresh hfresh
  refine Program.always_act_bind (.inr (.inl ⟨dir, _, hw⟩)) ?_
  intro r h₂ hr
  rcases hr.append with (⟨rfl, cause, rfl, -⟩ | ⟨d, happend, rfl, rfl⟩) |
    ⟨-, ⟨cause, rfl⟩, part, d, happend, rfl⟩
  · exact hw.always_discard _ cause
  · have hfull := hw.append happend
    refine Program.always_act_bind (.inr (.inl ⟨dir, _, hfull⟩)) ?_
    intro r h₃ hr
    rcases hr.rename with ⟨rfl, cause, rfl, -⟩ | ⟨d, hrename, rfl, rfl⟩
    · exact hfull.always_discard _ cause
    · rw [ByteArray.empty_append] at hfull
      have hstored := hfull.rename hrename
      exact Program.always_pure (.inr (.inr hstored)) hstored
  · exact (hw.append happend).always_discard _ cause

end Store

end Folio
