import Folio.Effect.Host
import Folio.Proofs.Disks

/-!
# What stays on a host

Two hosts agree on all files, or on all but one. What is read at the places on which they agree is
the same.
-/

namespace Folio

namespace Host

/-- The same files and directories, and the same start of paths. -/
structure SameFiles (h h' : Host) : Prop where
  workingDirectory : h'.workingDirectory = h.workingDirectory
  entry? : ∀ p, h'.disk.entry? p = h.disk.entry? p

/-- The same files and directories, except perhaps at one place, and the same start of paths. -/
structure SameFilesBut (place : List String) (h h' : Host) : Prop where
  workingDirectory : h'.workingDirectory = h.workingDirectory
  entry? : ∀ p, p ≠ place → h'.disk.entry? p = h.disk.entry? p

/-- Whatever was there is still there as it was, and paths start from the same place. -/
structure Extends (h h' : Host) : Prop where
  workingDirectory : h'.workingDirectory = h.workingDirectory
  entry? : ∀ p e, h.disk.entry? p = some e → h'.disk.entry? p = some e

lemma SameFiles.refl (h : Host) : h.SameFiles h := ⟨rfl, fun _ => rfl⟩

lemma SameFiles.symm {h h' : Host} (hh : h.SameFiles h') : h'.SameFiles h :=
  ⟨hh.workingDirectory.symm, fun p => (hh.entry? p).symm⟩

lemma SameFiles.trans {h h' h'' : Host} (hh : h.SameFiles h') (hh' : h'.SameFiles h'') :
    h.SameFiles h'' :=
  ⟨hh'.workingDirectory.trans hh.workingDirectory, fun p => (hh'.entry? p).trans (hh.entry? p)⟩

lemma SameFiles.keepsDirectories {h h' : Host} (hh : h.SameFiles h') :
    h.disk.KeepsDirectories h'.disk := by
  intro p hp
  rw [hh.entry? p, hp]

lemma SameFiles.locate_eq {h h' : Host} (hh : h.SameFiles h') (path : String) :
    h'.disk.locate h'.workingDirectory path = h.disk.locate h.workingDirectory path := by
  rw [hh.workingDirectory, Disk.locate_congr (funext hh.entry?)]

lemma SameFiles.file?_eq {h h' : Host} (hh : h.SameFiles h') (path : String) :
    h'.disk.file? h'.workingDirectory path = h.disk.file? h.workingDirectory path := by
  rw [hh.workingDirectory, Disk.file?_congr (funext hh.entry?)]

lemma SameFiles.read_eq {h h' : Host} (hh : h.SameFiles h') (path : String) :
    h'.disk.read h'.workingDirectory path = h.disk.read h.workingDirectory path := by
  rw [Disk.read, Disk.read, hh.file?_eq]

lemma sameFilesBut_put (h : Host) (place : List String) (e : Disk.Entry) :
    h.SameFilesBut place { h with disk := h.disk.put place e } :=
  ⟨rfl, fun _ hp => Disk.entry?_put_of_ne h.disk e hp⟩

lemma SameFilesBut.put {h h' : Host} {place : List String} (hh : h.SameFilesBut place h')
    (e : Disk.Entry) : h.SameFilesBut place { h' with disk := h'.disk.put place e } :=
  ⟨hh.workingDirectory, fun p hp =>
    (Disk.entry?_put_of_ne h'.disk e hp).trans (hh.entry? p hp)⟩

lemma SameFilesBut.erase {h h' : Host} {place : List String} (hh : h.SameFilesBut place h')
    (hnone : h.disk.entry? place = none) :
    h.SameFiles { h' with disk := h'.disk.erase place } := by
  refine ⟨hh.workingDirectory, fun p => ?_⟩
  have hne : place ≠ [] := Disk.ne_nil_of_entry?_ne (d := h.disk) (by simp [hnone])
  by_cases hp : p = place
  · rw [hp, hnone]
    exact Disk.entry?_erase h'.disk hne
  · exact (Disk.entry?_erase_of_ne h'.disk hp).trans (hh.entry? p hp)

lemma SameFiles.sameFilesBut {h h' : Host} (hh : h.SameFiles h') (place : List String) :
    h.SameFilesBut place h' := ⟨hh.workingDirectory, fun p _ => hh.entry? p⟩

lemma SameFilesBut.keepsDirectories {h h' : Host} {place : List String}
    (hh : h.SameFilesBut place h') (hplace : h.disk.entry? place ≠ some .directory) :
    h.disk.KeepsDirectories h'.disk := by
  intro p hp
  have hne : p ≠ place := by
    rintro rfl
    exact hplace hp
  rw [hh.entry? p hne, hp]

lemma Extends.refl (h : Host) : h.Extends h := ⟨rfl, fun _ _ he => he⟩

lemma Extends.trans {h h' h'' : Host} (hh : h.Extends h') (hh' : h'.Extends h'') :
    h.Extends h'' :=
  ⟨hh'.workingDirectory.trans hh.workingDirectory, fun p e he => hh'.entry? p e (hh.entry? p e he)⟩

lemma SameFiles.extends {h h' : Host} (hh : h.SameFiles h') : h.Extends h' :=
  ⟨hh.workingDirectory, fun p _ he => (hh.entry? p).trans he⟩

lemma extends_put (h : Host) {place : List String} (hnone : h.disk.entry? place = none)
    (e : Disk.Entry) : h.Extends { h with disk := h.disk.put place e } :=
  ⟨rfl, Disk.keepsEntries_put hnone e⟩

lemma Extends.keepsDirectories {h h' : Host} (hh : h.Extends h') :
    h.disk.KeepsDirectories h'.disk := fun p hp => hh.entry? p _ hp

lemma SameFilesBut.file? {h h' : Host} {place : List String} (hh : h.SameFilesBut place h')
    (hplace : h.disk.entry? place ≠ some .directory) {path : String} {p : List String}
    {content : ByteArray} {executable : Bool} (hne : p ≠ place)
    (hfile : h.disk.file? h.workingDirectory path = .ok (p, content, executable)) :
    h'.disk.file? h'.workingDirectory path = .ok (p, content, executable) := by
  obtain ⟨hlocate, hentry, hmeans⟩ := Disk.file?_eq_ok.mp hfile
  rw [hh.workingDirectory]
  refine Disk.file?_eq_ok.mpr ⟨(hh.keepsDirectories hplace).locate hlocate, ?_, hmeans⟩
  rw [hh.entry? p hne, hentry]

end Host

end Folio
