import Folio.Proofs.IndentedJson
import Folio.Proofs.StoredValues
import Folio.Proofs.TreeFiles

/-!
# Entries of legacy files

The entries that are read from a legacy file are sorted and each key occurs once, and sorted entries
that are written to a file are read from it as they are. So clearing the file takes away one key and
changes nothing else.
-/

namespace Folio

namespace Json

variable {name : String} {v : α} {acc : List (String × α)}

lemma eq_or_mem_of_mem_insertField {n : String} (h : n ∈ (insertField name v acc).map (·.1)) :
    n = name ∨ n ∈ acc.map (·.1) := by
  induction acc with
  | nil => exact .inl (List.mem_singleton.mp h)
  | cons f acc ih =>
    obtain ⟨m, w⟩ := f
    rw [insertField] at h
    split at h
    · next heq =>
      subst heq
      exact .inr h
    · split at h
      · exact List.mem_cons.mp h
      · rcases List.mem_cons.mp h with hm | hmem
        · exact .inr (List.mem_cons.mpr (.inl hm))
        · exact (ih hmem).imp_right (List.mem_cons_of_mem m)

/-- Putting a field into a sorted list keeps it sorted. -/
lemma pairwise_insertField (h : (acc.map (·.1)).Pairwise (· < ·)) :
    ((insertField name v acc).map (·.1)).Pairwise (· < ·) := by
  induction acc with
  | nil => exact List.pairwise_singleton ..
  | cons f acc ih =>
    obtain ⟨m, w⟩ := f
    obtain ⟨hm, hacc⟩ := List.pairwise_cons.mp h
    rw [insertField]
    split
    · next heq =>
      subst heq
      exact h
    · next hne =>
      split
      · next hlt =>
        refine List.pairwise_cons.mpr ⟨fun n hn => ?_, h⟩
        rcases List.mem_cons.mp hn with rfl | hn
        · exact hlt
        · exact hlt.trans (hm n hn)
      · next hnlt =>
        refine List.pairwise_cons.mpr ⟨fun n hn => ?_, ih hacc⟩
        rcases eq_or_mem_of_mem_insertField hn with rfl | hn
        · exact lt_of_le_of_ne (not_lt.mp hnlt) (Ne.symm hne)
        · exact hm n hn

end Json

namespace LegacyFile

/-- The keys are sorted, and each occurs once. -/
def IsSorted (es : List (String × String)) : Prop :=
  (es.map (·.1)).Pairwise (· < ·)

variable {es : List (String × String)}

section Texts

lemma foldl_insertField_isSorted {texts acc : List (String × String)} (h : IsSorted acc) :
    IsSorted (texts.foldl (fun entries (k, s) => Json.insertField k s entries) acc) := by
  induction texts generalizing acc with
  | nil => exact h
  | cons f texts ih => exact ih (Json.pairwise_insertField h)

lemma isSorted_of_entriesOfJson? {v : Json} (h : entriesOfJson? v = some es) : IsSorted es := by
  unfold entriesOfJson? at h
  split at h
  · obtain ⟨texts, -, htexts⟩ := Option.bind_eq_some_iff.mp h
    cases htexts
    exact foldl_insertField_isSorted List.Pairwise.nil
  · cases h

lemma isSorted_of_entriesOf {path : String} {r : Except IoError ByteArray}
    (h : entriesOf path r = .ok es) : IsSorted es := by
  unfold entriesOf at h
  split at h
  · cases h
  · split at h
    · next hes =>
      cases h
      obtain ⟨v, -, hv⟩ := Option.bind_eq_some_iff.mp hes
      exact isSorted_of_entriesOfJson? hv
    · cases h

lemma foldl_insertField_eq_append {acc : List (String × String)} (h : IsSorted (acc ++ es)) :
    es.foldl (fun entries (k, s) => Json.insertField k s entries) acc = acc ++ es := by
  induction es generalizing acc with
  | nil => simp
  | cons f es ih =>
    obtain ⟨key, text⟩ := f
    have hlast : ∀ n ∈ acc.map (·.1), n < key := by
      rw [IsSorted, List.map_append, List.pairwise_append] at h
      exact fun n hn => h.2.2 n hn key List.mem_cons_self
    simp only [List.foldl_cons, Json.insertField_of_lt text hlast]
    rw [ih (by simpa using h)]
    simp

def toJson (es : List (String × String)) : Json :=
  .object (es.map fun (k, s) => (k, .string s))

lemma writable_toJson (es : List (String × String)) : (toJson es).Writable := by
  change Json.FieldsWritable _
  induction es with
  | nil => trivial
  | cons f es ih => exact ⟨trivial, ih⟩

lemma mapM_string?_map_string (fs : List (String × String)) :
    (fs.map fun (k, s) => (k, Json.string s)).mapM (fun (k, v) => v.string?.map (k, ·)) =
      some fs := by
  induction fs with
  | nil => rfl
  | cons f fs ih =>
    rw [List.map_cons, List.mapM_cons, ih]
    rfl

lemma entriesOfJson?_toJson (h : IsSorted es) : entriesOfJson? (toJson es) = some es := by
  rw [toJson, entriesOfJson?, mapM_string?_map_string, Option.bind_eq_bind, Option.bind_some,
    foldl_insertField_eq_append (by simpa using h), List.nil_append]

/-- Entries that were written are read again. -/
lemma entriesOf_indented (path : String) (h : IsSorted es) :
    entriesOf path (.ok (toJson es).indented.toUTF8) = .ok es := by
  have hread : Json.read? (toJson es).indented >>= entriesOfJson? = some es := by
    rw [Json.read?_indented (writable_toJson es), Option.bind_eq_bind, Option.bind_some,
      entriesOfJson?_toJson h]
  simp only [entriesOf, Program.textOf_toUTF8, hread]

end Texts

section Clearing

/-- The entries of a legacy file without the file tree. -/
def others (es : List (String × String)) : List (String × String) :=
  es.filter (·.1 != fileTreeKey)

lemma isSorted_others (h : IsSorted es) : IsSorted (others es) :=
  h.sublist (List.filter_sublist.map _)

lemma lookup_others_fileTreeKey (es : List (String × String)) :
    (others es).lookup fileTreeKey = none := by
  refine List.lookup_eq_none_iff.mpr fun f hf => ?_
  exact bne_iff_ne.mpr (bne_iff_ne.mp (List.mem_filter.mp hf).2).symm

lemma others_eq_self (h : es.lookup fileTreeKey = none) : others es = es := by
  refine List.filter_eq_self.mpr fun f hf => ?_
  exact bne_iff_ne.mpr (bne_iff_ne.mp (List.lookup_eq_none_iff.mp h f hf)).symm

/-- What can be read from a legacy file. -/
def entriesAt (l : LegacyFile) (h : Host) : Except StorageError (List (String × String)) :=
  entriesOf l.path (h.disk.read h.workingDirectory l.path)

lemma run_entries (l : LegacyFile) (h : Host) : h.run l.entries.run = (l.entriesAt h, h) := by
  rw [entries_run_eq]
  rfl

/-- What clearing a legacy file with some entries leaves behind when it succeeds. -/
def Clears (l : LegacyFile) (es : List (String × String)) (h h' : Host) : Prop :=
  h.SameFiles h' ∧ es.lookup fileTreeKey = none ∨
    ∃ place executable,
      h.Rewriting l.path place (toJson (others es)).indented.toUTF8 executable h'

lemma always_clear_clears {mayFail : Effect → Prop} (hreads : ∀ path, ¬mayFail (.readFile path))
    {l : LegacyFile} {h : Host} (hes : l.entriesAt h = .ok es) :
    l.clear.run.Always mayFail (fun _ => True) (fun r h' => r = .ok () → l.Clears es h h') h := by
  unfold clear
  rw [ExceptT.run_mk, entries_run_eq]
  refine Program.always_readFile_bind trivial ?_
  rintro r (rfl | ⟨hfault, -⟩)
  · change entriesOf l.path _ = _ at hes
    simp only [hes]
    by_cases hkey : (es.lookup fileTreeKey).isSome = true
    · rw [if_pos hkey]
      have hwrite := Program.always_writeFile mayFail l.path (toJson (others es)).indented.toUTF8 h
      refine Program.always_elseFail hwrite.atEnd ?_ ?_
      · rintro ⟨⟩ h' hw -
        exact .inr hw
      · rintro e h' - ⟨⟩
    · rw [if_neg hkey]
      exact Program.always_pure trivial fun _ => .inl ⟨.refl h, Option.not_isSome_iff_eq_none.mp hkey⟩
  · exact absurd hfault (hreads l.path)

end Clearing

end LegacyFile

end Folio
