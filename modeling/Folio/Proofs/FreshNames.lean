import Folio.Proofs.Disks
import Mathlib.Data.List.Nodup

/-!
# Fresh names

A fresh name is one of more candidates than there are entries, so that one of them is not in use.
It ends with a digit, which tells it from the names that are chosen.
-/

namespace Folio.Disk

/-- A candidate for a fresh name: its number in six digits, or in more if it needs them. -/
def candidate (stem : String) (n : Nat) : String :=
  stem ++ String.ofList (List.replicate (6 - (toString n).length) '0') ++ toString n

lemma freshName_eq (d : Disk) (place : List String) (stem : String) :
    d.freshName place stem =
      match (List.range (d.entries.length + 1)).find? fun n =>
        (d.entry? (place ++ [candidate stem n])).isNone with
      | some n => candidate stem n
      | none => candidate stem (d.entries.length + 1) := rfl

lemma toList_candidate (stem : String) (n : Nat) :
    (candidate stem n).toList =
      stem.toList ++ (List.replicate (6 - (toString n).length) '0' ++ Nat.toDigits 10 n) := by
  simp [candidate]

lemma candidate_injective (stem : String) : Function.Injective (candidate stem) := by
  intro m n h
  have hlist := congrArg String.toList h
  rw [toList_candidate, toList_candidate, List.append_cancel_left_eq] at hlist
  have hvalue := congrArg (Nat.ofDigitChars 10 · 0) hlist
  simpa [Nat.ofDigitChars_append, Nat.ofDigitChars_replicate_zero] using hvalue

lemma mem_places_of_entry? {d : Disk} {place : List String} (hne : place ≠ [])
    (h : d.entry? place ≠ none) : place ∈ d.entries.map (·.1) := by
  unfold entry? at h
  rw [if_neg hne] at h
  obtain ⟨e, he⟩ : ∃ e, d.entries.lookup place = some e := by
    rcases hlookup : d.entries.lookup place with _ | e
    · exact absurd hlookup h
    · exact ⟨e, rfl⟩
  obtain ⟨before, after, hentries, -⟩ := List.lookup_eq_some_iff.mp he
  simp [hentries]

lemma exists_candidate (d : Disk) (place : List String) (stem : String) :
    ∃ n ∈ List.range (d.entries.length + 1), d.entry? (place ++ [candidate stem n]) = none := by
  by_contra hall
  let places := (List.range (d.entries.length + 1)).map fun n => place ++ [candidate stem n]
  have hnodup : places.Nodup := by
    refine List.nodup_range.map ?_
    intro m n heq
    exact candidate_injective stem (List.singleton_inj.mp (List.append_cancel_left heq))
  have hsubset : places ⊆ d.entries.map (·.1) := by
    intro p hp
    obtain ⟨n, hn, rfl⟩ := List.mem_map.mp hp
    exact mem_places_of_entry? (by simp) fun hnone => hall ⟨n, hn, hnone⟩
  have hlength := hnodup.length_le_of_subset hsubset
  simp only [places, List.length_map, List.length_range] at hlength
  omega

/-- Nothing has a fresh name. -/
theorem entry?_freshName (d : Disk) (place : List String) (stem : String) :
    d.entry? (place ++ [d.freshName place stem]) = none := by
  rw [freshName_eq]
  split
  · next n hfind =>
    have hnone := List.find?_some hfind
    exact Option.isNone_iff_eq_none.mp hnone
  · next hfind =>
    obtain ⟨n, hn, hnone⟩ := exists_candidate d place stem
    exact absurd (Option.isNone_iff_eq_none.mpr hnone) (List.find?_eq_none.mp hfind n hn)

lemma exists_freshName_eq (d : Disk) (place : List String) (stem : String) :
    ∃ n, d.freshName place stem = candidate stem n := by
  rw [freshName_eq]
  split
  · next n _ => exact ⟨n, rfl⟩
  · exact ⟨_, rfl⟩

lemma isDigit_of_mem_number {c : Char} {n k : Nat}
    (h : c ∈ List.replicate k '0' ++ Nat.toDigits 10 n) : c.isDigit = true := by
  rcases List.mem_append.mp h with hzero | hdigit
  · rw [List.eq_of_mem_replicate hzero]
    decide
  · exact Nat.isDigit_of_mem_toDigits (by decide) (by decide) hdigit

lemma notMem_candidate {c : Char} {stem : String} (n : Nat) (hstem : c ∉ stem.toList)
    (hc : c.isDigit = false) : c ∉ (candidate stem n).toList := by
  rw [toList_candidate, List.mem_append]
  rintro (hmem | hmem)
  · exact hstem hmem
  · rw [isDigit_of_mem_number hmem] at hc
    cases hc

lemma length_candidate (stem : String) (n : Nat) : 6 ≤ (candidate stem n).toList.length := by
  have hdigits : (toString n).length = (Nat.toDigits 10 n).length := by
    rw [← String.length_toList, Nat.toString_eq_repr, Nat.toList_repr]
  rw [toList_candidate, List.length_append, List.length_append, List.length_replicate, hdigits]
  omega

/-- A fresh name is a plain name if its beginning has no separator in it. -/
lemma isPlain_freshName (d : Disk) (place : List String) {stem : String}
    (hslash : '/' ∉ stem.toList) (hnul : '\x00' ∉ stem.toList) :
    Path.IsPlain (d.freshName place stem) := by
  obtain ⟨n, hn⟩ := exists_freshName_eq d place stem
  have hlength := length_candidate stem n
  have hshort : ∀ s : String, s.toList.length < 6 → candidate stem n ≠ s := by
    rintro s hs rfl
    omega
  rw [hn]
  exact ⟨hshort "" (by decide), notMem_candidate n hslash (by decide),
    notMem_candidate n hnul (by decide), hshort "." (by decide), hshort ".." (by decide)⟩

/-- What is made under a fresh name is right in the directory. -/
lemma exists_place_of_createFresh {d d' : Disk} {start : List String} {dir stem path : String}
    {e : Entry} (hslash : '/' ∉ stem.toList) (hnul : '\x00' ∉ stem.toList)
    (h : d.createFresh start dir stem e = .ok (path, d')) :
    ∃ place, d.directory? start (if dir.isEmpty then "." else dir) = .ok place ∧
      path = Path.join dir (d.freshName place stem) ∧
      (d.freshName place stem).utf8ByteSize ≤ nameLimit ∧
      d.locate start path = .ok (place ++ [d.freshName place stem]) ∧
      d' = d.put (place ++ [d.freshName place stem]) e := by
  obtain ⟨place, goal, hplace, rfl, hgoal, rfl⟩ := createFresh_eq_ok.mp h
  have hlocate := locate_join (isPlain_freshName d place hslash hnul) hplace
  rw [hgoal] at hlocate
  split at hlocate
  · cases hlocate
  · next hshort =>
    cases hlocate
    exact ⟨place, hplace, rfl, Nat.not_lt.mp (not_or.mp hshort).2, hgoal, rfl⟩

lemma candidate_ne {stem name : String} {c : Char} (n : Nat)
    (hlast : name.toList.getLast? = some c) (hc : c.isDigit = false) : candidate stem n ≠ name := by
  rintro rfl
  rw [toList_candidate, List.getLast?_append_of_ne_nil _ (by simp)] at hlast
  rw [isDigit_of_mem_number (List.mem_of_getLast? hlast)] at hc
  cases hc

lemma freshName_ne (d : Disk) (place : List String) (stem : String) {name : String} {c : Char}
    (hlast : name.toList.getLast? = some c) (hc : c.isDigit = false) :
    d.freshName place stem ≠ name := by
  obtain ⟨n, hn⟩ := exists_freshName_eq d place stem
  rw [hn]
  exact candidate_ne n hlast hc

end Folio.Disk
