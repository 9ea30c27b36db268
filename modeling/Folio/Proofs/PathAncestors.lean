import Folio.Proofs.Paths
import Mathlib.Data.String.Basic

/-!
# Paths of the directories above

The directories above a path are known by the first ones of its names. To go through one of them is
the only way to what the path leads to.
-/

namespace Folio.Path

/-- The path of a directory that the names of `inner` lead through. -/
structure Above (outer inner : String) : Prop where
  ne_empty : outer ≠ ""
  absolute : isAbsolute outer = isAbsolute inner
  chars : outer.toList.Sublist inner.toList
  names : ∃ rest, rest ≠ [] ∧ names inner = rawNames outer ++ rest

section Intercalate

lemma intercalate_sublist {ps qs : List (List Char)} (h : ps.Sublist qs) :
    (['/'].intercalate ps).Sublist (['/'].intercalate qs) := by
  induction h with
  | slnil => exact .refl _
  | @cons ps qs q h ih =>
    cases qs with
    | nil =>
      rw [List.sublist_nil.mp h]
      exact List.nil_sublist _
    | cons r qs =>
      rw [List.intercalate_cons_cons]
      exact ih.trans (List.sublist_append_right _ _)
  | @cons_cons ps qs q h ih =>
    cases qs with
    | nil =>
      rw [List.sublist_nil.mp h]
    | cons r qs =>
      cases ps with
      | nil =>
        rw [List.intercalate_singleton, List.intercalate_cons_cons, List.append_assoc]
        exact List.sublist_append_left _ _
      | cons p ps =>
        rw [List.intercalate_cons_cons, List.intercalate_cons_cons]
        exact (List.Sublist.refl _).append ih

lemma intercalate_pieces (cs : List Char) : ['/'].intercalate (pieces cs) = cs := by
  induction cs with
  | nil => rfl
  | cons c cs ih =>
    obtain ⟨p, ps, hpieces⟩ := List.exists_cons_of_ne_nil (pieces_ne_nil cs)
    by_cases hc : c = '/'
    · subst hc
      rw [pieces, hpieces, List.intercalate_cons_cons, ← hpieces, ih]
      rfl
    · rw [pieces.eq_3 _ _ hc, hpieces]
      rw [hpieces] at ih
      cases ps with
      | nil => simpa using ih
      | cons q ps => simpa [List.intercalate_cons_cons] using ih

lemma pieces_intercalate {ps : List (List Char)} (h : ∀ p ∈ ps, '/' ∉ p) (hne : ps ≠ []) :
    pieces (['/'].intercalate ps) = ps := by
  induction ps with
  | nil => exact absurd rfl hne
  | cons p ps ih =>
    have hp := pieces_of_notMem (h p List.mem_cons_self)
    cases ps with
    | nil => rw [List.intercalate_singleton, hp]
    | cons q ps =>
      rw [List.intercalate_cons_cons, List.append_assoc, List.singleton_append,
        pieces_append_slash, hp, ih (fun r hr => h r (List.mem_cons_of_mem p hr)) nofun]
      rfl

end Intercalate

section Names

variable {absolute : Bool} {path : String} {ns : List String}

/-- Names that can stand in a path, and that mean something there. -/
def AreNames (ns : List String) : Prop :=
  ∀ name ∈ ns, name ≠ "" ∧ '/' ∉ name.toList ∧ name ≠ "."

lemma areNames_names (path : String) : AreNames (names path) := by
  intro name hname
  obtain ⟨hmem, hdot⟩ := List.mem_filter.mp hname
  obtain ⟨hempty, hslash, -⟩ := mem_rawNames hmem
  exact ⟨hempty, hslash, by simpa using hdot⟩

lemma AreNames.take (h : AreNames ns) (n : Nat) : AreNames (ns.take n) :=
  fun name hname => h name (List.mem_of_mem_take hname)

lemma toList_ofNames (absolute : Bool) (ns : List String) :
    (ofNames absolute ns).toList =
      (if absolute then ['/'] else []) ++ ['/'].intercalate (ns.map String.toList) := by
  cases absolute <;> simp [ofNames, String.toList_intercalate]

lemma rawNames_ofNames (h : AreNames ns) (absolute : Bool) : rawNames (ofNames absolute ns) = ns := by
  have hpieces : (pieces (['/'].intercalate (ns.map String.toList))).filter (!·.isEmpty) =
      ns.map String.toList := by
    cases ns with
    | nil => rfl
    | cons name ns =>
      rw [pieces_intercalate (by simpa using fun n hn => (h n hn).2.1) (by simp),
        List.filter_eq_self]
      intro p hp
      obtain ⟨n, hn, rfl⟩ := List.mem_map.mp hp
      simpa using (h n hn).1
  rw [rawNames, toList_ofNames]
  cases absolute <;> simp [pieces, hpieces]

lemma isAbsolute_ofNames (h : AreNames ns) (absolute : Bool) :
    isAbsolute (ofNames absolute ns) = absolute := by
  rw [isAbsolute, String.startsWith_char_eq_head?, toList_ofNames]
  cases absolute with
  | true => rfl
  | false =>
    cases ns with
    | nil => rfl
    | cons name ns =>
      obtain ⟨hempty, hslash, -⟩ := h name List.mem_cons_self
      obtain ⟨c, cs, hname⟩ := List.exists_cons_of_ne_nil
        (fun hnil => hempty (String.toList_eq_nil_iff.mp hnil))
      have hc : c ≠ '/' := fun heq => hslash (by rw [hname, heq]; exact List.mem_cons_self)
      cases ns <;> simpa [hname, List.intercalate_cons_cons] using hc

lemma map_toList_names (path : String) :
    (names path).map String.toList =
      (pieces path.toList).filter fun p => String.ofList p != "." && !p.isEmpty := by
  simp [names, rawNames, List.filter_map, List.filter_filter, Function.comp_def]

/-- A path says no more than what its names say. -/
lemma ofNames_sublist (path : String) :
    (ofNames (isAbsolute path) (names path)).toList.Sublist path.toList := by
  rw [toList_ofNames, map_toList_names, isAbsolute, String.startsWith_char_eq_head?]
  cases habsolute : path.toList with
  | nil => exact .refl _
  | cons c cs =>
    by_cases hc : c = '/'
    · subst hc
      have hsub := intercalate_sublist
        (List.filter_sublist (p := fun p => String.ofList p != "." && !p.isEmpty) (l := pieces cs))
      rw [intercalate_pieces] at hsub
      simpa [pieces] using hsub
    · have hsub := intercalate_sublist (List.filter_sublist
        (p := fun p => String.ofList p != "." && !p.isEmpty) (l := pieces (c :: cs)))
      rw [intercalate_pieces] at hsub
      simpa [hc] using hsub

lemma names_ofNames (h : AreNames ns) (absolute : Bool) : names (ofNames absolute ns) = ns := by
  rw [names, rawNames_ofNames h, List.filter_eq_self]
  intro name hname
  simpa using (h name hname).2.2

end Names

section Ancestors

variable {absolute : Bool} {path : String} {ns : List String} {m n : Nat}

/-- Fewer of the first names lead to a directory above. -/
lemma above_ofNames_take (h : AreNames ns) (hm : m < n) (hn : n ≤ ns.length)
    (hempty : 0 < m ∨ absolute = true) :
    Above (ofNames absolute (ns.take m)) (ofNames absolute (ns.take n)) where
  ne_empty := by
    intro heq
    rcases hempty with hpos | rfl
    · have hnil := rawNames_ofNames (h.take m) absolute
      rw [heq, rawNames_empty] at hnil
      have hlength := congrArg List.length hnil
      rw [List.length_nil, List.length_take] at hlength
      omega
    · have hslash := congrArg String.toList heq
      rw [toList_ofNames] at hslash
      cases hslash
  absolute := by rw [isAbsolute_ofNames (h.take m), isAbsolute_ofNames (h.take n)]
  chars := by
    rw [toList_ofNames, toList_ofNames]
    have hsub : (ns.take m).Sublist (ns.take n) := List.take_sublist_take_left (Nat.le_of_lt hm)
    exact (List.Sublist.refl _).append (intercalate_sublist (hsub.map _))
  names := by
    refine ⟨(ns.take n).drop m, ?_, ?_⟩
    · rw [Ne, List.drop_eq_nil_iff, List.length_take]
      omega
    · rw [names_ofNames (h.take n), rawNames_ofNames (h.take m)]
      have hsplit := (List.take_append_drop m (ns.take n)).symm
      rwa [List.take_take, Nat.min_eq_left (Nat.le_of_lt hm)] at hsplit

lemma Above.of_ofNames {outer : String}
    (h : Above outer (ofNames (isAbsolute path) (Path.names path))) :
    Above outer path where
  ne_empty := h.ne_empty
  absolute := by rw [h.absolute, isAbsolute_ofNames (areNames_names path)]
  chars := h.chars.trans (ofNames_sublist path)
  names := by
    have hnames := h.names
    rwa [names_ofNames (areNames_names path)] at hnames

/-- How many names each of the directories above a path is made of. -/
def ancestorLengths (path : String) : List Nat :=
  (List.range (names path).length).reverse.filter fun n => decide (0 < n) || isAbsolute path

lemma ancestors_eq (path : String) :
    ancestors path =
      (ancestorLengths path).map fun n => ofNames (isAbsolute path) ((names path).take n) := by
  unfold ancestors ancestorLengths
  cases isAbsolute path with
  | false => simp
  | true =>
    cases hnames : names path with
    | nil => rfl
    | cons name ns =>
      have hpos : ((List.range ns.length).map Nat.succ).reverse.filter (0 < ·) =
          ((List.range ns.length).map Nat.succ).reverse := by simp
      simp [List.range_succ_eq_map, hpos, ofNames]

lemma mem_ancestorLengths (h : n ∈ ancestorLengths path) :
    n < (names path).length ∧ (0 < n ∨ isAbsolute path = true) := by
  obtain ⟨hmem, hn⟩ := List.mem_filter.mp h
  exact ⟨List.mem_range.mp (List.mem_reverse.mp hmem), by simpa using hn⟩

/-- Each of these paths is made of fewer names than those before it. -/
lemma pairwise_above (path : String) :
    (path :: ancestors path).Pairwise fun inner outer => Above outer inner := by
  have hnames := areNames_names path
  rw [ancestors_eq, List.pairwise_cons]
  constructor
  · intro outer houter
    obtain ⟨m, hm, rfl⟩ := List.mem_map.mp houter
    obtain ⟨hlength, hempty⟩ := mem_ancestorLengths hm
    have habove := above_ofNames_take hnames hlength (Nat.le_refl _) hempty
    rw [List.take_length] at habove
    exact habove.of_ofNames
  · have hdescending : (ancestorLengths path).Pairwise (· > ·) :=
      (List.pairwise_reverse.mpr List.pairwise_lt_range).filter _
    refine List.pairwise_map.mpr (hdescending.imp_of_mem ?_)
    intro n m hn hm hlt
    have hlength := (mem_ancestorLengths hn).1
    exact above_ofNames_take hnames hlt (Nat.le_of_lt hlength) (mem_ancestorLengths hm).2

lemma pairwise_directories (path : String) :
    (directories path).Pairwise fun inner outer => Above outer inner := by
  unfold directories
  split
  · exact .nil
  · exact pairwise_above path

end Ancestors

end Folio.Path
