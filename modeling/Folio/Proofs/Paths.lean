import Folio.Files.Path
import Mathlib.Tactic.Lemma

/-!
# Paths into a directory

The path of a name seen from a directory has the names of the directory and then this name. It is
absolute if the path of the directory is, and it does not only mean a directory.
-/

namespace Folio.Path

/-- A name that leads from a directory to something in it. -/
structure IsPlain (name : String) : Prop where
  ne_empty : name ≠ ""
  no_slash : '/' ∉ name.toList
  no_nul : '\x00' ∉ name.toList
  ne_dot : name ≠ "."
  ne_dots : name ≠ ".."

/-- The path of a directory and those above it, the nearest first, all of which must lead to
directories if the path is to. The empty path asks for none. -/
def directories (path : String) : List String :=
  if path.isEmpty then [] else path :: ancestors path

instance (name : String) : Decidable (IsPlain name) :=
  decidable_of_iff (name ≠ "" ∧ '/' ∉ name.toList ∧ '\x00' ∉ name.toList ∧ name ≠ "." ∧ name ≠ "..")
    ⟨fun ⟨hempty, hslash, hnul, hdot, hdots⟩ => ⟨hempty, hslash, hnul, hdot, hdots⟩,
      fun h => ⟨h.ne_empty, h.no_slash, h.no_nul, h.ne_dot, h.ne_dots⟩⟩

lemma pieces_ne_nil (cs : List Char) : pieces cs ≠ [] := by
  unfold pieces
  split
  · simp
  · simp
  · split <;> simp

lemma pieces_append_slash (a b : List Char) : pieces (a ++ '/' :: b) = pieces a ++ pieces b := by
  induction a with
  | nil => rfl
  | cons c a ih =>
    by_cases hc : c = '/'
    · subst hc
      rw [List.cons_append, pieces, ih, pieces, List.cons_append]
    · rw [List.cons_append, pieces.eq_3 _ _ hc, ih, pieces.eq_3 _ _ hc]
      rcases ha : pieces a with _ | ⟨p, ps⟩
      · exact absurd ha (pieces_ne_nil a)
      · rfl

lemma pieces_of_notMem {cs : List Char} (h : '/' ∉ cs) : pieces cs = [cs] := by
  induction cs with
  | nil => rfl
  | cons c cs ih =>
    have hc : c ≠ '/' := fun heq => h (heq ▸ List.mem_cons_self)
    rw [pieces.eq_3 _ _ hc, ih fun hmem => h (List.mem_cons_of_mem c hmem)]

lemma isAbsolute_empty : isAbsolute "" = false := by
  simp [isAbsolute, String.startsWith_char_eq_head?]

lemma isAbsolute_dot : isAbsolute "." = false := by
  simp [isAbsolute, String.startsWith_char_eq_head?]

lemma rawNames_empty : rawNames "" = [] := rfl

lemma rawNames_dot : rawNames "." = ["."] := by decide

lemma mem_pieces {cs p : List Char} (h : p ∈ pieces cs) : '/' ∉ p ∧ ∀ c ∈ p, c ∈ cs := by
  induction cs generalizing p with
  | nil =>
    obtain rfl := List.mem_singleton.mp h
    simp
  | cons c cs ih =>
    by_cases hc : c = '/'
    · subst hc
      rcases List.mem_cons.mp h with rfl | hmem
      · simp
      · obtain ⟨hslash, hchars⟩ := ih hmem
        exact ⟨hslash, fun d hd => List.mem_cons_of_mem _ (hchars d hd)⟩
    · rw [pieces.eq_3 _ _ hc] at h
      rcases hpieces : pieces cs with _ | ⟨q, ps⟩
      · exact absurd hpieces (pieces_ne_nil cs)
      · rw [hpieces] at h ih
        rcases List.mem_cons.mp h with rfl | hmem
        · obtain ⟨hslash, hchars⟩ := ih List.mem_cons_self
          refine ⟨by simp [Ne.symm hc, hslash], fun d hd => ?_⟩
          rcases List.mem_cons.mp hd with rfl | hd
          · exact List.mem_cons_self
          · exact List.mem_cons_of_mem _ (hchars d hd)
        · obtain ⟨hslash, hchars⟩ := ih (List.mem_cons_of_mem q hmem)
          exact ⟨hslash, fun d hd => List.mem_cons_of_mem _ (hchars d hd)⟩

lemma mem_rawNames {path name : String} (h : name ∈ rawNames path) :
    name ≠ "" ∧ '/' ∉ name.toList ∧ ∀ c ∈ name.toList, c ∈ path.toList := by
  obtain ⟨p, hp, rfl⟩ := List.mem_map.mp h
  obtain ⟨hmem, hne⟩ := List.mem_filter.mp hp
  obtain ⟨hslash, hchars⟩ := mem_pieces hmem
  refine ⟨?_, by simpa using hslash, by simpa using hchars⟩
  intro hempty
  have hnil := congrArg String.toList hempty
  simp_all

/-- A path that need not mean a directory ends with a plain name. -/
lemma exists_name_of_not_meansDirectory {path : String} (h : meansDirectory path = false)
    (hnul : '\x00' ∉ path.toList) :
    ∃ outer name, rawNames path = outer ++ [name] ∧ IsPlain name ∧ fileName? path = some name := by
  simp only [meansDirectory, Bool.or_eq_false_iff] at h
  obtain ⟨-, hlast⟩ := h
  rcases hname : (rawNames path).getLast? with _ | name
  · rw [hname] at hlast
    cases hlast
  · rw [hname] at hlast
    simp only [Bool.or_eq_false_iff, beq_eq_false_iff_ne] at hlast
    obtain ⟨outer, houter⟩ := List.getLast?_eq_some_iff.mp hname
    obtain ⟨hne, hslash, hchars⟩ := mem_rawNames (List.mem_of_getLast? hname)
    refine ⟨outer, name, houter, ⟨hne, hslash, fun hmem => hnul (hchars _ hmem), hlast.1, hlast.2⟩,
      ?_⟩
    simp [fileName?, names, houter, hlast.1, hlast.2]

lemma IsPlain.toList_ne_nil {name : String} (h : IsPlain name) : name.toList ≠ [] := by
  intro hnil
  exact h.ne_empty (String.toList_eq_nil_iff.mp hnil)

lemma IsPlain.rawNames_eq {name : String} (h : IsPlain name) : rawNames name = [name] := by
  simp [rawNames, pieces_of_notMem h.no_slash, h.toList_ne_nil]

lemma IsPlain.not_startsWith {name : String} (h : IsPlain name) : name.startsWith '/' = false := by
  rw [String.startsWith_char_eq_head?]
  rcases hname : name.toList with _ | ⟨c, cs⟩
  · rfl
  · have hc : c ≠ '/' := fun heq => h.no_slash (by rw [hname, heq]; exact List.mem_cons_self)
    simpa using hc

lemma IsPlain.not_endsWith {name : String} (h : IsPlain name) : name.endsWith '/' = false := by
  rw [String.endsWith_char_eq_getLast?, beq_eq_false_iff_ne]
  intro hlast
  exact h.no_slash (List.mem_of_getLast? hlast)

lemma join_empty (name : String) : join "" name = name := by
  simp [join]

/-- A path seen from a directory is the path of the directory, a separator unless it ends with one,
and the path itself. -/
lemma exists_toList_join {a b : String} (hb : b.startsWith '/' = false) (ha : a ≠ "") :
    ∃ c, (join a b).toList = c ++ '/' :: b.toList ∧ (a.toList = c ∨ a.toList = c ++ ['/']) := by
  have hempty : a.isEmpty = false := by simpa using ha
  unfold join
  rw [hb, hempty, Bool.or_self, if_neg Bool.false_ne_true]
  by_cases hlast : a.endsWith '/' = true
  · rw [if_pos hlast]
    rw [String.endsWith_char_eq_getLast?, beq_iff_eq] at hlast
    obtain ⟨c, hc⟩ := List.getLast?_eq_some_iff.mp hlast
    exact ⟨c, by simp [hc], .inr hc⟩
  · rw [if_neg hlast]
    exact ⟨a.toList, by simp, .inl rfl⟩

/-- The names of a path seen from a directory come after those of the directory. -/
lemma rawNames_join (a : String) {b : String} (hb : b.startsWith '/' = false) :
    rawNames (join a b) = rawNames a ++ rawNames b := by
  by_cases ha : a = ""
  · rw [ha, join_empty]
    rfl
  · obtain ⟨c, hjoin, hc | hc⟩ := exists_toList_join hb ha <;>
      simp [rawNames, hjoin, hc, pieces_append_slash, pieces]

lemma isAbsolute_join (a : String) {b : String} (hb : b.startsWith '/' = false) :
    isAbsolute (join a b) = isAbsolute a := by
  unfold isAbsolute
  by_cases ha : a = ""
  · rw [ha, join_empty, hb, String.startsWith_char_eq_head?]
    rfl
  · obtain ⟨c, hjoin, hc | hc⟩ := exists_toList_join hb ha
    · rw [String.startsWith_char_eq_head?, String.startsWith_char_eq_head?, hjoin, hc]
      cases c with
      | nil => exact absurd (String.toList_eq_nil_iff.mp hc) ha
      | cons d c => rfl
    · rw [String.startsWith_char_eq_head?, String.startsWith_char_eq_head?, hjoin, hc]
      cases c <;> rfl

lemma nul_mem_join (a : String) {b : String} (hb : b.startsWith '/' = false) :
    '\x00' ∈ (join a b).toList ↔ '\x00' ∈ a.toList ∨ '\x00' ∈ b.toList := by
  by_cases ha : a = ""
  · rw [ha, join_empty]
    simp
  · obtain ⟨c, hjoin, hc | hc⟩ := exists_toList_join hb ha <;> simp [hjoin, hc]

lemma IsPlain.rawNames_join {name : String} (h : IsPlain name) (a : String) :
    rawNames (join a name) = rawNames a ++ [name] := by
  rw [Path.rawNames_join a h.not_startsWith, h.rawNames_eq]

lemma IsPlain.isAbsolute_join {name : String} (h : IsPlain name) (a : String) :
    isAbsolute (join a name) = isAbsolute a :=
  Path.isAbsolute_join a h.not_startsWith

lemma IsPlain.meansDirectory_join {name : String} (h : IsPlain name) (a : String) :
    meansDirectory (join a name) = false := by
  have hends : (join a name).endsWith '/' = false := by
    by_cases ha : a = ""
    · rw [ha, join_empty, h.not_endsWith]
    · obtain ⟨b, hjoin, -⟩ := exists_toList_join h.not_startsWith ha
      have hname := h.not_endsWith
      rw [String.endsWith_char_eq_getLast?] at hname ⊢
      rw [hjoin, List.getLast?_append, List.getLast?_cons]
      rcases hlast : name.toList.getLast? with _ | c
      · exact absurd (List.getLast?_eq_none_iff.mp hlast) h.toList_ne_nil
      · rw [hlast] at hname
        simpa using hname
  simp [meansDirectory, hends, h.rawNames_join, h.ne_dot, h.ne_dots]

lemma IsPlain.meansDirectory_eq {name : String} (h : IsPlain name) :
    meansDirectory name = false := by
  rw [← join_empty name]
  exact h.meansDirectory_join ""

lemma IsPlain.nul_mem_join {name : String} (h : IsPlain name) (a : String) :
    '\x00' ∈ (join a name).toList ↔ '\x00' ∈ a.toList := by
  simp [Path.nul_mem_join a h.not_startsWith, h.no_nul]

lemma utf8ByteSize_le_join (a name : String) : name.startsWith '/' = false →
    a.utf8ByteSize ≤ (join a name).utf8ByteSize := by
  intro hname
  unfold join
  rw [hname, Bool.false_or]
  split
  · next hempty =>
    have ha : a = "" := by simpa using hempty
    simp [ha]
  · split <;> simp only [String.utf8ByteSize_append] <;> omega

lemma utf8ByteSize_join_le (a b : String) :
    (join a b).utf8ByteSize ≤ a.utf8ByteSize + 1 + b.utf8ByteSize := by
  have hslash : "/".utf8ByteSize = 1 := by decide
  unfold join
  split
  · omega
  · split <;> simp only [String.utf8ByteSize_append] <;> omega

lemma IsPlain.join_ne_empty {name : String} (h : IsPlain name) (a : String) :
    join a name ≠ "" := by
  intro heq
  have hnames := h.rawNames_join a
  rw [heq] at hnames
  cases ha : rawNames a <;> rw [ha] at hnames <;> cases hnames

lemma IsPlain.not_startsWith_append {name : String} (h : IsPlain name) (s : String) :
    (name ++ s).startsWith '/' = false := by
  have hname := h.not_startsWith
  rw [String.startsWith_char_eq_head?] at hname ⊢
  obtain ⟨c, cs, hc⟩ := List.exists_cons_of_ne_nil h.toList_ne_nil
  rw [hc] at hname
  simpa [hc] using hname

lemma IsPlain.not_endsWith_append {name : String} (h : IsPlain name) (s : String) :
    (s ++ name).endsWith '/' = false := by
  rw [String.endsWith_char_eq_getLast?, beq_eq_false_iff_ne]
  intro hlast
  rw [String.toList_append, List.getLast?_append,
    List.getLast?_eq_some_getLast h.toList_ne_nil] at hlast
  exact h.no_slash (Option.some.inj hlast ▸ List.getLast_mem h.toList_ne_nil)

lemma exists_join_eq_append (a : String) :
    ∃ s, ∀ b : String, b.startsWith '/' = false → join a b = s ++ b := by
  by_cases ha : a = ""
  · exact ⟨"", fun b _ => by rw [ha, join_empty]; simp⟩
  · have hempty : a.isEmpty = false := by simpa using ha
    by_cases hlast : a.endsWith '/' = true
    · refine ⟨a, fun b hb => ?_⟩
      rw [join, hb, hempty, Bool.or_self, if_neg Bool.false_ne_true, if_pos hlast]
    · refine ⟨a ++ "/", fun b hb => ?_⟩
      rw [join, hb, hempty, Bool.or_self, if_neg Bool.false_ne_true, if_neg hlast]

/-- A path can be seen from a directory in two steps. -/
lemma IsPlain.join_join {name : String} (h : IsPlain name) (a : String) {b : String}
    (hb : b.startsWith '/' = false) : join (join a name) b = join a (name ++ ("/" ++ b)) := by
  obtain ⟨s, hs⟩ := exists_join_eq_append a
  have hempty : (s ++ name).isEmpty = false := by simp [h.ne_empty]
  rw [hs name h.not_startsWith, hs _ (h.not_startsWith_append _), join, hb, hempty, Bool.or_self,
    if_neg Bool.false_ne_true, h.not_endsWith_append, if_neg Bool.false_ne_true,
    String.append_assoc, String.append_assoc]

lemma not_startsWith_intercalate {names : List String} (h : ∀ name ∈ names, IsPlain name) :
    ("/".intercalate names).startsWith '/' = false := by
  match names with
  | [] => simp [String.startsWith_char_eq_head?]
  | [name] => simpa using (h name List.mem_cons_self).not_startsWith
  | name :: other :: rest =>
    rw [String.intercalate_cons_cons, String.append_assoc]
    exact (h name List.mem_cons_self).not_startsWith_append _

lemma nul_notMem_intercalate {names : List String} (h : ∀ name ∈ names, IsPlain name) :
    '\x00' ∉ ("/".intercalate names).toList := by
  induction names with
  | nil => simp
  | cons name names ih =>
    have hname := (h name List.mem_cons_self).no_nul
    have hrest := ih fun other hother => h other (List.mem_cons_of_mem _ hother)
    rcases names with _ | ⟨other, names⟩
    · simpa using hname
    · rw [String.intercalate_cons_cons]
      simpa [hname] using hrest

end Folio.Path
