import Folio.Proofs.PlainTexts

/-!
# Torn titles

The text that a deep heading is read from is cut at the first literal that is linked. What is read
then is what was read before, unless the text is torn: it has a marker that it did not have, or
blanks and marks that are cut off no more. In that case the text tells so, by its blanks and marks.
-/

namespace Folio.Tree

open Literal (Found)

def startsBlank (cs : List Char) : Bool :=
  cs.head?.any fun c => c == ' ' || c == '\t'

/-- A text that opens with a marker and is read otherwise when a literal is cut out of it: the
literal begins right behind the marks, or the text is a title whose end is cut off as long as it
stands alone, or only blanks are in front of the literal, which itself begins with one. -/
def Torn (alone : Bool) (value : List Char) : Prop :=
  ∃ f, firstLinked? value = some f ∧
    let count := (value.takeWhile (· == '#')).length
    let rest := value.drop count
    deepLevel ≤ count ∧ (f.start = count ∨ startsBlank rest = true ∧
      (alone = true ∧ dropClosing (Text.trimStart rest) ≠ Text.trimStart rest ∨
        (rest.take (f.start - count)).all Text.isBlank = true ∧
          (rest.drop (f.start - count)).head?.any Text.isBlank = true))

def blanks (cs : List Char) : Nat :=
  cs.countP Text.isBlank

def marks (cs : List Char) : Nat :=
  cs.count '#'

/-- More blanks, or as many and fewer marks. -/
def Outweighs (x y : List Char) : Prop :=
  blanks y < blanks x ∨ blanks y = blanks x ∧ marks x < marks y

/-- One text outweighs the other in case of `p`, and else they are the same. -/
structure Compares (p : Prop) (x y : List Char) : Prop where
  eq : ¬p → x = y
  outweighs : p → Outweighs x y

section Comparing

variable {p q : Prop} {x y z x' y' : List Char}

lemma blanks_append (x y : List Char) : blanks (x ++ y) = blanks x + blanks y :=
  List.countP_append

lemma marks_append (x y : List Char) : marks (x ++ y) = marks x + marks y :=
  List.count_append

lemma Compares.refl (hp : ¬p) (x : List Char) : Compares p x x :=
  ⟨fun _ => rfl, fun h => absurd h hp⟩

lemma Compares.congr (h : Compares p x y) (hpq : p ↔ q) : Compares q x y :=
  ⟨fun hq => h.eq (mt hpq.mp hq), fun hq => h.outweighs (hpq.mpr hq)⟩

/-- The same text is not outweighed, so that two texts tell which case it is. -/
lemma Compares.eq_iff (h : Compares p x y) : x = y ↔ ¬p := by
  refine ⟨?_, h.eq⟩
  rintro rfl hp
  rcases h.outweighs hp with hlt | ⟨-, hlt⟩
  · exact Nat.lt_irrefl _ hlt
  · exact Nat.lt_irrefl _ hlt

lemma Compares.eq_or_outweighs (h : Compares p x y) : x = y ∨ Outweighs x y := by
  by_cases hp : p
  · exact .inr (h.outweighs hp)
  · exact .inl (h.eq hp)

lemma Outweighs.append (h : Outweighs x y) (h' : x' = y' ∨ Outweighs x' y') :
    Outweighs (x ++ x') (y ++ y') := by
  unfold Outweighs at h h' ⊢
  simp only [blanks_append, marks_append]
  rcases h' with rfl | h' <;> omega

lemma Outweighs.append_left (h' : Outweighs x' y') (h : x = y ∨ Outweighs x y) :
    Outweighs (x ++ x') (y ++ y') := by
  unfold Outweighs at h h' ⊢
  simp only [blanks_append, marks_append]
  rcases h with rfl | h <;> omega

lemma Compares.append (h : Compares p x y) (h' : Compares q x' y') :
    Compares (p ∨ q) (x ++ x') (y ++ y') := by
  constructor
  · intro hnot
    rw [h.eq fun hp => hnot (.inl hp), h'.eq fun hq => hnot (.inr hq)]
  · rintro (hp | hq)
    · exact (h.outweighs hp).append h'.eq_or_outweighs
    · exact (h'.outweighs hq).append_left h.eq_or_outweighs

lemma Compares.of_append_left (h : Compares p (z ++ x) (z ++ y)) : Compares p x y := by
  constructor
  · exact fun hp => List.append_cancel_left (h.eq hp)
  · intro hp
    have hweigh := h.outweighs hp
    unfold Outweighs at hweigh ⊢
    simp only [blanks_append, marks_append] at hweigh
    omega

end Comparing

section Titles

variable {alone : Bool} {cs value w : List Char} {n : Nat}

lemma dropEndWhile_append (p : Char → Bool) (cs : List Char) :
    ∃ ds, cs = Text.dropEndWhile p cs ++ ds ∧ ∀ c ∈ ds, p c = true :=
  ⟨cs.rtakeWhile p, List.rdropWhile_append_rtakeWhile.symm,
    fun _ => List.mem_rtakeWhile_imp⟩

lemma trimEnd_cases (cs : List Char) :
    Text.trimEnd cs = cs ∨ blanks (Text.trimEnd cs) < blanks cs := by
  obtain ⟨ds, hcs, hds⟩ := dropEndWhile_append Text.isBlank cs
  have hblanks : blanks cs = blanks (Text.trimEnd cs) + ds.length := by
    conv_lhs => rw [hcs]
    rw [blanks_append, blanks, blanks, List.countP_eq_length.mpr hds]
    rfl
  cases ds with
  | nil => exact .inl (hcs.trans (List.append_nil _)).symm
  | cons d ds =>
    rw [List.length_cons] at hblanks
    exact .inr (by omega)

/-- Whatever is cut off at the end of a title, there is a blank in it, unless the title has nothing
but marks. -/
lemma blanks_dropClosing_lt {c : Char} (hc : c ∈ cs) (hmark : c ≠ '#')
    (hblank : Text.isBlank c = false) (hne : dropClosing cs ≠ cs) :
    blanks (dropClosing cs) < blanks cs := by
  have htrim := trimEnd_cases cs
  obtain ⟨ds, hcs, hds⟩ := dropEndWhile_append Text.isBlank cs
  obtain ⟨es, htrimmed, hes⟩ := dropEndWhile_append (· == '#') (Text.trimEnd cs)
  have hle : blanks (Text.dropEndWhile (· == '#') (Text.trimEnd cs)) ≤ blanks cs := by
    have hbare := congrArg blanks htrimmed
    rw [blanks_append] at hbare
    rcases htrim with heq | hlt
    · rw [heq] at hbare ⊢
      omega
    · omega
  have hmem : c ∈ Text.dropEndWhile (· == '#') (Text.trimEnd cs) := by
    have hin : c ∈ Text.trimEnd cs := by
      rw [hcs] at hc
      refine (List.mem_append.mp hc).resolve_right fun h => ?_
      rw [hds c h] at hblank
      cases hblank
    rw [htrimmed] at hin
    refine (List.mem_append.mp hin).resolve_right fun h => ?_
    exact hmark (beq_iff_eq.mp (hes c h))
  unfold dropClosing at hne ⊢
  dsimp only at hne ⊢
  split at hne
  · next hlast =>
    rw [List.getLast?_eq_none_iff] at hlast
    rw [hlast] at hmem
    cases hmem
  · next d hlast =>
    split at hne
    · next hclosing =>
      rw [if_pos hclosing]
      have hd : Text.isBlank d = true := by
        simp only [Bool.and_eq_true, Bool.or_eq_true, beq_iff_eq] at hclosing
        rcases hclosing.1 with rfl | rfl <;> decide
      refine Nat.lt_of_lt_of_le ((trimEnd_cases _).resolve_left fun heq => ?_) hle
      have hnot := List.rdropWhile_eq_self_iff.mp heq (List.ne_nil_of_mem hmem)
      rw [List.getLast?_eq_some_getLast (List.ne_nil_of_mem hmem)] at hlast
      rw [Option.some.inj hlast] at hnot
      exact hnot hd
    · next hclosing =>
      rw [if_neg hclosing]
      exact htrim.resolve_left hne

/-- What a text says at the front of a paragraph that is read as a deep heading. -/
def readText (alone : Bool) (value : List Char) : List Char :=
  match deepMarker? value with
  | some (_, title) => if alone then dropClosing title else title
  | none => value

/-- What remains of a text in front of the first literal that is linked. -/
def beforeLink (value : List Char) : List Char :=
  match firstLinked? value with
  | some f => value.take f.start
  | none => value

/-- What the text says when it is cut at its literals. -/
def readLinked (alone : Bool) (value : List Char) : List Char :=
  match firstLinked? value with
  | some f => readText false (value.take f.start) ++ value.drop f.start
  | none => readText alone value

lemma exists_marks (value : List Char) :
    ∃ n w, value = List.replicate n '#' ++ w ∧ w.head? ≠ some '#' := by
  obtain ⟨n, w, hdrop, hw, -⟩ := Markdown.drop_eq_marks value 0
  exact ⟨n, w, hdrop, hw⟩

lemma take_marks {k : Nat} (h : n < k) :
    (List.replicate n '#' ++ w).take k = List.replicate n '#' ++ w.take (k - n) := by
  rw [List.take_append, List.length_replicate, List.take_of_length_le (by simp; omega)]

lemma drop_marks {k : Nat} (h : n < k) : (List.replicate n '#' ++ w).drop k = w.drop (k - n) := by
  rw [List.drop_append, List.length_replicate, List.drop_of_length_le (by simp; omega),
    List.nil_append]

/-- The first link in a text that opens with marks begins with them, right behind them or further
on, and a character that is no blank and no mark is in it. -/
lemma firstLinked?_marks {f : Found} (hn : 0 < n)
    (h : firstLinked? (List.replicate n '#' ++ w) = some f) :
    (f.start = 0 ∧ ∃ c, w.head? = some c ∧ Literal.Solid c) ∨
      (f.start = n ∧ ∃ c, w.head? = some c ∧ Literal.Solid c) ∨
        (n < f.start ∧ ∃ c ∈ w.drop (f.start - n), Literal.isTrigger c = true) := by
  obtain ⟨hmem, htarget⟩ := mem_find_of_firstLinked? h
  obtain ⟨c, hc, htrigger⟩ := Literal.exists_trigger_of_mem_find hmem
  obtain ⟨j, hj, hstop, hget⟩ := mem_slice_iff.mp hc
  have hbehind : n ≤ j := by
    by_contra hlt
    rw [List.getElem?_append_left (by simpa using hlt), List.getElem?_replicate,
      if_pos (by omega)] at hget
    cases hget
    cases htrigger
  rcases start_of_literalTarget? hmem htarget with
    hzero | hlater | ⟨hstart, d, literal, hd, hhead, -⟩
  · refine .inl ⟨hzero, ?_⟩
    rw [List.getElem?_append_right (by simpa using hbehind), List.length_replicate] at hget
    obtain ⟨d, w', rfl⟩ : ∃ d w', w = d :: w' := by
      cases w with
      | nil => cases hget
      | cons d w' => exact ⟨d, w', rfl⟩
    refine ⟨d, rfl, Literal.allSolid_of_mem_find hmem d ?_⟩
    refine mem_slice_iff.mpr ⟨n, by omega, by omega, ?_⟩
    rw [List.getElem?_append_right (by simp), List.length_replicate, Nat.sub_self]
    rfl
  · refine .inr (.inr ⟨hlater, c, ?_, htrigger⟩)
    rw [List.getElem?_append_right (by simpa using hbehind), List.length_replicate] at hget
    exact mem_drop_iff.mpr ⟨j - n, by omega, hget⟩
  · refine .inr (.inl ⟨hstart, d, hhead, ?_⟩)
    rcases hd with rfl | rfl <;> decide

lemma not_startsBlank_of_solid {c : Char} (hc : w.head? = some c) (hsolid : Literal.Solid c) :
    startsBlank w = false := by
  rw [startsBlank, hc, Option.any_some, Bool.or_eq_false_iff, beq_eq_false_iff_ne,
    beq_eq_false_iff_ne]
  refine ⟨?_, ?_⟩ <;>
  · rintro rfl
    exact absurd hsolid (by decide)

lemma deepMarker?_of_not_startsBlank {c : Char} (hw : w.head? ≠ some '#')
    (hc : w.head? = some c) (hblank : startsBlank w = false) :
    deepMarker? (List.replicate n '#' ++ w) = none := by
  rw [deepMarker?_eq hw, ite_eq_left_iff]
  intro _
  rw [startsBlank, hc, Option.any_some] at hblank
  rw [hc, Option.all_some, hblank]
  rfl

lemma deepMarker?_of_startsBlank (hn : deepLevel ≤ n) (hblank : startsBlank w = true) :
    deepMarker? (List.replicate n '#' ++ w) =
      some (UInt8.ofNat (min n 255), Text.trimStart w) := by
  cases w with
  | nil => cases hblank
  | cons c w =>
    have hw : (c :: w).head? ≠ some '#' := by
      rw [List.head?_cons, ne_eq, Option.some.injEq]
      rintro rfl
      cases hblank
    have hall : (c :: w).head?.all (fun c => c == ' ' || c == '\t') = true := hblank
    rw [deepMarker?_eq hw, if_neg (by omega), if_pos hall]

/-- A text that opens with few marks is no title, and what remains of it neither. -/
lemma deepMarker?_of_lt (hw : w.head? ≠ some '#') (hn : n < deepLevel) (k : Nat) :
    deepMarker? ((List.replicate n '#' ++ w).take k) = none := by
  rcases Nat.lt_or_ge n k with hlt | hle
  · rw [take_marks hlt, deepMarker?_eq, if_pos hn]
    rw [List.head?_take, if_neg (by omega)]
    exact hw
  · have htake : (List.replicate n '#' ++ w).take k = List.replicate k '#' ++ [] := by
      rw [List.take_append_of_le_length (by simpa using hle), List.take_replicate,
        Nat.min_eq_left hle, List.append_nil]
    rw [htake, deepMarker?_eq (by simp), if_pos (by omega)]

lemma trimStart_append_of_all {x : List Char} (h : x.all Text.isBlank = true) (y : List Char) :
    Text.trimStart (x ++ y) = Text.trimStart y :=
  List.dropWhile_append_of_pos (List.all_eq_true.mp h)

lemma trimStart_append_of_not_all {x : List Char} (h : x.all Text.isBlank = false)
    (y : List Char) : Text.trimStart (x ++ y) = Text.trimStart x ++ y := by
  have hne : (x.dropWhile Text.isBlank).isEmpty = false := by
    rw [← Bool.not_eq_true, List.isEmpty_iff, List.dropWhile_eq_nil_iff, ← List.all_eq_true, h]
    decide
  rw [Text.trimStart, Text.trimStart, List.dropWhile_append, hne, if_neg Bool.false_ne_true]

lemma trimStart_of_all (h : cs.all Text.isBlank = true) : Text.trimStart cs = [] :=
  List.dropWhile_eq_nil_iff.mpr (List.all_eq_true.mp h)

lemma mem_trimStart {c : Char} (hc : c ∈ cs) (hblank : Text.isBlank c = false) :
    c ∈ Text.trimStart cs := by
  rw [← List.takeWhile_append_dropWhile (p := Text.isBlank) (l := cs)] at hc
  refine (List.mem_append.mp hc).resolve_left fun htake => ?_
  rw [List.all_eq_true.mp List.all_takeWhile c htake] at hblank
  cases hblank

lemma blanks_trimStart_lt (h : cs.head?.any Text.isBlank = true) :
    blanks (Text.trimStart cs) < blanks cs := by
  cases cs with
  | nil => cases h
  | cons c cs =>
    have hc : Text.isBlank c = true := h
    have hle : blanks (Text.trimStart cs) ≤ blanks cs :=
      (List.dropWhile_sublist _).countP_le
    rw [Text.trimStart, List.dropWhile_cons_of_pos hc, ← Text.trimStart]
    rw [blanks, blanks, List.countP_cons_of_pos hc]
    exact Nat.lt_succ_of_le hle

lemma trimStart_of_head (h : cs.head?.any Text.isBlank = false) : Text.trimStart cs = cs := by
  cases cs with
  | nil => rfl
  | cons c cs =>
    have hc : Text.isBlank c = false := h
    exact List.dropWhile_cons_of_neg (by simp [hc])

lemma isBlank_of_isTrigger {c : Char} (h : Literal.isTrigger c = true) :
    Text.isBlank c = false := by
  simp only [Literal.isTrigger, Bool.or_eq_true, beq_iff_eq] at h
  rcases h with (rfl | rfl) | rfl <;> decide

/-- Two titles of which one is not cut off at its end. -/
lemma title_cases (alone : Bool) {c : Char} (hc : c ∈ cs) (htrigger : Literal.isTrigger c = true) :
    (¬(alone = true ∧ dropClosing cs ≠ cs) ∧ (if alone then dropClosing cs else cs) = cs) ∨
      (alone = true ∧ dropClosing cs ≠ cs) ∧
        blanks (if alone then dropClosing cs else cs) < blanks cs := by
  have hmark : c ≠ '#' := by
    rintro rfl
    cases htrigger
  have hblank := isBlank_of_isTrigger htrigger
  cases alone with
  | false => exact .inl ⟨by simp, rfl⟩
  | true =>
    by_cases hne : dropClosing cs = cs
    · exact .inl ⟨by simp [hne], hne⟩
    · exact .inr ⟨⟨rfl, hne⟩, blanks_dropClosing_lt hc hmark hblank hne⟩

/-- A text says the same before and after it is cut at its literals, and it is a title both times or
not at all. -/
def Agrees (alone : Bool) (value : List Char) : Prop :=
  readLinked alone value = readText alone value ∧
    (deepMarker? (beforeLink value)).isSome = (deepMarker? value).isSome

def AgreesUnlessTorn (alone : Bool) (value : List Char) : Prop :=
  ¬Torn alone value ∧ Agrees alone value ∨
    Torn alone value ∧ Outweighs (readLinked alone value) (readText alone value)

section Marks

variable {f : Found} (hfirst : firstLinked? (List.replicate n '#' ++ w) = some f)
  (hw : w.head? ≠ some '#')

include hfirst

lemma agrees_of_no_marker (htext : deepMarker? (List.replicate n '#' ++ w) = none)
    (hbefore : deepMarker? ((List.replicate n '#' ++ w).take f.start) = none) :
    Agrees alone (List.replicate n '#' ++ w) := by
  simp only [Agrees, readLinked, readText, beforeLink, hfirst, htext, hbefore,
    List.take_append_drop, and_self]

include hw

lemma torn_iff : Torn alone (List.replicate n '#' ++ w) ↔
    deepLevel ≤ n ∧ (f.start = n ∨ startsBlank w = true ∧
      (alone = true ∧ dropClosing (Text.trimStart w) ≠ Text.trimStart w ∨
        (w.take (f.start - n)).all Text.isBlank = true ∧
          (w.drop (f.start - n)).head?.any Text.isBlank = true)) := by
  simp only [Torn, takeWhile_marks hw, List.length_replicate, List.drop_left', hfirst,
    Option.some.injEq, exists_eq_left']

/-- There are too few marks. -/
lemma agreesUnlessTorn_of_lt (hn : n < deepLevel) :
    AgreesUnlessTorn alone (List.replicate n '#' ++ w) := by
  refine .inl ⟨?_, agrees_of_no_marker hfirst ?_ (deepMarker?_of_lt hw hn _)⟩
  · rw [torn_iff hfirst hw]
    omega
  · rw [← List.take_length (l := List.replicate n '#' ++ w)]
    exact deepMarker?_of_lt hw hn _

/-- The link begins with the marks. -/
lemma agreesUnlessTorn_of_front {c : Char} (hn : deepLevel ≤ n) (hstart : f.start = 0)
    (hc : w.head? = some c) (hsolid : Literal.Solid c) :
    AgreesUnlessTorn alone (List.replicate n '#' ++ w) := by
  have hblank := not_startsBlank_of_solid hc hsolid
  have hpos : 0 < n := Nat.lt_of_lt_of_le (by decide) hn
  refine .inl ⟨?_, agrees_of_no_marker hfirst (deepMarker?_of_not_startsBlank hw hc hblank) ?_⟩
  · rw [torn_iff hfirst hw, hblank, hstart]
    simp only [Bool.false_eq_true, false_and, or_false]
    omega
  · rw [hstart]
    rfl

/-- The link begins right behind the marks, which are a marker of their own once it is cut off. -/
lemma agreesUnlessTorn_of_adjacent {c : Char} (hn : deepLevel ≤ n) (hstart : f.start = n)
    (hc : w.head? = some c) (hsolid : Literal.Solid c) :
    AgreesUnlessTorn alone (List.replicate n '#' ++ w) := by
  have hblank := not_startsBlank_of_solid hc hsolid
  have hmarks : deepMarker? (List.replicate n '#') = some (UInt8.ofNat (min n 255), []) := by
    have heq := deepMarker?_eq (n := n) (w := []) (by simp)
    rw [List.append_nil, if_neg (by omega)] at heq
    exact heq
  have hlinked : readLinked alone (List.replicate n '#' ++ w) = w := by
    simp only [readLinked, hfirst, hstart, List.take_left', List.drop_left',
      List.length_replicate, readText, hmarks]
    rfl
  have htext : readText alone (List.replicate n '#' ++ w) = List.replicate n '#' ++ w := by
    simp only [readText, deepMarker?_of_not_startsBlank hw hc hblank]
  refine .inr ⟨(torn_iff hfirst hw).mpr ⟨hn, .inl hstart⟩, ?_⟩
  rw [hlinked, htext]
  refine .inr ⟨?_, ?_⟩
  · rw [blanks_append, blanks, List.countP_replicate, if_neg (by decide), Nat.zero_add]
  · rw [marks_append, marks, marks, List.count_replicate_self]
    exact Nat.lt_add_of_pos_left (Nat.lt_of_lt_of_le (by decide) hn)

/-- The link begins further on, and no blank is behind the marks. -/
lemma agreesUnlessTorn_of_behind {c : Char} (hstart : n < f.start) (hc : w.head? = some c)
    (hblank : startsBlank w = false) : AgreesUnlessTorn alone (List.replicate n '#' ++ w) := by
  have hhead : (w.take (f.start - n)).head? = w.head? := by
    rw [List.head?_take, if_neg (by omega)]
  refine .inl ⟨?_, agrees_of_no_marker hfirst (deepMarker?_of_not_startsBlank hw hc hblank) ?_⟩
  · rw [torn_iff hfirst hw, hblank]
    simp only [Bool.false_eq_true, false_and, or_false]
    omega
  · rw [take_marks hstart]
    refine deepMarker?_of_not_startsBlank (hhead ▸ hw) (hhead.trans hc) ?_
    rwa [startsBlank, hhead]

/-- The link stands in the title. -/
lemma agreesUnlessTorn_of_title {c : Char} (hn : deepLevel ≤ n) (hblank : startsBlank w = true)
    (hstart : n < f.start) (hc : c ∈ w.drop (f.start - n))
    (htrigger : Literal.isTrigger c = true) :
    AgreesUnlessTorn alone (List.replicate n '#' ++ w) := by
  have hblank' : startsBlank (w.take (f.start - n)) = true := by
    rwa [startsBlank, List.head?_take, if_neg (by omega)]
  have hmarker := deepMarker?_of_startsBlank hn hblank
  have hmarker' := deepMarker?_of_startsBlank hn hblank'
  have hkind : (deepMarker? (beforeLink (List.replicate n '#' ++ w))).isSome =
      (deepMarker? (List.replicate n '#' ++ w)).isSome := by
    simp only [beforeLink, hfirst, take_marks hstart, hmarker, hmarker', Option.isSome_some]
  have hlinked : readLinked alone (List.replicate n '#' ++ w) =
      Text.trimStart (w.take (f.start - n)) ++ w.drop (f.start - n) := by
    simp only [readLinked, hfirst, readText, take_marks hstart, hmarker', drop_marks hstart,
      Bool.false_eq_true, if_false]
  have htext : readText alone (List.replicate n '#' ++ w) =
      if alone then dropClosing (Text.trimStart w) else Text.trimStart w := by
    simp only [readText, hmarker]
  have hmem : c ∈ Text.trimStart w :=
    mem_trimStart (List.mem_of_mem_drop hc) (isBlank_of_isTrigger htrigger)
  have htitle := title_cases alone hmem htrigger
  have htorn : Torn alone (List.replicate n '#' ++ w) ↔
      alone = true ∧ dropClosing (Text.trimStart w) ≠ Text.trimStart w ∨
        (w.take (f.start - n)).all Text.isBlank = true ∧
          (w.drop (f.start - n)).head?.any Text.isBlank = true := by
    rw [torn_iff hfirst hw, and_iff_right hn, or_iff_right (by omega), and_iff_right hblank]
  have hsplit := List.take_append_drop (f.start - n) w
  rw [AgreesUnlessTorn, Agrees, and_iff_left hkind, hlinked, htext, htorn]
  cases hall : (w.take (f.start - n)).all Text.isBlank with
  | true =>
    have htrim := trimStart_append_of_all hall (w.drop (f.start - n))
    rw [hsplit] at htrim
    rw [trimStart_of_all hall, List.nil_append]
    cases hhead : (w.drop (f.start - n)).head?.any Text.isBlank with
    | true =>
      have hlt := blanks_trimStart_lt hhead
      rw [← htrim] at hlt
      refine .inr ⟨.inr ⟨rfl, rfl⟩, .inl ?_⟩
      rcases htitle with ⟨-, heq⟩ | ⟨-, hcut⟩
      · rwa [heq]
      · exact hcut.trans hlt
    | false =>
      rw [← trimStart_of_head hhead, ← htrim]
      rcases htitle with ⟨hnot, heq⟩ | ⟨hcloses, hcut⟩
      · exact .inl ⟨by simpa using hnot, heq.symm⟩
      · exact .inr ⟨.inl hcloses, .inl hcut⟩
  | false =>
    rw [← trimStart_append_of_not_all hall, hsplit]
    rcases htitle with ⟨hnot, heq⟩ | ⟨hcloses, hcut⟩
    · exact .inl ⟨by simpa using hnot, heq.symm⟩
    · exact .inr ⟨.inl hcloses, .inl hcut⟩

end Marks

lemma agreesUnlessTorn (alone : Bool) (value : List Char) : AgreesUnlessTorn alone value := by
  cases hfirst : firstLinked? value with
  | none =>
    refine .inl ⟨?_, ?_, ?_⟩
    · rintro ⟨f, hf, -⟩
      rw [hfirst] at hf
      cases hf
    · simp only [readLinked, hfirst]
    · simp only [beforeLink, hfirst]
  | some f =>
    obtain ⟨n, w, rfl, hw⟩ := exists_marks value
    rcases Nat.lt_or_ge n deepLevel with hfew | hmany
    · exact agreesUnlessTorn_of_lt hfirst hw hfew
    have hpos : 0 < n := Nat.lt_of_lt_of_le (by decide) hmany
    rcases firstLinked?_marks hpos hfirst with
      ⟨hstart, c, hc, hsolid⟩ | ⟨hstart, c, hc, hsolid⟩ | ⟨hstart, c, hc, htrigger⟩
    · exact agreesUnlessTorn_of_front hfirst hw hmany hstart hc hsolid
    · exact agreesUnlessTorn_of_adjacent hfirst hw hmany hstart hc hsolid
    · cases hblank : startsBlank w with
      | true => exact agreesUnlessTorn_of_title hfirst hw hmany hblank hstart hc htrigger
      | false =>
        cases w with
        | nil =>
          rw [List.drop_nil] at hc
          cases hc
        | cons d w => exact agreesUnlessTorn_of_behind hfirst hw hstart rfl hblank

end Titles

end Folio.Tree
