import Folio.Proofs.LastTokens

/-!
# Closing sequences

The end of a heading is looked for in the source, from the end of the line backwards. If nothing but
spaces is cut off there, the heading has the tokens of its line, the last of which may be longer.
-/

namespace Folio.Markdown

/-- A title without the spaces at its end. -/
def trimmedTitle (cs : List Char) : List Char :=
  Text.dropEndWhile (· == ' ') cs

/-- What stands in front of a closing sequence: marks at the end of a title that are all there is of
it or have a space before them. -/
def closing? (cs : List Char) : Option (List Char) :=
  let trimmed := trimmedTitle cs
  let bare := Text.dropEndWhile (· == '#') trimmed
  let title := Text.dropEndWhile (· == ' ') bare
  if bare.length < trimmed.length && (bare.isEmpty || title.length < bare.length) then some title
  else none

/-- Spaces and marks behind a title. -/
def closer (spaces marks : Nat) : List Char :=
  List.replicate (spaces + 1) ' ' ++ List.replicate (marks + 1) '#'

lemma mem_closer {c : Char} {i j : Nat} (hc : c ∈ closer i j) : c = ' ' ∨ c = '#' :=
  (List.mem_append.mp hc).imp List.eq_of_mem_replicate List.eq_of_mem_replicate

/-- Blanks and marks, a blank first, as they stand at the end of a title. -/
structure IsEnding (cs : List Char) : Prop where
  first : ∀ c ∈ cs.head?, isInlineBlank c = true
  later : ∀ c ∈ cs, isInlineBlank c = true ∨ c = '#'

lemma isEnding_closer (i j : Nat) : IsEnding (closer i j) := by
  refine ⟨?_, fun c hc => (mem_closer hc).imp ?_ id⟩
  · rintro _ ⟨⟩
    rfl
  · rintro rfl
    rfl

lemma isEnding_of_blanks {cs : List Char} (h : ∀ c ∈ cs, isInlineBlank c = true) : IsEnding cs :=
  ⟨fun c hc => h c (List.mem_of_head? hc), fun c hc => .inl (h c hc)⟩

lemma closer_ne_nil (i j : Nat) : closer i j ≠ [] :=
  List.append_ne_nil_of_right_ne_nil _ (List.cons_ne_nil _ _)

section Titles

variable {cs w : List Char}

/-- A character at the end of a text, as often as it stands there. -/
lemma exists_run (c : Char) (cs : List Char) :
    ∃ n, cs = Text.dropEndWhile (· == c) cs ++ List.replicate n c := by
  refine ⟨(cs.rtakeWhile (· == c)).length, ?_⟩
  have hall : cs.rtakeWhile (· == c) = List.replicate (cs.rtakeWhile (· == c)).length c :=
    List.eq_replicate_iff.mpr ⟨rfl, fun d hd =>
      beq_iff_eq.mp (List.mem_rtakeWhile_imp (p := (· == c)) hd)⟩
  rw [← hall]
  exact List.rdropWhile_append_rtakeWhile.symm

/-- A closed title ends with marks, which have spaces before them unless they are all there is. -/
lemma exists_of_closing? (h : closing? cs = some w) :
    ∃ i j, trimmedTitle cs = w ++ List.replicate i ' ' ++ List.replicate (j + 1) '#' ∧
      (i = 0 → w = []) := by
  simp only [closing?, Option.ite_none_right_eq_some, Bool.and_eq_true, Bool.or_eq_true,
    decide_eq_true_eq, List.isEmpty_iff, Option.some.injEq] at h
  generalize hbare : Text.dropEndWhile (· == '#') (trimmedTitle cs) = bare at h
  obtain ⟨⟨hmarks, hfront⟩, rfl⟩ := h
  obtain ⟨m, htrimmed⟩ := exists_run '#' (trimmedTitle cs)
  obtain ⟨i, hspaces⟩ := exists_run ' ' bare
  rw [hbare] at htrimmed
  obtain ⟨j, rfl⟩ : ∃ j, m = j + 1 := by
    refine Nat.exists_eq_succ_of_ne_zero ?_
    rintro rfl
    rw [List.replicate_zero, List.append_nil] at htrimmed
    rw [htrimmed] at hmarks
    exact Nat.lt_irrefl _ hmarks
  refine ⟨i, j, by rw [← hspaces, htrimmed], ?_⟩
  rintro rfl
  rw [List.replicate_zero, List.append_nil] at hspaces
  rw [← hspaces] at hfront ⊢
  exact hfront.resolve_right (Nat.lt_irrefl _)

/-- A closed title ends with a mark, and spaces at most behind it. -/
lemma getLast?_of_closing? (h : closing? cs = some w) :
    (trimmedTitle cs).getLast? = some '#' := by
  obtain ⟨i, j, htrimmed, -⟩ := exists_of_closing? h
  rw [htrimmed, List.replicate_succ', ← List.append_assoc, List.getLast?_concat]

/-- Behind a title a closing sequence begins with a space. -/
lemma trimmedTitle_of_closing? (h : closing? cs = some w) (hw : w ≠ []) :
    ∃ i j, trimmedTitle cs = w ++ closer i j := by
  obtain ⟨i, j, htrimmed, hi⟩ := exists_of_closing? h
  obtain ⟨i, rfl⟩ := Nat.exists_eq_succ_of_ne_zero (mt hi hw)
  exact ⟨i, j, by rw [htrimmed, closer, List.append_assoc]⟩

lemma ne_nil_of_closing? (h : closing? cs = some w) : cs ≠ [] := by
  rintro rfl
  cases h

/-- Where a title ends that is not closed nothing is cut off but spaces. -/
lemma bare_of_unclosed (h : closing? cs = none) (hne : trimmedTitle cs ≠ []) :
    Text.dropEndWhile (· == '#') (trimmedTitle cs) ≠ [] ∧
      ¬(Text.dropEndWhile (· == ' ') (Text.dropEndWhile (· == '#') (trimmedTitle cs))).length <
        (Text.dropEndWhile (· == '#') (trimmedTitle cs)).length := by
  simp only [closing?, Bool.and_eq_true, Bool.or_eq_true, decide_eq_true_eq,
    List.isEmpty_iff, ite_eq_right_iff, reduceCtorEq, imp_false, not_and, not_or] at h
  generalize hbare : Text.dropEndWhile (· == '#') (trimmedTitle cs) = bare at h ⊢
  have hinit : bare <+: trimmedTitle cs := hbare ▸ List.rdropWhile_prefix _ _
  refine ⟨?_, fun hlt => ?_⟩
  · rintro rfl
    exact (h (List.length_pos_of_ne_nil hne)).1 rfl
  · rcases Nat.lt_or_eq_of_le hinit.length_le with hmarks | heq
    · exact (h hmarks).2 hlt
    · rw [hinit.eq_of_length heq] at hlt
      exact Nat.lt_irrefl _ (lt_of_lt_of_eq hlt
        (congrArg List.length (List.rdropWhile_idempotent (· == ' ') cs)).symm)

/-- Other blanks than spaces may be left at the end of a title. -/
lemma trimmedTitle_eq_append (cs : List Char) :
    trimmedTitle cs =
      cs.rdropWhile isInlineBlank ++ (trimmedTitle cs).rtakeWhile isInlineBlank := by
  have hsplit : cs = (trimmedTitle cs).rdropWhile isInlineBlank ++
      ((trimmedTitle cs).rtakeWhile isInlineBlank ++ cs.rtakeWhile (· == ' ')) := by
    rw [← List.append_assoc, List.rdropWhile_append_rtakeWhile]
    exact List.rdropWhile_append_rtakeWhile.symm
  have hbody : cs.rdropWhile isInlineBlank = (trimmedTitle cs).rdropWhile isInlineBlank := by
    conv_lhs => rw [hsplit]
    refine rdropWhile_eq_of_append (fun c hc => ?_) fun c hc => ?_
    · rcases List.mem_append.mp hc with hblank | hspace
      · exact List.mem_rtakeWhile_imp hblank
      · rw [beq_iff_eq.mp (List.mem_rtakeWhile_imp (p := (· == ' ')) hspace)]
        rfl
    · exact of_mem_getLast?_rdropWhile hc
  rw [hbody]
  exact List.rdropWhile_append_rtakeWhile.symm

end Titles

section Closing

variable {s : Source} {start : Nat} {cs : List Char} {ts : List Token}

lemma OneLine.not_break (hline : OneLine s) {c : Char} (hc : c ∈ s.toList) :
    (c == '\n' || c == '\r') = false := by
  obtain ⟨k, hk⟩ := List.mem_iff_getElem?.mp hc
  have hbreak := hline k
  rwa [← Array.getElem?_toList, hk, Option.all_some, Bool.not_eq_true'] at hbreak

/-- A title as it stands in a source from `start` to the end. -/
structure TitleAt (s : Source) (start : Nat) (cs : List Char) : Prop where
  line : OneLine s
  drop : s.toList.drop start = cs
  size : s.size = start + cs.length
  solid : ∃ c, cs.head? = some c ∧ isInlineBlank c = false

namespace TitleAt

lemma ne_nil (h : TitleAt s start cs) : cs ≠ [] := by
  obtain ⟨c, hc, -⟩ := h.solid
  rintro rfl
  cases hc

lemma start_lt (h : TitleAt s start cs) : start < s.size := by
  have hpos := List.length_pos_of_ne_nil h.ne_nil
  have hsize := h.size
  omega

lemma solid_start (h : TitleAt s start cs) : s[start]?.any isInlineBlank = false := by
  obtain ⟨c, hc, hblank⟩ := h.solid
  rw [← Array.getElem?_toList, ← List.head?_drop, h.drop, hc, Option.any_some, hblank]

lemma trimmed_ne_nil (h : TitleAt s start cs) : trimmedTitle cs ≠ [] := by
  obtain ⟨c, hc, hblank⟩ := h.solid
  intro hnil
  have hspace := List.rdropWhile_eq_nil_iff.mp hnil c (List.mem_of_head? hc)
  rw [beq_iff_eq.mp hspace] at hblank
  cases hblank

lemma split (cs : List Char) : cs = trimmedTitle cs ++ cs.rtakeWhile (· == ' ') :=
  List.rdropWhile_append_rtakeWhile.symm

/-- If the title ends with a character that is no blank, all that is skipped at its end are
spaces. -/
lemma skipBack_trimmed (h : TitleAt s start cs) {q : Char → Bool} (hq : q ' ' = true)
    (hqc : ∀ c ∈ (trimmedTitle cs).getLast?, q c = false) :
    s.skipBack q start s.size = start + (trimmedTitle cs).length := by
  have hback := skipBack_eq (q := q) (h.drop.trans (List.append_nil cs).symm)
  have hdrop : cs.rdropWhile q = trimmedTitle cs := by
    conv_lhs => rw [split cs]
    refine rdropWhile_eq_of_append (fun e he => ?_) hqc
    obtain rfl : e = ' ' := beq_iff_eq.mp (List.mem_rtakeWhile_imp (p := (· == ' ')) he)
    exact hq
  rw [h.size, hback, hdrop]

/-- What is skipped at the end of a title, whatever it ends with. -/
lemma skipBack_blanks (h : TitleAt s start cs) :
    s.skipBack isInlineBlank start s.size = start + (cs.rdropWhile isInlineBlank).length := by
  rw [h.size]
  exact skipBack_eq (h.drop.trans (List.append_nil cs).symm)

lemma headingLimit_eq (h : TitleAt s start cs) :
    headingLimit s start s.size = start + (trimmedTitle cs).length := by
  refine h.skipBack_trimmed (by decide) fun c hc => ?_
  have hmem : c ∈ s.toList.drop start := by
    rw [h.drop, split cs]
    exact List.mem_append_left _ (List.mem_of_getLast? hc)
  have hlast : (c == ' ') = false := of_mem_getLast?_rdropWhile (q := (· == ' ')) hc
  rw [h.line.not_break (List.mem_of_mem_drop hmem), Bool.false_or, hlast]

/-- The positions that a closing sequence is looked for at, in terms of the title. -/
lemma cutClosing_cons (h : TitleAt s start cs) (t : Token) :
    cutClosing s start s.size (t :: ts) =
      let bare := Text.dropEndWhile (· == '#') (trimmedTitle cs)
      let title := Text.dropEndWhile (· == ' ') bare
      if bare = [] then ts
      else match t.kind with
        | .text _ => { t with stop := start +
          (if title.length < bare.length then title.length else (trimmedTitle cs).length) } :: ts
        | _ => t :: ts := by
  have hsplit : trimmedTitle cs = Text.dropEndWhile (· == '#') (trimmedTitle cs) ++
      (trimmedTitle cs).rtakeWhile (· == '#') :=
    List.rdropWhile_append_rtakeWhile.symm
  have hcloser : s.skipBack (· == '#') start (start + (trimmedTitle cs).length) =
      start + (Text.dropEndWhile (· == '#') (trimmedTitle cs)).length :=
    skipBack_eq (h.drop.trans (split cs))
  have hdrop : s.toList.drop start = Text.dropEndWhile (· == '#') (trimmedTitle cs) ++
      ((trimmedTitle cs).rtakeWhile (· == '#') ++ cs.rtakeWhile (· == ' ')) := by
    rw [← List.append_assoc, ← hsplit, ← split cs, h.drop]
  have hbare := skipBack_eq (q := (· == ' ')) hdrop
  simp only [cutClosing, h.headingLimit_eq, hcloser, hbare, Nat.add_lt_add_iff_left,
    Nat.add_eq_left, List.length_eq_zero_iff, ← apply_ite (start + ·)]
  rfl

variable {w : List Char}

/-- At the end of a title that is not closed, plain text reaches to the spaces. -/
theorem cutClosing_of_unclosed (h : TitleAt s start cs) (hclosing : closing? cs = none)
    (escaped : Bool) (first stop : Nat) :
    cutClosing s start s.size (⟨.text escaped, first, stop⟩ :: ts) =
      ⟨.text escaped, first, start + (trimmedTitle cs).length⟩ :: ts := by
  obtain ⟨hne, htitle⟩ := bare_of_unclosed hclosing h.trimmed_ne_nil
  rw [h.cutClosing_cons]
  dsimp only
  rw [if_neg hne, if_neg htitle]

/-- Other tokens are kept there. -/
theorem cutClosing_of_not_text (h : TitleAt s start cs) (hclosing : closing? cs = none)
    (hts : ∀ t ∈ ts.head?, ∀ e, t.kind ≠ .text e) : cutClosing s start s.size ts = ts := by
  cases ts with
  | nil => rfl
  | cons t ts =>
    obtain ⟨kind, first, stop⟩ := t
    obtain ⟨hne, -⟩ := bare_of_unclosed hclosing h.trimmed_ne_nil
    rw [h.cutClosing_cons]
    dsimp only
    rw [if_neg hne]
    cases kind with
    | text e => exact absurd rfl (hts _ rfl e)
    | _ => rfl

/-- From a closed title the closing sequence is cut off, and the blanks in front of it. -/
theorem cutClosing_of_closed (h : TitleAt s start cs) (hclosing : closing? cs = some w)
    (escaped : Bool) (first stop : Nat) :
    cutClosing s start s.size (⟨.text escaped, first, stop⟩ :: ts) =
      if w = [] then ts else ⟨.text escaped, first, start + w.length⟩ :: ts := by
  simp only [closing?, Bool.and_eq_true, Bool.or_eq_true, decide_eq_true_eq,
    List.isEmpty_iff, Option.ite_none_right_eq_some, Option.some.injEq] at hclosing
  rw [h.cutClosing_cons]
  dsimp only
  generalize hbare : Text.dropEndWhile (· == '#') (trimmedTitle cs) = bare at hclosing ⊢
  obtain ⟨⟨-, hfront⟩, rfl⟩ := hclosing
  rcases hfront with rfl | hlt
  · rfl
  · have hne : bare ≠ [] := List.ne_nil_of_length_pos (Nat.zero_lt_of_lt hlt)
    have htitle : Text.dropEndWhile (· == ' ') bare ≠ [] := by
      intro hnil
      obtain ⟨c, hc, hblank⟩ := h.solid
      obtain ⟨rest, hrest⟩ : bare <+: cs :=
        (hbare ▸ List.rdropWhile_prefix _ _ : bare <+: trimmedTitle cs).trans
          (List.rdropWhile_prefix _ _)
      rw [← hrest, List.head?_append_of_ne_nil _ hne] at hc
      have hspace := List.rdropWhile_eq_nil_iff.mp hnil c (List.mem_of_head? hc)
      rw [beq_iff_eq.mp hspace] at hblank
      cases hblank
    rw [if_neg hne, if_neg htitle, if_pos hlt]

/-- The last mark of a closing sequence. -/
lemma getElem?_closing (h : TitleAt s start cs) (hclosing : closing? cs = some w) :
    s[start + ((trimmedTitle cs).length - 1)]? = some '#' := by
  have hlast := getLast?_of_closing? hclosing
  have hpos := List.length_pos_of_ne_nil h.trimmed_ne_nil
  rw [List.getLast?_eq_getElem?] at hlast
  rw [← Array.getElem?_toList, ← List.getElem?_drop, h.drop.trans (split cs),
    List.getElem?_append_left (by omega), hlast]

lemma drop_ending (h : TitleAt s start cs) {tail : List Char}
    (htrimmed : trimmedTitle cs = w ++ tail) :
    s.toList.drop (start + w.length) = tail ++ cs.rtakeWhile (· == ' ') := by
  rw [← List.drop_drop, h.drop.trans (split cs), htrimmed, List.append_assoc, List.drop_left]

/-- From an ending on there are only blanks and marks. -/
lemma endsWithMarks (h : TitleAt s start cs) {tail : List Char}
    (htrimmed : trimmedTitle cs = w ++ tail) (htail : IsEnding tail) :
    EndsWithMarks s (start + w.length) := by
  have hdrop := h.drop_ending htrimmed
  have hspace {c : Char} (hc : c ∈ cs.rtakeWhile (· == ' ')) : isInlineBlank c = true := by
    rw [beq_iff_eq.mp (List.mem_rtakeWhile_imp (p := (· == ' ')) hc)]
    rfl
  refine ⟨fun c hc => ?_, fun k hk c hc => ?_⟩
  · rw [← Array.getElem?_toList, ← List.head?_drop, hdrop] at hc
    cases tail with
    | nil => exact hspace (List.mem_of_head? hc)
    | cons d tail => exact htail.first c hc
  · obtain ⟨i, rfl⟩ := Nat.exists_eq_add_of_le hk
    rw [← Array.getElem?_toList, ← List.getElem?_drop, hdrop] at hc
    rcases List.mem_append.mp (List.mem_of_getElem? hc) with hmem | hmem
    · exact htail.later c hmem
    · exact .inl (hspace hmem)

lemma slice_ending (h : TitleAt s start cs) {tail : List Char}
    (htrimmed : trimmedTitle cs = w ++ tail) :
    s.slice (start + w.length) (start + (trimmedTitle cs).length) = tail := by
  have hslice := slice_eq (h.drop_ending htrimmed)
  rwa [Nat.add_assoc, ← List.length_append, ← htrimmed] at hslice

end TitleAt

end Closing

end Folio.Markdown
