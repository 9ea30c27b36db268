import Folio.Page
import Mathlib.Data.List.Infix
import Mathlib.Tactic.Lemma

/-!
# Escaped texts

The four replacements, one after another, write each character of a text once: as an entity, or as
itself. Reading the entities from left to right gives the text back. What escaping writes are the
texts without a bracket or a quotation mark in which every ampersand begins an entity, and no
others, so that none of it can end the place where the text stands.
-/

namespace Folio

/-- A text in which a character does not occur ends where that character comes next. -/
lemma delimiter_cancel {c : Char} {u v x y : List Char} (hu : c ∉ u) (hv : c ∉ v)
    (h : u ++ c :: x = v ++ c :: y) : u = v ∧ x = y := by
  induction u generalizing v with
  | nil =>
    cases v with
    | nil => exact ⟨rfl, (List.cons.inj h).2⟩
    | cons d v => exact absurd ((List.cons.inj h).1 ▸ List.mem_cons_self) hv
  | cons a u ih =>
    cases v with
    | nil => exact absurd ((List.cons.inj h).1 ▸ List.mem_cons_self) hu
    | cons d v =>
      obtain ⟨rfl, htail⟩ := List.cons.inj h
      obtain ⟨rfl, hxy⟩ :=
        ih (List.not_mem_of_not_mem_cons hu) (List.not_mem_of_not_mem_cons hv) htail
      exact ⟨rfl, hxy⟩

namespace Page

def escapedChar (c : Char) : List Char :=
  match c with
  | '&' => ['&', 'a', 'm', 'p', ';']
  | '<' => ['&', 'l', 't', ';']
  | '>' => ['&', 'g', 't', ';']
  | '"' => ['&', 'q', 'u', 'o', 't', ';']
  | c => [c]

def entities : List String := ["&amp;", "&lt;", "&gt;", "&quot;"]

/-- Reads entities from left to right. What an entity stands for is not read again, and an
ampersand that begins none is kept. -/
def unescapeChars : List Char → List Char
  | [] => []
  | '&' :: 'a' :: 'm' :: 'p' :: ';' :: cs => '&' :: unescapeChars cs
  | '&' :: 'l' :: 't' :: ';' :: cs => '<' :: unescapeChars cs
  | '&' :: 'g' :: 't' :: ';' :: cs => '>' :: unescapeChars cs
  | '&' :: 'q' :: 'u' :: 'o' :: 't' :: ';' :: cs => '"' :: unescapeChars cs
  | c :: cs => c :: unescapeChars cs

def unescape (s : String) : String :=
  String.ofList (unescapeChars s.toList)

/-- No bracket and no quotation mark, and an ampersand only where an entity begins. -/
structure IsEscaped (cs : List Char) : Prop where
  lt_notMem : '<' ∉ cs
  gt_notMem : '>' ∉ cs
  quot_notMem : '"' ∉ cs
  entity_of_ampersand : ∀ rest, '&' :: rest <:+ cs →
    ∃ entity ∈ entities, entity.toList <+: '&' :: rest

section Characters

variable {c d : Char} {x y : List Char}

lemma escapedChar_of_plain (hamp : c ≠ '&') (hlt : c ≠ '<') (hgt : c ≠ '>') (hquot : c ≠ '"') :
    escapedChar c = [c] :=
  escapedChar.eq_5 c hamp hlt hgt hquot

/-- Only a character that is written as itself is no ampersand. -/
lemma escapedChar_cases (c : Char) :
    escapedChar c = [c] ∧ '&' ≠ c ∧ '<' ≠ c ∧ '>' ≠ c ∧ '"' ≠ c ∨
      c = '&' ∨ c = '<' ∨ c = '>' ∨ c = '"' := by
  by_cases hamp : c = '&'
  · exact .inr (.inl hamp)
  by_cases hlt : c = '<'
  · exact .inr (.inr (.inl hlt))
  by_cases hgt : c = '>'
  · exact .inr (.inr (.inr (.inl hgt)))
  by_cases hquot : c = '"'
  · exact .inr (.inr (.inr (.inr hquot)))
  exact .inl ⟨escapedChar_of_plain hamp hlt hgt hquot, Ne.symm hamp, Ne.symm hlt, Ne.symm hgt,
    Ne.symm hquot⟩

lemma notMem_escapedChar (hd : d = '<' ∨ d = '>' ∨ d = '"') (c : Char) : d ∉ escapedChar c := by
  intro hmem
  rcases escapedChar_cases c with ⟨hc, -, hlt, hgt, hquot⟩ | rfl | rfl | rfl | rfl
  · rw [hc, List.mem_singleton] at hmem
    subst hmem
    rcases hd with rfl | rfl | rfl <;> contradiction
  all_goals rcases hd with rfl | rfl | rfl <;> revert hmem <;> decide

/-- Only an entity has an ampersand, and only in front. -/
lemma ampersand_suffix_cases (h : '&' :: x <:+ escapedChar c ++ y) :
    (∃ entity ∈ entities, entity.toList <+: '&' :: x) ∨ '&' :: x <:+ y := by
  rcases escapedChar_cases c with ⟨hc, hamp, -⟩ | rfl | rfl | rfl | rfl
  · rw [hc, List.singleton_append, List.suffix_cons_iff] at h
    rcases h with h | h
    · exact absurd (List.cons.inj h).1 hamp
    · exact .inr h
  all_goals
    simp only [escapedChar, List.cons_append, List.nil_append, List.suffix_cons_iff,
      List.cons.injEq, Char.reduceEq, true_and, false_and, false_or] at h
    refine h.imp_left ?_
    rintro rfl
  · exact ⟨"&amp;", by decide, y, rfl⟩
  · exact ⟨"&lt;", by decide, y, rfl⟩
  · exact ⟨"&gt;", by decide, y, rfl⟩
  · exact ⟨"&quot;", by decide, y, rfl⟩

lemma unescapeChars_cons_of_ne (hc : '&' ≠ c) (cs : List Char) :
    unescapeChars (c :: cs) = c :: unescapeChars cs := by
  rw [unescapeChars] <;> rintro _ rfl <;> contradiction

lemma unescapeChars_escapedChar_append (c : Char) (cs : List Char) :
    unescapeChars (escapedChar c ++ cs) = c :: unescapeChars cs := by
  rcases escapedChar_cases c with ⟨hc, hamp, -⟩ | rfl | rfl | rfl | rfl
  · rw [hc, List.singleton_append, unescapeChars_cons_of_ne hamp]
  all_goals rfl

end Characters

section Texts

lemma toList_replace (c : Char) (entity s : String) :
    (replace c entity s).toList =
      s.toList.flatMap fun d => if d = c then entity.toList else [d] :=
  String.toList_ofList

lemma toList_escape (s : String) : (escape s).toList = s.toList.flatMap escapedChar := by
  unfold escape
  rw [toList_replace, toList_replace, toList_replace, toList_replace, List.flatMap_assoc,
    List.flatMap_assoc, List.flatMap_assoc]
  apply List.flatMap_congr
  intro c _
  rcases escapedChar_cases c with ⟨hc, hamp, hlt, hgt, hquot⟩ | rfl | rfl | rfl | rfl
  · simp only [hc, hamp.symm, hlt.symm, hgt.symm, hquot.symm, if_false, List.flatMap_singleton]
  all_goals rfl

lemma escape_eq (s : String) : escape s = String.ofList (s.toList.flatMap escapedChar) := by
  rw [← toList_escape, String.ofList_toList]

lemma notMem_escape {d : Char} (hd : d = '<' ∨ d = '>' ∨ d = '"') (s : String) :
    d ∉ (escape s).toList := by
  rw [toList_escape, List.mem_flatMap]
  rintro ⟨c, -, hmem⟩
  exact notMem_escapedChar hd c hmem

lemma entity_of_ampersand_flatMap {cs rest : List Char}
    (h : '&' :: rest <:+ cs.flatMap escapedChar) :
    ∃ entity ∈ entities, entity.toList <+: '&' :: rest := by
  induction cs with
  | nil => exact absurd (List.suffix_nil.mp h) (List.cons_ne_nil _ _)
  | cons c cs ih =>
    rw [List.flatMap_cons] at h
    rcases ampersand_suffix_cases h with hentity | htail
    · exact hentity
    · exact ih htail

lemma isEscaped_escape (s : String) : IsEscaped (escape s).toList where
  lt_notMem := notMem_escape (.inl rfl) s
  gt_notMem := notMem_escape (.inr (.inl rfl)) s
  quot_notMem := notMem_escape (.inr (.inr rfl)) s
  entity_of_ampersand rest h := by
    rw [toList_escape] at h
    exact entity_of_ampersand_flatMap h

lemma unescapeChars_flatMap (cs : List Char) :
    unescapeChars (cs.flatMap escapedChar) = cs := by
  induction cs with
  | nil => rfl
  | cons c cs ih => rw [List.flatMap_cons, unescapeChars_escapedChar_append, ih]

lemma leftInverse_unescape_escape : Function.LeftInverse unescape escape := by
  intro s
  rw [unescape, toList_escape, unescapeChars_flatMap, String.ofList_toList]

theorem escape_injective : Function.Injective escape :=
  leftInverse_unescape_escape.injective

end Texts

section Images

variable {cs ds : List Char}

lemma IsEscaped.of_suffix (h : IsEscaped cs) (hds : ds <:+ cs) : IsEscaped ds where
  lt_notMem hmem := h.lt_notMem (hds.mem hmem)
  gt_notMem hmem := h.gt_notMem (hds.mem hmem)
  quot_notMem hmem := h.quot_notMem (hds.mem hmem)
  entity_of_ampersand rest hrest := h.entity_of_ampersand rest (hrest.trans hds)

lemma IsEscaped.flatMap_unescapeChars (h : IsEscaped cs) :
    (unescapeChars cs).flatMap escapedChar = cs := by
  fun_induction unescapeChars cs with
  | case1 => rfl
  | case2 cs ih => rw [List.flatMap_cons, ih (h.of_suffix ⟨escapedChar '&', rfl⟩)]; rfl
  | case3 cs ih => rw [List.flatMap_cons, ih (h.of_suffix ⟨escapedChar '<', rfl⟩)]; rfl
  | case4 cs ih => rw [List.flatMap_cons, ih (h.of_suffix ⟨escapedChar '>', rfl⟩)]; rfl
  | case5 cs ih => rw [List.flatMap_cons, ih (h.of_suffix ⟨escapedChar '"', rfl⟩)]; rfl
  | case6 c cs hamp hlt hgt hquot ih =>
    -- no entity begins here, so this is no ampersand
    have hplain : c ≠ '&' := by
      rintro rfl
      obtain ⟨entity, hentity, rest, hrest⟩ := h.entity_of_ampersand cs List.suffix_rfl
      simp only [entities, List.mem_cons, List.not_mem_nil, or_false] at hentity
      rcases hentity with rfl | rfl | rfl | rfl
      · exact hamp rest rfl (List.cons.inj hrest).2.symm
      · exact hlt rest rfl (List.cons.inj hrest).2.symm
      · exact hgt rest rfl (List.cons.inj hrest).2.symm
      · exact hquot rest rfl (List.cons.inj hrest).2.symm
    have hhead : escapedChar c = [c] :=
      escapedChar_of_plain hplain
        (fun heq => h.lt_notMem (heq ▸ List.mem_cons_self))
        (fun heq => h.gt_notMem (heq ▸ List.mem_cons_self))
        (fun heq => h.quot_notMem (heq ▸ List.mem_cons_self))
    rw [List.flatMap_cons, hhead, ih (h.of_suffix (List.suffix_cons c cs)), List.singleton_append]

lemma escape_unescape {t : String} (h : IsEscaped t.toList) : escape (unescape t) = t := by
  rw [escape_eq, unescape, String.toList_ofList, h.flatMap_unescapeChars, String.ofList_toList]

/-- Escaping writes exactly the texts of this form. -/
theorem isEscaped_iff_exists_escape (t : String) : IsEscaped t.toList ↔ ∃ s, escape s = t := by
  constructor
  · intro h
    exact ⟨unescape t, escape_unescape h⟩
  · rintro ⟨s, rfl⟩
    exact isEscaped_escape s

end Images

/-- The four replacements in turn are one pass over the characters. What they leave cannot end the
place where it stands, and reading its entities gives the text back, whatever entities the text
holds itself. -/
theorem escape_single_pass_reversible (s : String) :
    escape s = String.ofList (s.toList.flatMap escapedChar) ∧ IsEscaped (escape s).toList ∧
      unescape (escape s) = s :=
  ⟨escape_eq s, isEscaped_escape s, leftInverse_unescape_escape s⟩

example : escape "&lt;<&amp" = "&amp;lt;&lt;&amp;amp" ∧
    unescape "&amp;lt;&lt;&amp;amp" = "&lt;<&amp" := by
  decide +kernel

end Page

end Folio
