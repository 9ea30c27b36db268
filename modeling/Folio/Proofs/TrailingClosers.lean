import Folio.Proofs.LiftedTitles

/-!
# Endings behind nodes

In the text of a paragraph the closing sequence of a heading is plain text behind the title, and in
the text of a heading blanks may be. No literal reaches into them, so that the title is cut at the
same literals with them and without them.
-/

namespace Folio

namespace Literal

open Markdown (IsEnding isInlineBlank_cases)

variable {c : Char} {before after cs tail : List Char} {i skip : Nat}

section Behind

/-- Without a colon, a dot or an at sign there is no literal. -/
lemma findFrom_eq_nil (hcs : ∀ c ∈ cs, isTrigger c = false) (before : List Char) (skip i : Nat) :
    findFrom before skip i cs = [] := by
  induction cs generalizing before skip i with
  | nil => rfl
  | cons c cs ih =>
    obtain ⟨hc, hcs⟩ := List.forall_mem_cons.mp hcs
    cases skip with
    | succ skip => exact ih hcs [] skip (i + 1)
    | zero =>
      have hnone : around before c cs = none := by
        cases haround : around before c cs with
        | none => rfl
        | some r => rw [isTrigger_of_around haround] at hc; cases hc
      rw [findFrom, hnone]
      exact ih hcs (c :: before) 0 (i + 1)

lemma isTopLevel_append (h : ∀ c ∈ tail, c.isAlpha = false) (cs : List Char) :
    isTopLevel (cs ++ tail) = isTopLevel cs := by
  match cs, tail with
  | _ :: _ :: _, _ => rfl
  | [_], [] => rfl
  | [], [] => rfl
  | [], [_] => rfl
  | [_], d :: _ => simp [isTopLevel, h d]
  | [], d :: _ :: _ => simp [isTopLevel, h d]

lemma urlAround_of_not_slashes (h : ¬['/', '/'] <+: cs) : urlAround before cs = none := by
  unfold urlAround
  split
  · exact absurd (List.prefix_append ['/', '/'] _) h
  · rfl

variable (htail : IsEnding tail)

include htail

lemma scanAuthority_append (rules : AuthorityRules) (s : AuthorityState) (i : Nat)
    (cs : List Char) : scanAuthority rules s i (cs ++ tail) = scanAuthority rules s i cs := by
  induction cs generalizing s i with
  | nil =>
    cases tail with
    | nil => rfl
    | cons b more =>
      rcases isInlineBlank_cases (htail.first b rfl) with rfl | rfl | rfl | rfl <;> rfl
  | cons c cs ih => simp only [List.cons_append, scanAuthority, ih]

lemma scanTail_append (quote : Option Char) (s : TailState) (i : Nat) (cs : List Char) :
    scanTail quote s i (cs ++ tail) = scanTail quote s i cs := by
  induction cs generalizing s i with
  | nil =>
    cases tail with
    | nil => rfl
    | cons b more =>
      rcases isInlineBlank_cases (htail.first b rfl) with rfl | rfl | rfl | rfl <;> rfl
  | cons c cs ih => simp only [List.cons_append, scanTail, ih]

lemma tailLength_append (quote : Option Char) (cs : List Char) :
    tailLength quote (cs ++ tail) = tailLength quote cs := by
  have hnone {cs : List Char} (h : cs.head? ≠ some '/') : tailLength quote cs = 0 := by
    unfold tailLength
    split
    · exact absurd rfl h
    · rfl
  cases cs with
  | nil =>
    have hslash : tail.head? ≠ some '/' := fun h => absurd (htail.first '/' h) (by decide)
    rw [List.nil_append, hnone hslash, hnone (by simp)]
  | cons c cs =>
    by_cases hc : c = '/'
    · subst hc
      exact scanTail_append htail quote _ 0 ('/' :: cs)
    · rw [hnone (by simpa using hc), hnone (by simpa using hc)]

lemma tail_append (rules : AuthorityRules) (quote : Option Char) {host : Nat} {dot : Option Nat}
    (h : authorityEnd rules cs = some (host, dot)) :
    tailLength quote ((cs ++ tail).drop host) = tailLength quote (cs.drop host) := by
  rw [List.drop_append_of_le_length (authorityEnd_le h), tailLength_append htail]

lemma slashes_prefix_append : ['/', '/'] <+: cs ++ tail ↔ ['/', '/'] <+: cs := by
  cases tail with
  | nil => rw [List.append_nil]
  | cons b more =>
    have hb : '/' ≠ b := by
      rintro rfl
      exact absurd (htail.first '/' rfl) (by decide)
    rcases cs with _ | ⟨c, _ | ⟨d, cs⟩⟩ <;> simp [hb]

lemma authorityEnd_append (rules : AuthorityRules) (cs : List Char) :
    authorityEnd rules (cs ++ tail) = authorityEnd rules cs := by
  have halpha : ∀ c ∈ tail, c.isAlpha = false := by
    intro c hc
    rcases htail.later c hc with hblank | rfl
    · rcases isInlineBlank_cases hblank with rfl | rfl | rfl | rfl <;> rfl
    · rfl
  have htop (n : Nat) : isTopLevel ((cs ++ tail).drop n) = isTopLevel (cs.drop n) := by
    rw [List.drop_append, isTopLevel_append fun c hc => halpha c (List.mem_of_mem_drop hc)]
  simp only [authorityEnd, scanAuthority_append htail, htop]

lemma urlAround_append (before after : List Char) :
    urlAround before (after ++ tail) = urlAround before after := by
  by_cases hslashes : ['/', '/'] <+: after
  · obtain ⟨rest, rfl⟩ := hslashes
    simp only [urlAround, List.cons_append, List.nil_append, authorityEnd_append htail]
    cases schemeReach none none 0 before with
    | none => cases rest <;> cases tail <;> rfl
    | some r =>
      dsimp only [Option.bind_eq_bind, Option.bind_some]
      cases rest with
      | nil =>
        cases tail with
        | nil => rfl
        | cons b more =>
          cases hostSchemes.contains (String.ofList (before.take r.length).reverse) <;>
            rcases isInlineBlank_cases (htail.first b rfl) with rfl | rfl | rfl | rfl <;> rfl
      | cons c cs =>
        generalize (AuthorityRules.mk true
          (hostSchemes.contains (String.ofList (before.take r.length).reverse)) true) = rules
        rw [List.cons_append, List.isEmpty_cons, if_neg Bool.false_ne_true, List.isEmpty_cons,
          if_neg Bool.false_ne_true, ← List.cons_append]
        cases hauthority : authorityEnd rules (c :: cs) with
        | none => rfl
        | some e =>
          obtain ⟨host, dot⟩ := e
          dsimp only [Option.bind_some]
          rw [tail_append htail rules r.quote hauthority]
  · rw [urlAround_of_not_slashes hslashes, urlAround_of_not_slashes]
    rwa [slashes_prefix_append htail]

lemma around_behind (before : List Char) (c : Char) (after : List Char) :
    around before c (after ++ tail) = around before c after := by
  unfold around
  split
  · rw [urlAround_append htail]
  · congr 1
    unfold domainAround
    cases domainReach before with
    | none => rfl
    | some r =>
      dsimp only [Option.bind_eq_bind, Option.bind_some]
      rw [← List.cons_append, ← List.append_assoc, authorityEnd_append htail]
      cases hauthority : authorityEnd ⟨false, true, true⟩
          ((before.take r.length).reverse ++ '.' :: after) with
      | none => rfl
      | some e =>
        obtain ⟨host, dot⟩ := e
        dsimp only [Option.bind_some]
        rw [tail_append htail _ r.quote hauthority]
  · congr 1
    unfold emailAround
    rw [authorityEnd_append htail]
  · rfl

/-- No literal is in an ending, and none reaches into it. -/
lemma findFrom_append (before : List Char) (skip i : Nat) (cs : List Char) :
    findFrom before skip i (cs ++ tail) = findFrom before skip i cs := by
  induction cs generalizing before skip i with
  | nil =>
    refine findFrom_eq_nil (fun c hc => ?_) before skip i
    rcases htail.later c hc with hblank | rfl
    · rcases isInlineBlank_cases hblank with rfl | rfl | rfl | rfl <;> rfl
    · rfl
  | cons c cs ih =>
    rw [List.cons_append]
    cases skip with
    | succ skip => exact ih [] skip (i + 1)
    | zero => simp only [findFrom, around_behind htail, ih]

theorem find_append (cs : List Char) : find (cs ++ tail) = find cs :=
  findFrom_append htail [] 0 0 cs

end Behind

end Literal

namespace Tree

open Literal (Found InOrder inOrder_find)
open Markdown (IsEnding)

section Cuts

variable {value tail : List Char} {last : Nat} {fs : List Found} {n : Node} {ns ms : List Node}

lemma appendText_cons_of_not_text (hn : n.isText = false) (text : String) (ns : List Node) :
    appendText text (n :: ns) = n :: appendText text ns := by
  cases ns with
  | nil => cases n <;> first | rfl | cases hn
  | cons m ns => exact appendText_cons_cons text n m ns

lemma appendText_append_of_ne_nil (h : ms ≠ []) (text : String) (ns : List Node) :
    appendText text (ns ++ ms) = ns ++ appendText text ms := by
  induction ns with
  | nil => rfl
  | cons n ns ih =>
    obtain ⟨m, ms', hms⟩ := List.exists_cons_of_ne_nil (List.append_ne_nil_of_right_ne_nil ns h)
    rw [List.cons_append, hms, appendText_cons_cons, ← hms, ih, List.cons_append]

lemma appendText_appendText (x y : String) (ns : List Node) :
    appendText y (appendText x ns) = appendText (x ++ y) ns := by
  rcases List.eq_nil_or_concat' ns with rfl | ⟨ms, m, rfl⟩
  · rfl
  · have hne : appendText x [m] ≠ [] := by cases m <;> exact List.cons_ne_nil _ _
    rw [appendText_append, appendText_append, appendText_append_of_ne_nil hne]
    cases m <;> simp [appendText, String.append_assoc]

lemma appendText_textPiece (htail : tail ≠ []) (cs : List Char) :
    appendText (String.ofList tail) (textPiece cs) = textPiece (cs ++ tail) := by
  rw [textPiece_of_ne_nil (List.append_ne_nil_of_right_ne_nil cs htail)]
  cases cs with
  | nil => rfl
  | cons c cs =>
    rw [textPiece_of_ne_nil (List.cons_ne_nil c cs), appendText, ← String.ofList_append]

lemma slice_append_left {i j : Nat} (h : j ≤ value.length) :
    slice (value ++ tail) i j = slice value i j := by
  rcases Nat.le_total i j with hij | hij
  · rw [slice, slice, List.drop_append_of_le_length (Nat.le_trans hij h),
      List.take_append_of_le_length (by rw [List.length_drop]; omega)]
  · rw [slice, slice, Nat.sub_eq_zero_of_le hij]
    rfl

/-- Text behind the last literal is a longer last piece. -/
lemma cutText_append (htail : tail ≠ []) (h : InOrder last fs)
    (hfs : ∀ f ∈ fs, f.stop ≤ value.length) (hlast : last ≤ value.length) :
    cutText (value ++ tail) last fs =
      appendText (String.ofList tail) (cutText value last fs) := by
  induction fs generalizing last with
  | nil =>
    simp only [cutText]
    split
    · rw [appendText, String.ofList_append]
    · rw [List.drop_append_of_le_length hlast, appendText_textPiece htail]
  | cons f fs ih =>
    obtain ⟨hstart, hlt, hlater⟩ := h
    obtain ⟨hstop, hfs⟩ := List.forall_mem_cons.mp hfs
    simp only [cutText, slice_append_left hstop,
      slice_append_left (Nat.le_trans (Nat.le_of_lt hlt) hstop)]
    split
    · exact ih (hlater.mono (by omega)) hfs hlast
    · rw [appendText_append_of_ne_nil (List.cons_ne_nil _ _), appendText_cons_of_not_text rfl,
        ih hlater hfs hstop]

lemma linkLiterals_ne_nil (h : ns ≠ []) : linkLiterals Literal.find ns ≠ [] := by
  obtain ⟨n, ns, rfl⟩ := List.exists_cons_of_ne_nil h
  cases htext : n.isText with
  | false =>
    rw [linkLiterals_cons htext]
    exact List.cons_ne_nil _ _
  | true =>
    obtain ⟨value, rfl⟩ := Node.exists_eq_text htext
    exact List.append_ne_nil_of_left_ne_nil (cutText_ne_nil _ _) _

/-- An ending behind nodes stays behind them when the literals are linked. -/
theorem linkLiterals_appendText (htail : IsEnding tail) (hne : tail ≠ []) (ns : List Node) :
    linkLiterals Literal.find (appendText (String.ofList tail) ns) =
      appendText (String.ofList tail) (linkLiterals Literal.find ns) := by
  have hcut (value : List Char) : cutText (value ++ tail) 0 (Literal.find (value ++ tail)) =
      appendText (String.ofList tail) (cutText value 0 (Literal.find value)) := by
    rw [Literal.find_append htail]
    exact cutText_append hne (inOrder_find value) (fun _ hf => Literal.stop_le_of_mem_find hf)
      (Nat.zero_le _)
  have halone : linkLiterals Literal.find [.text (String.ofList tail)] =
      [.text (String.ofList tail)] := by
    have hnil := hcut []
    rw [List.nil_append] at hnil
    rw [linkLiterals, String.toList_ofList, hnil]
    rfl
  induction ns with
  | nil => exact halone
  | cons n ns ih =>
    cases htext : n.isText with
    | false =>
      rw [appendText_cons_of_not_text htext, linkLiterals_cons htext, ih, linkLiterals_cons htext,
        appendText_cons_of_not_text htext]
    | true =>
      obtain ⟨value, rfl⟩ := Node.exists_eq_text htext
      cases ns with
      | nil =>
        have hone (text : String) : linkLiterals Literal.find [.text text] =
            cutText text.toList 0 (Literal.find text.toList) := List.append_nil _
        rw [appendText, hone, hone, String.toList_append, String.toList_ofList, hcut]
      | cons m ns =>
        have hne := linkLiterals_ne_nil (List.cons_ne_nil m ns)
        rw [appendText_cons_cons, linkLiterals, ih, linkLiterals, appendText_append_of_ne_nil hne]

end Cuts

end Tree

end Folio
