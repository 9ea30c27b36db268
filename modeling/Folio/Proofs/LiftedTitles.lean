import Folio.Proofs.LinkedPlainTexts
import Folio.Proofs.MarkedLines

/-!
# Titles behind a marker

The marker of a deep heading is plain text in front of the title. No literal reaches back over the
blank behind it, so that the title is cut at the same literals with the marker and without it.
-/

namespace Folio

namespace Literal

section Blanks

variable {b c : Char} {before more after : List Char}

/-- A character that ends what a literal reaches back over, in every kind of literal. -/
structure Separates (b : Char) : Prop where
  letter : isLetter b = false
  digit : b.isDigit = false
  mark : b ∉ ['+', '-', '.', '@', '/', '\'', '"']
  notLocal : isLocal b = false

lemma separates_of_isInlineBlank (h : Markdown.isInlineBlank b = true) : Separates b := by
  simp only [Markdown.isInlineBlank, Bool.or_eq_true, beq_iff_eq] at h
  rcases h with ((rfl | rfl) | rfl) | rfl <;> exact ⟨by decide, by decide, by decide, by decide⟩

lemma schemeReach_append (hb : Separates b) (first digit : Option Nat) (n : Nat) :
    schemeReach first digit n (before ++ b :: more) = schemeReach first digit n before := by
  induction before generalizing first digit n with
  | nil =>
    have halpha : b.isAlpha = false := by
      have hletter := hb.letter
      rw [isLetter, Bool.or_eq_false_iff] at hletter
      exact hletter.1
    have hmark := hb.mark
    simp only [List.mem_cons, List.not_mem_nil, not_or] at hmark
    simp [schemeReach, halpha, hb.digit, hmark, isQuote]
  | cons d before ih => simp only [List.cons_append, schemeReach, ih]

lemma localReach_append (hb : Separates b) (first : Nat) (boundary : Bool) (n : Nat) :
    localReach first boundary n (before ++ b :: more) = localReach first boundary n before := by
  induction before generalizing first boundary n with
  | nil =>
    have hmark := hb.mark
    simp only [List.mem_cons, List.not_mem_nil, not_or] at hmark
    simp [localReach, hb.notLocal, hmark]
  | cons d before ih => simp only [List.cons_append, localReach, ih]

lemma domainReach_append (hb : Separates b) :
    domainReach (before ++ b :: more) = domainReach before := by
  have hmark := hb.mark
  simp only [List.mem_cons, List.not_mem_nil, not_or] at hmark
  have hlabel : (before ++ b :: more).takeWhile (fun c => isLetter c || c.isDigit || c == '-') =
      before.takeWhile fun c => isLetter c || c.isDigit || c == '-' := by
    induction before with
    | nil => simp [hb.letter, hb.digit, hmark]
    | cons d before ih => rw [List.cons_append, List.takeWhile_cons, List.takeWhile_cons, ih]
  unfold domainReach
  dsimp only
  rw [hlabel]
  generalize hn : (before.takeWhile fun c => isLetter c || c.isDigit || c == '-').length = n
  have hle : n ≤ before.length := hn ▸ (List.takeWhile_prefix _).length_le
  rw [List.drop_append_of_le_length hle]
  cases before.drop n with
  | cons d rest => rfl
  | nil => simp [hmark, isQuote, Option.filter]

lemma schemeReach_le {r : Reach} (h : schemeReach none none 0 before = some r) :
    r.length ≤ before.length := by
  have hreach := (solidReach_schemeReach h (by simp)).1
  omega

lemma around_append (hb : Separates b) :
    around (before ++ b :: more) c after = around before c after := by
  have htake {k : Nat} (h : k ≤ before.length) : (before ++ b :: more).take k = before.take k :=
    List.take_append_of_le_length h
  unfold around
  split
  · congr 1
    unfold urlAround
    split
    · rw [schemeReach_append hb]
      cases hreach : schemeReach none none 0 before with
      | none => rfl
      | some r => rw [Option.bind_eq_bind, Option.bind_some, htake (schemeReach_le hreach)]; rfl
    · rfl
  · congr 1
    unfold domainAround
    rw [domainReach_append hb]
    cases hreach : domainReach before with
    | none => rfl
    | some r =>
      rw [Option.bind_eq_bind, Option.bind_some, htake (allSolid_domainReach hreach).1]
      rfl
  · congr 1
    unfold emailAround
    rw [localReach_append hb]
  · rfl

end Blanks

section Shifts

variable {f : Found} {k i skip : Nat} {passed before rest : List Char} {fs : List Found}

/-- The same literal further on in a text. -/
def Found.shift (k : Nat) (f : Found) : Found :=
  ⟨k + f.start, k + f.stop, f.kind⟩

/-- Behind a separator the same literals are found as at the start of a text. -/
lemma findFrom_shift (hpassed : ∀ b ∈ passed.head?, Separates b) (hbefore : before.length ≤ i) :
    findFrom (before ++ passed) skip (k + i) rest =
      (findFrom before skip i rest).map (Found.shift k) := by
  induction rest generalizing passed before skip i with
  | nil => rfl
  | cons c rest ih =>
    have hlater (skip : Nat) : findFrom [] skip (k + i + 1) rest =
        (findFrom [] skip (i + 1) rest).map (Found.shift k) :=
      @ih (i + 1) skip [] [] (by simp) (Nat.zero_le _)
    cases skip with
    | succ skip => exact hlater skip
    | zero =>
      have haround : around (before ++ passed) c rest = around before c rest := by
        cases passed with
        | nil => rw [List.append_nil]
        | cons b more => exact around_append (hpassed b rfl)
      rw [findFrom, findFrom, haround]
      cases hfound : around before c rest with
      | none =>
        exact @ih (i + 1) 0 passed (c :: before) hpassed (by rw [List.length_cons]; omega)
      | some r =>
        obtain ⟨back, ahead, kind⟩ := r
        have hback := (allSolid_around hfound).1
        dsimp only
        have hshift : Found.shift k ⟨i - back, i + 1 + ahead, kind⟩ =
            ⟨k + i - back, k + i + 1 + ahead, kind⟩ := by
          simp only [Found.shift, Found.mk.injEq, and_true]
          omega
        rw [List.map_cons, hlater, hshift]

/-- No literal is found before there is a colon, a dot or an at sign. -/
lemma findFrom_of_no_trigger {cs : List Char} (hcs : ∀ c ∈ cs, isTrigger c = false) :
    findFrom before 0 i (cs ++ rest) = findFrom (cs.reverse ++ before) 0 (i + cs.length) rest := by
  induction cs generalizing before i with
  | nil => rfl
  | cons c cs ih =>
    obtain ⟨hc, hcs⟩ := List.forall_mem_cons.mp hcs
    have hnone : around before c (cs ++ rest) = none := by
      cases haround : around before c (cs ++ rest) with
      | none => rfl
      | some r => rw [isTrigger_of_around haround] at hc; cases hc
    rw [List.cons_append, findFrom, hnone]
    dsimp only
    rw [ih hcs, List.reverse_cons, List.append_assoc, List.length_cons, Nat.add_assoc,
      Nat.add_comm 1]
    rfl

/-- Text that a separator ends hides no literal behind it and has none itself. -/
theorem find_behind {cs : List Char} {b : Char} (hcs : ∀ c ∈ cs, isTrigger c = false)
    (hlast : cs.getLast? = some b) (hb : Separates b) (value : List Char) :
    find (cs ++ value) = (find value).map (Found.shift cs.length) := by
  have hpassed : ∀ d ∈ cs.reverse.head?, Separates d := by
    rw [List.head?_reverse, hlast]
    rintro d ⟨⟩
    exact hb
  have hshift := @findFrom_shift cs.length 0 0 cs.reverse [] value hpassed (Nat.le_refl 0)
  rw [find, findFrom_of_no_trigger hcs, List.append_nil, Nat.zero_add]
  exact hshift

end Shifts

end Literal

namespace Tree

open Literal (Found InOrder inOrder_find)
open Markdown (marked)

section Cuts

variable {front value : List Char} {last : Nat} {fs : List Found} {ns ms : List Node}

lemma slice_shift (front value : List Char) (i j : Nat) :
    slice (front ++ value) (front.length + i) (front.length + j) = slice value i j := by
  rw [slice, slice, List.drop_length_add_append, Nat.add_sub_add_left]

lemma textPiece_of_ne_nil {cs : List Char} (h : cs ≠ []) :
    textPiece cs = [.text (String.ofList cs)] :=
  if_neg (mt List.isEmpty_iff.mp h)

/-- Behind its first link a text is cut alike, whatever is in front of it. -/
lemma cutText_shift_of_pos (h : InOrder last fs) (hlast : 0 < last) :
    cutText (front ++ value) (front.length + last) (fs.map (Found.shift front.length)) =
      cutText value last fs := by
  induction fs generalizing last with
  | nil =>
    simp only [List.map_nil, cutText]
    rw [if_neg (by omega), if_neg (by omega), List.drop_length_add_append]
  | cons f fs ih =>
    obtain ⟨hstart, hstop, hfs⟩ := h
    simp only [List.map_cons, cutText, Found.shift, slice_shift]
    split
    · exact ih (hfs.mono (by omega)) hlast
    · rw [ih hfs (by omega)]

lemma prependText_textPiece_append {n : Node} (hn : n.isText = false) (value cs : List Char) :
    prependText (String.ofList value) (textPiece cs ++ n :: ns) =
      .text (String.ofList (value ++ cs)) :: n :: ns := by
  cases cs with
  | nil =>
    rw [List.append_nil]
    cases n <;> first | rfl | cases hn
  | cons c cs =>
    rw [textPiece_of_ne_nil (List.cons_ne_nil c cs), List.singleton_append, prependText,
      String.ofList_append]

/-- A text in front is a longer first piece. -/
lemma cutText_shift (hfront : front ≠ []) (h : InOrder 0 fs) :
    cutText (front ++ value) 0 (fs.map (Found.shift front.length)) =
      prependText (String.ofList front) (cutText value 0 fs) := by
  induction fs with
  | nil => exact congrArg (fun text => [Node.text text]) (String.ofList_append ..)
  | cons f fs ih =>
    obtain ⟨hstart, hstop, hfs⟩ := h
    simp only [List.map_cons, cutText, Found.shift, slice_shift]
    split
    · exact ih (hfs.mono (Nat.zero_le _))
    · have hpiece : slice (front ++ value) 0 (front.length + f.start) =
          front ++ slice value 0 f.start := by
        rw [slice, slice, List.drop_zero, List.drop_zero, Nat.sub_zero, Nat.sub_zero,
          List.take_length_add_append]
      rw [prependText_textPiece_append rfl, hpiece,
        textPiece_of_ne_nil (List.append_ne_nil_of_left_ne_nil hfront _), List.singleton_append,
        cutText_shift_of_pos hfs (by omega)]

lemma prependText_append_of_ne_nil (h : ns ≠ []) (value : String) (ms : List Node) :
    prependText value (ns ++ ms) = prependText value ns ++ ms := by
  cases ns with
  | nil => exact absurd rfl h
  | cons n ns => cases n <;> rfl

/-- A text in front, in which no literal is and into which none reaches, stays in front when the
literals are linked. -/
theorem linkLiterals_prependText (hfront : front ≠ [])
    (hfind : ∀ value, Literal.find (front ++ value) =
      (Literal.find value).map (Found.shift front.length)) (ns : List Node) :
    linkLiterals Literal.find (prependText (String.ofList front) ns) =
      prependText (String.ofList front) (linkLiterals Literal.find ns) := by
  have hcut (value : List Char) :
      cutText (front ++ value) 0 (Literal.find (front ++ value)) =
        prependText (String.ofList front) (cutText value 0 (Literal.find value)) := by
    rw [hfind, cutText_shift hfront (inOrder_find value)]
  have halone : cutText front 0 (Literal.find front) = [.text (String.ofList front)] := by
    have hnil := hcut []
    rw [List.append_nil] at hnil
    exact hnil.trans (congrArg (fun text => [Node.text text]) (String.append_empty))
  cases ns with
  | nil =>
    have hlink : linkLiterals Literal.find [.text (String.ofList front)] =
        [.text (String.ofList front)] := by
      rw [linkLiterals, String.toList_ofList, halone]
      rfl
    exact hlink
  | cons n ns =>
    cases htext : n.isText with
    | true =>
      obtain ⟨value, rfl⟩ := Node.exists_eq_text htext
      rw [prependText, linkLiterals, linkLiterals, String.toList_append, String.toList_ofList, hcut,
        prependText_append_of_ne_nil (cutText_ne_nil _ _)]
    | false =>
      rw [prependText_cons htext, linkLiterals, String.toList_ofList, halone,
        linkLiterals_cons htext, prependText_cons htext]
      rfl

end Cuts

section Titles

variable {n : Nat} {blanks : List Char} {ns : List Node}

/-- What is left of the nodes of a heading when its title is cut out of their first text: the blanks
at the start are gone, and a closing sequence at the end if there is nothing but the text. -/
def retitled : List Node → List Node
  | .text value :: rest =>
    let title := Text.trimStart value.toList
    textPiece (if rest.isEmpty then dropClosing title else title) ++ rest
  | ns => ns

/-- A deep heading with these nodes behind its marker, or a paragraph if the line is broken. -/
def retitledNode (n : Nat) (blanks : List Char) (ns : List Node) : Node :=
  if isSingleLine ns then .heading (UInt8.ofNat (min n 255)) (retitled ns)
  else .paragraph (prependText (String.ofList (marked n blanks)) ns)

variable (hblanks : ∀ c ∈ blanks, Markdown.isInlineBlank c = true)

lemma marked_ne_nil (n : Nat) (blanks : List Char) : marked n blanks ≠ [] :=
  List.append_ne_nil_of_right_ne_nil _ (List.cons_ne_nil _ _)

include hblanks

lemma isInlineBlank_of_mem_cons : ∀ c ∈ ' ' :: blanks, Markdown.isInlineBlank c = true :=
  List.forall_mem_cons.mpr ⟨by decide, hblanks⟩

lemma find_marked (value : List Char) : Literal.find (marked n blanks ++ value) =
    (Literal.find value).map (Found.shift (marked n blanks).length) := by
  have hall := isInlineBlank_of_mem_cons hblanks
  have hlast : (marked n blanks).getLast? = (' ' :: blanks).getLast? := by
    rw [marked, List.getLast?_append_of_ne_nil _ (List.cons_ne_nil _ _)]
  rw [List.getLast?_eq_some_getLast (List.cons_ne_nil _ _)] at hlast
  refine Literal.find_behind (fun c hc => ?_) hlast
    (Literal.separates_of_isInlineBlank (hall _ (List.getLast_mem _))) value
  rcases List.mem_append.mp hc with hmark | hblank
  · rw [List.eq_of_mem_replicate hmark]
    rfl
  · have hc := hall c hblank
    simp only [Markdown.isInlineBlank, Bool.or_eq_true, beq_iff_eq] at hc
    rcases hc with ((rfl | rfl) | rfl) | rfl <;> rfl

lemma not_mem_marked : '\n' ∉ marked n blanks := by
  intro hmem
  rcases List.mem_append.mp hmem with hmark | hblank
  · exact absurd (List.eq_of_mem_replicate hmark) (by decide)
  · exact absurd (isInlineBlank_of_mem_cons hblanks _ hblank) (by decide)

lemma isSingleLine_prependText (ns : List Node) :
    isSingleLine (prependText (String.ofList (marked n blanks)) ns) = isSingleLine ns := by
  have hmarker : (marked n blanks).contains '\n' = false := by
    rw [← Bool.not_eq_true, List.contains_iff_mem]
    exact not_mem_marked hblanks
  cases ns with
  | nil => simp only [prependText, isSingleLine, List.all_cons, String.toList_ofList, hmarker]; rfl
  | cons m ns =>
    cases m with
    | text value =>
      have hcontains : (marked n blanks ++ value.toList).contains '\n' =
          value.toList.contains '\n' := by
        rw [Bool.eq_iff_iff, List.contains_iff_mem, List.contains_iff_mem, List.mem_append,
          or_iff_right (not_mem_marked hblanks)]
      simp only [prependText, isSingleLine, List.all_cons, String.toList_append,
        String.toList_ofList, hcontains]
    | _ =>
      simp only [prependText, isSingleLine, List.all_cons, String.toList_ofList, hmarker]
      rfl

lemma deepMarker?_marked (hn : deepLevel ≤ n) (value : List Char) :
    deepMarker? (marked n blanks ++ value) =
      some (UInt8.ofNat (min n 255), Text.trimStart value) := by
  have hall : (' ' :: blanks).all Text.isBlank = true :=
    List.all_eq_true.mpr fun c hc =>
      Markdown.isBlank_of_isInlineBlank (isInlineBlank_of_mem_cons hblanks c hc)
  rw [marked, List.append_assoc, deepMarker?_of_startsBlank hn rfl, trimStart_append_of_all hall]

/-- Nodes with a marker in front of them are read as those of a deep heading. -/
theorem liftHeading_marked (hn : deepLevel ≤ n) (ns : List Node) :
    liftHeading (prependText (String.ofList (marked n blanks)) ns) = retitledNode n blanks ns := by
  have hline := @isSingleLine_prependText n blanks hblanks ns
  unfold retitledNode
  cases hns : isSingleLine ns with
  | false => rw [liftHeading_of_not_singleLine (hline.trans hns), if_neg Bool.false_ne_true]
  | true =>
    rw [hns] at hline
    rw [if_pos rfl]
    have hlift (value : List Char) (rest : List Node)
        (hrest : isSingleLine (.text (String.ofList (marked n blanks ++ value)) :: rest) = true) :
        liftHeading (.text (String.ofList (marked n blanks ++ value)) :: rest) =
          .heading (UInt8.ofNat (min n 255))
            (textPiece (if rest.isEmpty then dropClosing (Text.trimStart value)
              else Text.trimStart value) ++ rest) := by
      simp only [liftHeading, hrest, if_true, String.toList_ofList,
        deepMarker?_marked hblanks hn]
      rfl
    cases ns with
    | nil =>
      have hempty := hlift [] []
      rw [List.append_nil] at hempty
      exact hempty hline
    | cons m ns =>
      cases htext : m.isText with
      | true =>
        obtain ⟨value, rfl⟩ := Node.exists_eq_text htext
        have hvalue := hlift value.toList ns
        rw [String.ofList_append, String.ofList_toList] at hvalue
        exact hvalue hline
      | false =>
        have hempty := hlift [] (m :: ns)
        rw [List.append_nil] at hempty
        rw [prependText_cons htext] at hline ⊢
        rw [hempty hline]
        cases m <;> first | rfl | cases htext

end Titles

end Tree

end Folio
