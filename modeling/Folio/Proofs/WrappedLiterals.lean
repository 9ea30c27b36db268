import Folio.Proofs.SeparateTexts

/-!
# Texts with their literals wrapped

Linking literals takes each text apart and puts it together again from texts and links, and keeps
all other nodes. The links stand exactly where there are literals with an address. This holds for
any way to find literals, as long as they lie one behind another in their text.
-/

namespace Folio.Tree

open Literal (Found InOrder LiteralKind)
open Node

/-- Stretches of a text that are not empty, each behind the one before. -/
structure SpansOf (value : List Char) (spans : List Found) : Prop where
  order : InOrder 0 spans
  inside : ∀ f ∈ spans, f.stop ≤ value.length

/-- The address that a literal is linked to. There is none for URLs of other forms. -/
inductive Address (literal : List Char) : LiteralKind → List Char → Prop where
  | mail : Address literal .email ("mailto:".toList ++ literal)
  | url (h : "http://".toList <+: literal ∨ "https://".toList <+: literal) :
    Address literal .url literal
  | domain (h : "www.".toList <+: literal) : Address literal .url ("http://".toList ++ literal)

/-- The node is the link for a stretch of a text. -/
def LinksTo (value : List Char) (f : Found) (n : Node) : Prop :=
  ∃ url, Address (slice value f.start f.stop) f.kind url ∧
    n = .link (String.ofList url) none [.text (String.ofList (slice value f.start f.stop))]

/-- The node is one of these siblings, and the plain text in front of it, which begins at position
`i` of a text, ends at position `k`. -/
def StandsAt (i k : Nat) (n : Node) (ns : List Node) : Prop :=
  ∃ front rest, ns = front ++ n :: rest ∧ i + (texts front).length = k

/-- Texts and links that a text with some stretches is replaced by. -/
structure Wrapping (value : String) (spans : List Found) (pieces : List Node) : Prop where
  kinds : ∀ n ∈ pieces, n.isText = true ∨ n.isLink = true
  reads : texts pieces = value.toList
  links : ∀ k n, n.isLink = true →
    (StandsAt 0 k n pieces ↔ ∃ f ∈ spans, f.start = k ∧ LinksTo value.toList f n)
  apart : TextsApart pieces
  filled : value ≠ "" → TextsFilled pieces

/-- What stands in place of a node when literals are linked. -/
inductive Replaces (find : List Char → List Found) : Node → List Node → Prop where
  | text {value : String} {pieces : List Node}
    (h : Wrapping value (find value.toList) pieces) : Replaces find (.text value) pieces
  | other {n : Node} (h : n.isText = false) : Replaces find n [n]

section Address

variable {kind : LiteralKind} {literal url : List Char}

lemma address_iff : literalTarget? kind literal = some url ↔ Address literal kind url := by
  constructor
  · intro h
    cases kind with
    | email =>
      cases h
      exact .mail
    | url =>
      simp only [literalTarget?, Bool.or_eq_true, List.isPrefixOf_iff_prefix] at h
      split at h
      · next hscheme =>
        cases h
        exact .url hscheme
      · split at h
        · next hwww =>
          cases h
          exact .domain hwww
        · cases h
  · intro h
    cases h with
    | mail => rfl
    | url h =>
      simp only [literalTarget?, Bool.or_eq_true, List.isPrefixOf_iff_prefix]
      exact if_pos h
    | domain h =>
      obtain ⟨rest, rfl⟩ := h
      rfl

lemma linksTo_iff {value : List Char} {f : Found} {n : Node} :
    LinksTo value f n ↔ ∃ url, literalTarget? f.kind (slice value f.start f.stop) = some url ∧
      n = .link (String.ofList url) none [.text (String.ofList (slice value f.start f.stop))] := by
  simp only [LinksTo, address_iff]

end Address

section StandsAt

variable {i k : Nat} {m n : Node} {ns ms : List Node}

lemma not_standsAt_nil (i k : Nat) (n : Node) : ¬StandsAt i k n [] := by
  rintro ⟨front, rest, heq, -⟩
  simp at heq

lemma standsAt_cons :
    StandsAt i k n (m :: ns) ↔ n = m ∧ i = k ∨ StandsAt (i + m.plainText.toList.length) k n ns := by
  constructor
  · rintro ⟨front, rest, heq, hk⟩
    cases front with
    | nil =>
      obtain ⟨rfl, rfl⟩ := List.cons.inj heq
      exact .inl ⟨rfl, hk⟩
    | cons x front =>
      obtain ⟨rfl, rfl⟩ := List.cons.inj heq
      rw [texts_cons, List.length_append, ← Nat.add_assoc] at hk
      exact .inr ⟨front, rest, rfl, hk⟩
  · rintro (⟨rfl, rfl⟩ | ⟨front, rest, rfl, hk⟩)
    · exact ⟨[], ns, rfl, rfl⟩
    · refine ⟨m :: front, rest, rfl, ?_⟩
      rw [texts_cons, List.length_append, ← Nat.add_assoc, hk]

lemma standsAt_append :
    StandsAt i k n (ns ++ ms) ↔ StandsAt i k n ns ∨ StandsAt (i + (texts ns).length) k n ms := by
  induction ns generalizing i with
  | nil => simp [not_standsAt_nil]
  | cons m ns ih =>
    rw [List.cons_append, standsAt_cons, standsAt_cons, ih, texts_cons, List.length_append,
      Nat.add_assoc, or_assoc]

lemma not_standsAt_of_isText (hn : n.isLink = true) (h : ∀ m ∈ ns, m.isText = true) :
    ¬StandsAt i k n ns := by
  rintro ⟨front, rest, rfl, -⟩
  have htext := h n (List.mem_append_right _ List.mem_cons_self)
  rw [isText_of_isLink hn] at htext
  cases htext

end StandsAt

section Cut

variable {value : List Char} {last k : Nat} {fs : List Found} {n : Node}

lemma length_slice {start stop : Nat} (h : stop ≤ value.length) :
    (slice value start stop).length = stop - start := by
  rw [slice, List.length_take, List.length_drop]
  omega

/-- In the pieces of a text from `last` on there is a link exactly where a literal is that has an
address. -/
lemma standsAt_cutText (horder : InOrder last fs) (hinside : ∀ f ∈ fs, f.stop ≤ value.length)
    (hn : n.isLink = true) :
    StandsAt last k n (cutText value last fs) ↔ ∃ f ∈ fs, f.start = k ∧ LinksTo value f n := by
  induction fs generalizing last with
  | nil =>
    refine iff_of_false (not_standsAt_of_isText hn fun m hm => ?_) (by simp)
    rcases mem_cutText_cases hm with htext | ⟨f, hf, -⟩
    · exact htext
    · cases hf
  | cons f fs ih =>
    obtain ⟨hlast, hlt, hlater⟩ := horder
    have hstop := hinside f List.mem_cons_self
    have hfs : ∀ g ∈ fs, g.stop ≤ value.length := fun g hg => hinside g (List.mem_cons_of_mem f hg)
    rw [List.exists_mem_cons_iff, linksTo_iff]
    simp only [cutText]
    cases htarget : literalTarget? f.kind (slice value f.start f.stop) with
    | none =>
      rw [ih (hlater.mono (by omega)) hfs]
      simp
    | some url =>
      -- The text in front of the link ends where the literal starts, and that of the link where the
      -- literal stops.
      have hfront : last + (texts (textPiece (slice value last f.start))).length = f.start := by
        rw [texts_textPiece, length_slice (by omega), Nat.add_sub_cancel' hlast]
      have hlink : f.start + (slice value f.start f.stop).length = f.stop := by
        rw [length_slice hstop, Nat.add_sub_cancel' hlt.le]
      rw [standsAt_append, hfront, standsAt_cons]
      simp only [plainText, plainTexts, String.append_empty, String.toList_ofList, hlink]
      rw [ih hlater hfs, or_iff_right
        (not_standsAt_of_isText hn fun m hm => isText_of_mem_textPiece hm)]
      simp [and_comm]

/-- A text is replaced by texts and links that say what it says. -/
lemma wrapping_cutText {value : String} {spans : List Found} (h : SpansOf value.toList spans) :
    Wrapping value spans (cutText value.toList 0 spans) where
  kinds n hn := (mem_cutText_cases hn).imp_right fun ⟨_, _, _, hlink⟩ => hlink ▸ rfl
  reads := texts_cutText h.order
  links _ _ hn := standsAt_cutText h.order h.inside hn
  apart := textsApart_cutText
  filled hne := textsFilled_cutText (by simpa using hne)

/-- The literals that are found in a text are such stretches. -/
lemma spansOf_find (value : List Char) : SpansOf value (Literal.find value) where
  order := Literal.inOrder_find value
  inside _ := Literal.stop_le_of_mem_find

end Cut

/-- Linking literals replaces each text by texts and links that say the same. The links are those
for the stretches with an address, each in its place, and no other node changes. -/
theorem exists_replaces_linkLiterals (find : List Char → List Found) (ns : List Node)
    (h : ∀ value, .text value ∈ ns → SpansOf value.toList (find value.toList)) :
    ∃ pieces, List.Forall₂ (Replaces find) ns pieces ∧ linkLiterals find ns = pieces.flatten := by
  induction ns with
  | nil => exact ⟨[], .nil, rfl⟩
  | cons n ns ih =>
    obtain ⟨pieces, hpieces, heq⟩ := ih fun value hmem => h value (List.mem_cons_of_mem n hmem)
    cases htext : n.isText with
    | true =>
      obtain ⟨value, rfl⟩ := exists_eq_text htext
      have hcut := wrapping_cutText (h value List.mem_cons_self)
      exact ⟨_ :: pieces, .cons (.text hcut) hpieces, congrArg (_ ++ ·) heq⟩
    | false =>
      refine ⟨[n] :: pieces, .cons (.other htext) hpieces, ?_⟩
      rw [linkLiterals_cons htext, heq]
      rfl

/-- A URL at the start of a text, one that names no scheme, and an address at the end of the text;
the break and the empty text stay. -/
theorem exists_replaces_linkLiterals_mixed :
    let ns : List Node := [.text "http://a.bc/d, x.org and d@e.fg", .break, .text ""]
    (∀ value, .text value ∈ ns → SpansOf value.toList (Literal.find value.toList)) ∧
      (∃ pieces, List.Forall₂ (Replaces Literal.find) ns pieces ∧
        linkLiterals Literal.find ns = pieces.flatten) ∧
      linkLiterals Literal.find ns =
        [.link "http://a.bc/d" none [.text "http://a.bc/d"], .text ", x.org and ",
          .link "mailto:d@e.fg" none [.text "d@e.fg"], .break, .text ""] := by
  intro ns
  have hspans : ∀ value, .text value ∈ ns → SpansOf value.toList (Literal.find value.toList) :=
    fun value _ => spansOf_find value.toList
  exact ⟨hspans, exists_replaces_linkLiterals Literal.find ns hspans, rfl⟩

end Folio.Tree
