import Folio.Markdown.Inline
import Folio.Proofs.TreeRecursion

/-!
# The spans of running text

The events of running text are those of a forest, which is defined by recursion on its pieces. No
paragraph is in it, so that its nodes do not depend on where it stands in the source.
-/

namespace Folio.Tree

open Markdown (Inline)

def leaves (e : Event) : List Span :=
  if h : e.isLeaf = true then [.leaf e h] else []

mutual

/-- The spans of a piece of running text. -/
def spansOfPiece : Inline → List Span
  | .text value => leaves (.text (String.ofList value))
  | .code value => leaves (.code (String.ofList value))
  | .math true value => leaves (.displayMath (String.ofList value))
  | .math false value => leaves (.inlineMath (String.ofList value))
  | .html value => leaves (.inlineHtml (String.ofList value))
  | .footnote label => leaves (.footnoteReference (String.ofList label))
  | .softBreak => leaves .softBreak
  | .hardBreak _ => leaves .hardBreak
  | .delimiters mark count _ _ => leaves (.text (String.ofList (List.replicate count mark)))
  | .span kind cs => [.container (Inline.tag kind) 0 (spansOf cs)]
  | .link form url title cs =>
    [.container (.link form (String.ofList url) (String.ofList title)) 0 (spansOf cs)]
  | .image form url title cs =>
    [.container (.image form (String.ofList url) (String.ofList title)) 0 (spansOf cs)]

def spansOf : List Inline → List Span
  | [] => []
  | p :: ps => spansOfPiece p ++ spansOf ps

end

section Spans

variable {settings settings' : Settings}

mutual

lemma eventsOf_spansOfPiece (p : Inline) : eventsOf (spansOfPiece p) = p.events := by
  cases p with
  | span kind cs | link form url title cs | image form url title cs =>
    rw [spansOfPiece, eventsOf, Span.events, eventsOf_spansOf cs, Inline.events, eventsOf,
      List.append_nil]
  | math display value => cases display <;> rfl
  | _ => rfl

lemma eventsOf_spansOf (ps : List Inline) : eventsOf (spansOf ps) = Inline.eventsOf ps := by
  cases ps with
  | nil => rfl
  | cons p ps =>
    rw [spansOf, eventsOf_append, eventsOf_spansOfPiece p, eventsOf_spansOf ps, Inline.eventsOf]

end

lemma spansOf_append (ps qs : List Inline) : spansOf (ps ++ qs) = spansOf ps ++ spansOf qs := by
  induction ps with
  | nil => rfl
  | cons p ps ih => rw [List.cons_append, spansOf, spansOf, ih, List.append_assoc]

/-- Only paragraphs are looked up in the source. -/
lemma nodeOfContainer_congr (h : settings.linkLiterals = settings'.linkLiterals) {tag : Tag}
    (htag : tag ≠ .paragraph) (offset : Nat) (inside : List Node) (literal : String)
    (ticks : List Bool) :
    nodeOfContainer settings tag offset inside literal ticks =
      nodeOfContainer settings' tag offset inside literal ticks := by
  cases tag with
  | paragraph => exact absurd rfl htag
  | _ => simp only [nodeOfContainer, h]

mutual

lemma siblingNodes_spansOfPiece_congr (h : settings.linkLiterals = settings'.linkLiterals)
    (p : Inline) :
    siblingNodes settings (spansOfPiece p) = siblingNodes settings' (spansOfPiece p) := by
  cases p with
  | span kind cs =>
    have htag : Inline.tag kind ≠ .paragraph := by cases kind <;> exact Tag.noConfusion
    simp only [spansOfPiece, siblingNodes, spanNodes, siblingNodes_spansOf_congr h cs]
    rw [nodeOfContainer_congr h htag]
  | link form url title cs | image form url title cs =>
    simp only [spansOfPiece, siblingNodes, spanNodes, siblingNodes_spansOf_congr h cs]
    rw [nodeOfContainer_congr h Tag.noConfusion]
  | math display value => cases display <;> rfl
  | _ => rfl

lemma siblingNodes_spansOf_congr (h : settings.linkLiterals = settings'.linkLiterals)
    (ps : List Inline) :
    siblingNodes settings (spansOf ps) = siblingNodes settings' (spansOf ps) := by
  cases ps with
  | nil => rfl
  | cons p ps =>
    rw [spansOf, siblingNodes_append, siblingNodes_append, siblingNodes_spansOfPiece_congr h p,
      siblingNodes_spansOf_congr h ps]

end

lemma forestNodes_text_cons (settings : Settings) (value : List Char) (ps : List Inline) :
    forestNodes settings (spansOf (.text value :: ps)) =
      prependText (String.ofList value) (forestNodes settings (spansOf ps)) := rfl

end Spans

end Folio.Tree
