import Folio.Document
import Folio.Literal.Finder

/-!
# Link literals in text nodes

A text node is cut at the literals in it; each becomes a link around its own text, except URLs that
name neither their scheme nor `www.`.
-/

namespace Folio.Tree

open Literal

def literalTarget? (kind : LiteralKind) (literal : List Char) : Option (List Char) :=
  match kind with
  | .email => some ("mailto:".toList ++ literal)
  | .url =>
    if "http://".toList.isPrefixOf literal || "https://".toList.isPrefixOf literal then
      some literal
    else if "www.".toList.isPrefixOf literal then some ("http://".toList ++ literal)
    else none

/-- A text node for a piece of text, or none for the empty piece. -/
def textPiece (cs : List Char) : List Node :=
  if cs.isEmpty then [] else [.text (String.ofList cs)]

def slice (cs : List Char) (start stop : Nat) : List Char :=
  (cs.drop start).take (stop - start)

/-- Cuts a text at the literals found in it; `last` is the end of the latest link. -/
def cutText (value : List Char) (last : Nat) : List Found → List Node
  | [] => if last = 0 then [.text (String.ofList value)] else textPiece (value.drop last)
  | f :: fs =>
    let literal := slice value f.start f.stop
    match literalTarget? f.kind literal with
    | none => cutText value last fs
    | some url =>
      textPiece (slice value last f.start) ++
        .link (String.ofList url) none [.text (String.ofList literal)] ::
          cutText value f.stop fs

/-- Turns the literals in the text nodes among siblings into links. -/
def linkLiterals (find : List Char → List Found) : List Node → List Node
  | [] => []
  | .text value :: ns => cutText value.toList 0 (find value.toList) ++ linkLiterals find ns
  | n :: ns => n :: linkLiterals find ns

end Folio.Tree
