import Folio.Document
import Folio.Text.Basic

/-!
# Deep headings

A heading has at most six markers; a line that opens with more is a paragraph. A paragraph of one
line that opens with seven markers or more, and a blank behind them, is read as a heading of that
depth.
-/

namespace Folio.Tree

def deepLevel : Nat := 7

def opensDeep (source : List Char) : Bool :=
  deepLevel ≤ (source.takeWhile (· == '#')).length

/-- Nothing among these siblings breaks the line. -/
def isSingleLine (ns : List Node) : Bool :=
  ns.all fun
    | .text value => !value.toList.contains '\n'
    | .break => false
    | _ => true

/-- The level that the markers at the start of a text ask for, and the text behind them. -/
def deepMarker? (cs : List Char) : Option (UInt8 × List Char) :=
  let count := (cs.takeWhile (· == '#')).length
  let rest := cs.drop count
  if count < deepLevel then none
  else if rest.head?.all fun c => c == ' ' || c == '\t' then
    some (UInt8.ofNat (min count 255), Text.trimStart rest)
  else none

/-- Drops markers at the end of a heading, if they stand alone or behind a blank. -/
def dropClosing (cs : List Char) : List Char :=
  let trimmed := Text.trimEnd cs
  let bare := Text.dropEndWhile (· == '#') trimmed
  match bare.getLast? with
  | none => []
  | some c => if (c == ' ' || c == '\t') && bare.length < trimmed.length then Text.trimEnd bare
    else trimmed

def liftHeading (children : List Node) : Node :=
  match children with
  | .text value :: rest =>
    match if isSingleLine children then deepMarker? value.toList else none with
    | some (level, title) =>
      let title := if rest.isEmpty then dropClosing title else title
      .heading level ((if title.isEmpty then [] else [.text (String.ofList title)]) ++ rest)
    | none => .paragraph children
  | _ => .paragraph children

end Folio.Tree
