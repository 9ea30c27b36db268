import Folio.Markdown.Source

/-!
# Table heads

A table begins with a header row and, below it, a row of hyphens with as many columns.
-/

namespace Folio.Markdown

structure DelimiterRow where
  columns : Nat
  hasPipe : Bool
  hasHyphen : Bool
  columnHasHyphen : Bool
  inColumn : Bool

/-- Reads up to the line end. Any other character makes it no row of hyphens. -/
def delimiterRowFuel (s : Source) : Nat → DelimiterRow → Nat → Option (DelimiterRow × Nat)
  | 0, r, i => some (r, i)
  | fuel + 1, r, i =>
    match s[i]? with
    | none => some (r, i)
    | some ' ' => delimiterRowFuel s fuel r (i + 1)
    | some ':' => delimiterRowFuel s fuel { r with inColumn := true } (i + 1)
    | some '-' => delimiterRowFuel s fuel { r with inColumn := true, hasHyphen := true,
                                                   columnHasHyphen := true } (i + 1)
    | some '|' =>
      if r.columnHasHyphen then
        delimiterRowFuel s fuel { r with inColumn := false, columnHasHyphen := false,
                                         hasPipe := true, columns := r.columns + 1 } (i + 1)
      else none
    | some '\n' | some '\r' => (s.lineEnd? i).map fun next => (r, next)
    | some _ => none

/-- The number of columns of the row of hyphens at `i`, and the position behind it. The row has a
pipe and is not indented like code. A pipe in front of all hyphens must not be indented at all. -/
def delimiterRow? (s : Source) (i : Nat) : Option (Nat × Nat) := do
  let first := s.skipWhile (· == ' ') i
  if s.size ≤ first || i + 4 ≤ first then none
  let hasPipe := s.hasAt i '|'
  let start := if hasPipe then i + 1 else first
  let (r, stop) ← delimiterRowFuel s (s.size - start) ⟨0, hasPipe, false, false, false⟩ start
  if r.hasPipe && r.hasHyphen then
    some (if r.inColumn then r.columns + 1 else r.columns, stop)
  else none

/-- The number of columns of a header row that starts at `start`, has `pipes` pipes and the last of
them at `lastPipe`. Pipes at the ends of the row separate nothing. -/
def headerColumns (s : Source) (pipes start lastPipe : Nat) : Nat :=
  let inner := if s.hasAt (s.skipBlanks start) '|' then pipes - 1 else pipes
  if (s.blankLine? (lastPipe + 1)).isSome then inner else inner + 1

end Folio.Markdown
