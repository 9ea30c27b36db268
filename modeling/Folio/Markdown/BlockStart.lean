import Folio.Markdown.LinkSyntax
import Folio.Markdown.RawHtml
import Folio.Markdown.Token

/-!
# Starts of blocks

The signs at the start of a line that begin a block, and the rule for which of them end a paragraph
without a blank line in between.
-/

namespace Folio.Markdown

/-- The position behind a line of at least three `*`, `-` or `_`, with blanks between them. -/
def ruleLine? (s : Source) (i : Nat) : Option Nat := do
  let c ← s[i]?
  if !(c == '*' || c == '-' || c == '_') then none
  let stop := s.skipWhile (fun d => d == c || d == ' ' || d == '\t') i
  if (s.slice i stop).count c < 3 then none
  s.lineEnd? stop

def headingLevel? (s : Source) (i : Nat) : Option Nat :=
  let n := s.runLength '#' i
  if 1 ≤ n && n ≤ 6 && s[i + n]?.all isAsciiBlank then some n else none

/-- The level of the heading whose underline is at `i`, and the position behind it. -/
def underline? (s : Source) (i : Nat) : Option (Nat × Nat) := do
  let c ← s[i]?
  if !(c == '=' || c == '-') then none
  let stop ← s.blankLine? (s.skipWhile (· == c) i)
  some (if c == '=' then 1 else 2, stop)

def fence? (s : Source) (i : Nat) : Option (Char × Nat) := do
  let c ← s[i]?
  if !(c == '\x60' || c == '~') then none
  let n := s.runLength c i
  if n < 3 then none
  if c == '\x60' && (s.slice (i + n) (s.nextLine (i + n))).contains '\x60' then none
  some (c, n)

/-- The position behind a closing fence of at least `n` marks. -/
def closingFence? (s : Source) (c : Char) (n i : Nat) : Option Nat :=
  if s.size ≤ i then some i
  else
    let length := s.runLength c i
    let stop := s.skipWhile (· == ' ') (i + length)
    if n ≤ length && (s.lineEnd? stop).isSome then some stop else none

/-- A marker of a list item: the bullet or the delimiter behind the number, the number, and how far
the content of the item is indented. -/
structure ListMarker where
  mark : Char
  number : Nat
  indent : Nat

/-- The digits of an ordered item and the position behind the delimiter. -/
def itemNumber? (s : Source) (i : Nat) : Option (Char × Nat × Nat) := do
  let stop := s.skipWhile Char.isDigit i
  let c ← s[stop]?
  if stop = i || 9 < stop - i || !(c == '.' || c == ')') then none
  some (c, numeral 10 (s.slice i stop), stop + 1)

def itemSign? (s : Source) (i : Nat) : Option (Char × Nat × Nat) :=
  match s[i]? with
  | none => none
  | some c =>
    if c == '-' || c == '+' || c == '*' then
      if (ruleLine? s i).isSome then none else some (c, 0, i + 1)
    else itemNumber? s i

/-- The marker of a list item at a cursor that `outer` columns of indentation precede. The cursor
ends up where the content begins, unless that is indented code or the line is blank. -/
def listMarker? (s : Source) (outer : Nat) (c : Cursor) : Option (ListMarker × Cursor) := do
  let (mark, number, stop) ← itemSign? s c.pos
  let indent := outer + (stop - c.pos) + 1
  let (spaced, c) := ({ c with pos := stop } : Cursor).skipExactly s 1
  if !(spaced || c.atLineEnd s) then none
  if (s.blankLine? c.pos).isSome then some (⟨mark, number, indent⟩, c)
  else
    let (extra, inner) := c.skipUpTo s 4
    if extra < 4 then some (⟨mark, number, indent + extra⟩, inner)
    else some (⟨mark, number, indent⟩, c)

/-- The box of a task at a cursor: whether it is ticked, and the cursor behind it. -/
def taskBox? (s : Source) (c : Cursor) : Option (Bool × Cursor) := do
  let (_, c) := c.skipUpTo s 3
  if !s.hasAt c.pos '[' then none
  let d ← s[c.pos + 1]?
  if !(isInlineBlank d || d == 'x' || d == 'X') then none
  if !s.hasAt (c.pos + 2) ']' then none
  if !(s[c.pos + 3]?.any isInlineBlank) then none
  some (!isInlineBlank d, { c with pos := c.pos + 3 })

def footnoteLabel? (s : Source) (inTable : Bool) (i : Nat) : Option (List Char × Nat) := do
  if !(s.hasAt i '[' && s.hasAt (i + 1) '^') then none
  let (label, stop) ← label? s onOneLine inTable (i + 2)
  if s.hasAt stop ':' then some (label, stop + 1) else none

/-- The sign of a list item at `i`: the mark, the number, and the position behind the sign. -/
def interruptingItem? (s : Source) (i : Nat) : Option (Char × Nat × Nat) := do
  let c ← s[i]?
  let (mark, number, stop) ←
    if c == '-' || c == '+' || c == '*' then some (c, 0, i + 1) else itemNumber? s i
  if s[stop]?.all fun d => d == ' ' || d == '\t' || d == '\n' || d == '\r' then
    some (mark, number, stop)
  else none

/-- A list item may end a paragraph. Within the same container it must not be empty, nor begin with
a number other than one. -/
def itemInterrupts (s : Source) (sameContainer inTable : Bool) (i : Nat) : Bool :=
  match interruptingItem? s i with
  | none => false
  | some (mark, number, stop) =>
    !sameContainer || inTable ||
      ((mark == '*' || mark == '-' || mark == '+' || number == 1) && (s.blankLine? stop).isNone)

/-- The line at `i` ends a paragraph, tables aside. `sameContainer` says that the line has the
prefixes of all containers around the paragraph. -/
def interrupts (s : Source) (dialect : Dialect) (sameContainer inTable : Bool) (i : Nat) : Bool :=
  (s.lineEnd? i).isSome || (ruleLine? s i).isSome || (headingLevel? s i).isSome ||
    (fence? s i).isSome || s.hasAt i '>' || itemInterrupts s sameContainer inTable i ||
    (s.hasAt i '<' && ((htmlBlockEnd? s i).isSome || startsBlockElement s i)) ||
    (dialect.extended && (footnoteLabel? s inTable i).isSome)

/-- The number of bare pipes on the line at `i`, the last of them, and the position behind the
line. -/
def countPipesFuel (s : Source) : Nat → Bool → Nat → Nat → Nat → Option (Nat × Nat × Nat)
  | 0, _, _, _, _ => none
  | fuel + 1, escaped, pipes, last, i =>
    match s[i]? with
    | none => none
    | some '\n' | some '\r' => (s.lineEnd? i).map fun next => (pipes, last, next)
    | some '\\' => countPipesFuel s fuel true pipes last (i + 1)
    | some '|' =>
      if escaped then countPipesFuel s fuel false pipes last (i + 1)
      else countPipesFuel s fuel false (pipes + 1) i (i + 1)
    | some _ => countPipesFuel s fuel false pipes last (i + 1)

def startsTable (s : Source) (prefixes : List LinePrefix) (i : Nat) : Bool :=
  s.hasAt i '|' &&
    match countPipesFuel s (s.size - i) false 0 i i with
    | none => false
    | some (pipes, last, next) =>
      match allPrefixes? s prefixes next with
      | none => false
      | some c =>
        match delimiterRow? s c.pos with
        | some (columns, _) => columns == headerColumns s pipes i last
        | none => false

end Folio.Markdown
