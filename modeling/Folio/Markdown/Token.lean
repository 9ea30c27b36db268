import Folio.Markdown.CharReference
import Folio.Markdown.Cursor
import Folio.Markdown.Table
import Folio.Text.Basic

/-!
# Tokens of running text

A line of text is cut into tokens: plain pieces, and marks that may turn out to mean something once
the whole block is known. Whether a mark can open or close a span depends on its neighbours.
-/

namespace Folio.Markdown

structure Dialect where
  extended : Bool
  math : Bool

inductive TokenKind where
  /-- A piece of the source; `escaped` if a backslash stands before it. -/
  | text (escaped : Bool)
  /-- Text that is not in the source. -/
  | synthetic (value : List Char)
  | delimiters (mark : Char) (canOpen canClose : Bool)
  /-- A dollar sign, with the group of braces it stands in. -/
  | dollar (canOpen canClose : Bool) (group : Nat)
  /-- A run of backticks; `escaped` if the first one follows a backslash. -/
  | backticks (escaped : Bool)
  | angle
  | openBracket
  | openImage
  /-- A closing bracket; `refers` unless it is known that no reference ends there. -/
  | closeBracket (refers : Bool)
  | softBreak
  /-- A line break made by a backslash or by blanks. -/
  | hardBreak (backslash : Bool)
deriving DecidableEq, Repr

structure Token where
  kind : TokenKind
  start : Nat
  stop : Nat
deriving DecidableEq, Repr

/-- Adds a piece of the source; it joins the piece right before it. Tokens come latest first. -/
def addText (start stop : Nat) (escaped : Bool) (ts : List Token) : List Token :=
  if start < stop then
    match ts with
    | ⟨.text e, b, m⟩ :: rest =>
      if m = start then ⟨.text e, b, stop⟩ :: rest else ⟨.text escaped, start, stop⟩ :: ts
    | _ => ⟨.text escaped, start, stop⟩ :: ts
  else ts

/-- The groups of braces that are open, innermost first. A dollar sign outside of all braces opens
a group of its own. -/
structure Braces where
  groups : List Nat
  next : Nat

namespace Braces

def none : Braces := ⟨[], 0⟩

/-- Deeper braces are only counted. -/
def nestingLimit : Nat := 25

/-- Numbers of groups are one byte wide. -/
def group (n : Nat) : Nat := n % 256

def outermost : Nat := 255

def «open» (b : Braces) : Braces :=
  if b.groups.length = nestingLimit then ⟨group b.next :: b.groups, nestingLimit⟩
  else if nestingLimit < b.groups.length then { b with next := b.next + 1 }
  else ⟨group b.next :: b.groups, b.next + 1⟩

/-- A brace that closes nothing separates what is before it from what is behind it. -/
def close (b : Braces) : Braces :=
  match b.groups with
  | [] => b
  | [_] => ⟨[group b.next], b.next + 1⟩
  | _ :: rest =>
    if nestingLimit < b.groups.length then
      if b.next ≤ nestingLimit then { b with groups := rest } else { b with next := b.next - 1 }
    else { b with groups := rest }

def dollar (b : Braces) : Nat × Braces :=
  if nestingLimit < b.groups.length then (group b.next, b)
  else match b.groups with
    | g :: _ => (g, b)
    | [] => (outermost, { b with groups := [outermost] })

end Braces

inductive PipeMode where
  | plain
  /-- The line may be the header of a table. -/
  | header
  | cell
deriving DecidableEq

/-- A pipe stands before `i`, and no backslash before the pipe. -/
def barePipeBefore (s : Source) (i : Nat) : Bool :=
  0 < i && s.hasAt (i - 1) '|' && !(1 < i && s.hasAt (i - 2) '\\')

/-- A run of `n` marks at `i`, on a line that starts at `start`, can open a span. -/
def canOpen (s : Source) (mode : PipeMode) (mark : Char) (start n i : Nat) : Bool :=
  match s[i + n]? with
  | none => false
  | some next =>
    if Text.isBlank next then false
    else if i = start then true
    else if mode = .cell && barePipeBefore s i then true
    else if mode = .cell && next == '|' then false
    else if (mark == '*' && !Text.isPunctuation next) || (mark == '~' && 1 < n) then true
    else match s[i - 1]? with
      | none => true
      | some prev =>
        (mark == '~' && prev == '~' && !Text.isPunctuation next) ||
          Text.isBlank prev || Text.isPunctuation prev

def canClose (s : Source) (mode : PipeMode) (mark : Char) (start n i : Nat) : Bool :=
  if i = start then false
  else match s[i - 1]? with
    | none => false
    | some prev =>
      if Text.isBlank prev then false
      else match s[i + n]? with
        | none => true
        | some next =>
          if mode = .cell && barePipeBefore s i then false
          else if mode = .cell && next == '|' then true
          else if (mark == '*' || (mark == '~' && 1 < n)) && !Text.isPunctuation prev then true
          else (mark == '~' && prev == '~') || Text.isBlank next || Text.isPunctuation next

inductive LineEnd where
  | cut
  | broken (t : Token)
  /-- The line is the header of a table with so many columns. -/
  | table (columns : Nat)

/-- A line that is being cut. The tokens come latest first; the piece of plain text at hand begins
at `pending`. -/
structure LineScan where
  tokens : List Token
  braces : Braces
  pending : Nat
  escaped : Bool
  pipes : Nat
  lastPipe : Nat

namespace LineScan

/-- Ends the piece of plain text at hand. -/
def flush (l : LineScan) (stop : Nat) : LineScan :=
  { l with tokens := addText l.pending stop l.escaped l.tokens, escaped := false }

def mark (l : LineScan) (kind : TokenKind) (start stop : Nat) : LineScan :=
  let l := l.flush start
  { l with tokens := ⟨kind, start, stop⟩ :: l.tokens, pending := stop }

end LineScan

structure LineRules where
  dialect : Dialect
  mode : PipeMode
  /-- The prefixes that a further line must have for a table to begin. -/
  prefixes : List LinePrefix
  start : Nat

/-- The columns of the table whose header is the line that ends at `i`, and the position behind the
row of hyphens. -/
def tableHead? (s : Source) (rules : LineRules) (l : LineScan) (i : Nat) :
    Option (Nat × Nat) := do
  if rules.mode ≠ .header || l.pipes = 0 then none
  let next ← s.lineEnd? i
  let c ← allPrefixes? s rules.prefixes next
  let (isIndented, c) := c.skipExactly s 4
  if isIndented then none
  let (columns, stop) ← delimiterRow? s c.pos
  if columns = headerColumns s l.pipes rules.start l.lastPipe then some (columns, stop) else none

def endLine (s : Source) (rules : LineRules) (l : LineScan) (i : Nat) :
    LineScan × Nat × LineEnd :=
  if rules.mode = .cell then
    (l.flush (max l.pending (s.skipBack isInlineBlank l.pending i)), i, .cut)
  else match tableHead? s rules l i with
    | some (columns, stop) => (l, stop, .table columns)
    | none =>
      let next := (s.lineEnd? i).getD i
      let backslashes := i - s.skipBack (· == '\\') 0 i
      let blanks := i - s.skipBack isInlineBlank 0 i
      if backslashes % 2 = 1 && next < s.size then
        (l.flush (i - 1), next, .broken ⟨.hardBreak true, i - 1, next⟩)
      else if 2 ≤ blanks then
        (l.flush (i - blanks), next, .broken ⟨.hardBreak false, i - blanks, next⟩)
      else (l.flush (i - blanks), next, .broken ⟨.softBreak, i, next⟩)

/-- A backslash at `i`. Yields the next position to look at. -/
def scanBackslash (s : Source) (mode : PipeMode) (l : LineScan) (i : Nat) : LineScan × Nat :=
  if isEscape s i then
    let l := l.flush i
    if s.hasAt (i + 1) '\x60' then
      let stop := s.skipWhile (· == '\x60') (i + 1)
      ({ l with tokens := ⟨.backticks true, i + 1, stop⟩ :: l.tokens, pending := stop }, stop)
    else if mode = .cell && isTablePipe s i then
      ({ l with pending := i + 2, escaped := true }, i + 3)
    else ({ l with pending := i + 1, escaped := true }, i + 2)
  else (l, i + 1)

/-- The character `c` at `i`, which ends no line and no cell. -/
def scanChar (s : Source) (rules : LineRules) (l : LineScan) (i : Nat) (c : Char) :
    LineScan × Nat :=
  let plain := (l, i + 1)
  match c with
  | '\\' => scanBackslash s rules.mode l i
  | '*' | '_' | '~' =>
    if c == '~' && !rules.dialect.extended then plain
    else
      let n := s.runLength c i
      let opens := canOpen s rules.mode c rules.start n i
      let closes := canClose s rules.mode c rules.start n i
      if (opens || closes) && (c != '~' || n ≤ 2) then
        (l.mark (.delimiters c opens closes) i (i + n), i + n)
      else (l, i + n)
  | '$' =>
    if rules.dialect.math then
      let (group, braces) := l.braces.dollar
      let opens := s[i + 1]?.any (!isAsciiBlank ·)
      let closes := rules.start < i && s[i - 1]?.any (!isAsciiBlank ·)
      (({ l with braces := braces } : LineScan).mark (.dollar opens closes group) i (i + 1), i + 1)
    else plain
  | '\x7b' => if rules.dialect.math then ({ l with braces := l.braces.open }, i + 1) else plain
  | '\x7d' => if rules.dialect.math then ({ l with braces := l.braces.close }, i + 1) else plain
  | '\x60' =>
    let n := s.runLength c i
    (l.mark (.backticks false) i (i + n), i + n)
  | '<' => if s.hasAt (i + 1) '\\' then plain else (l.mark .angle i (i + 1), i + 1)
  | '!' => if s.hasAt (i + 1) '[' then (l.mark .openImage i (i + 2), i + 2) else plain
  | '[' => (l.mark .openBracket i (i + 1), i + 1)
  | ']' => (l.mark (.closeBracket true) i (i + 1), i + 1)
  | '&' =>
    match charReference? s i with
    | some (text, stop) => (l.mark (.synthetic text) i stop, stop)
    | none => plain
  | '|' =>
    if !rules.dialect.extended || (0 < i && s.hasAt (i - 1) '\\') then plain
    else ({ l with pipes := l.pipes + 1, lastPipe := i }, i + 1)
  | _ => plain

def scanLineFuel (s : Source) (rules : LineRules) : Nat → LineScan → Nat →
    LineScan × Nat × LineEnd
  | 0, l, i => (l.flush (max l.pending (s.skipBack isInlineBlank l.pending i)), i, .cut)
  | fuel + 1, l, i =>
    match s[i]? with
    | none => (l.flush (max l.pending (s.skipBack isInlineBlank l.pending i)), i, .cut)
    | some c =>
      if c == '\n' || c == '\r' then endLine s rules l i
      else if rules.mode = .cell && c == '|' && !(0 < i && s.hasAt (i - 1) '\\') then
        (l.flush (max l.pending (s.skipBack isInlineBlank l.pending i)), i, .cut)
      else
        let (l, i) := scanChar s rules l i c
        scanLineFuel s rules fuel l i

/-- Cuts the line of text at `rules.start`. Yields the tokens, the latest first and behind those
given, the braces that are open, the position behind the line, and how it ends. -/
def scanLine (s : Source) (rules : LineRules) (tokens : List Token) (braces : Braces) :
    List Token × Braces × Nat × LineEnd :=
  let (l, next, lineEnd) := scanLineFuel s rules (s.size - rules.start)
    ⟨tokens, braces, rules.start, false, 0, 0⟩ rules.start
  (l.tokens, l.braces, next, lineEnd)

end Folio.Markdown
