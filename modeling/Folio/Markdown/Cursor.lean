import Folio.Markdown.Source

/-!
# Line cursors

At the start of a line the markers and the indentation of the containers around a block are passed
over. A tab advances to the next column divisible by four, so a cursor may stand inside of one.
-/

namespace Folio.Markdown

structure Cursor where
  pos : Nat
  /-- Where the columns of tabs are counted from. -/
  tabStart : Nat
  /-- The columns left of the tab before the cursor. -/
  spaces : Nat

namespace Cursor

def new (pos : Nat) : Cursor := ⟨pos, pos, 0⟩

/-- Passes at most `n` columns of white space; yields how many of them were missing. -/
def skipColumns (s : Source) : Nat → Cursor → Nat × Cursor
  | 0, c => (0, c)
  | n + 1, c =>
    if 0 < c.spaces then skipColumns s n { c with spaces := c.spaces - 1 }
    else match s[c.pos]? with
      | some ' ' => skipColumns s n { c with pos := c.pos + 1 }
      | some '\t' =>
        let width := 4 - (c.pos - c.tabStart) % 4
        skipColumns s n ⟨c.pos + 1, c.pos + 1, width - 1⟩
      | _ => (n + 1, c)

/-- Passes `n` columns, and says whether all of them were there. -/
def skipExactly (s : Source) (n : Nat) (c : Cursor) : Bool × Cursor :=
  let (missing, c) := c.skipColumns s n
  (missing == 0, c)

/-- Passes up to `n` columns, and says how many. -/
def skipUpTo (s : Source) (n : Nat) (c : Cursor) : Nat × Cursor :=
  let (missing, c) := c.skipColumns s n
  (n - missing, c)

def skipAll (s : Source) (c : Cursor) : Cursor :=
  { c with pos := s.skipWhile (fun d => d == ' ' || d == '\t') c.pos, spaces := 0 }

def atLineEnd (s : Source) (c : Cursor) : Bool :=
  (s.lineEnd? c.pos).isSome

def quoteMarker? (s : Source) (c : Cursor) : Option Cursor :=
  if s.hasAt c.pos '>' then some (({ c with pos := c.pos + 1 }).skipColumns s 1).2 else none

end Cursor

/-- What a container asks for at the start of each of its lines. -/
inductive LinePrefix where
  | quote
  /-- Some columns of white space, unless the line is blank. -/
  | indent (columns : Nat)
deriving DecidableEq, Repr

def LinePrefix.skip? (s : Source) (c : Cursor) : LinePrefix → Option Cursor
  | quote => (c.skipColumns s 3).2.quoteMarker? s
  | indent columns =>
    let (found, c) := c.skipExactly s columns
    if found || c.atLineEnd s then some c else none

/-- Passes the prefixes of containers, the outermost first, as far as the line has them. Yields
how many it has. -/
def skipPrefixes (s : Source) : List LinePrefix → Cursor → Nat × Cursor
  | [], c => (0, c)
  | p :: ps, c =>
    match p.skip? s c with
    | some c =>
      let (n, c) := skipPrefixes s ps c
      (n + 1, c)
    | none => (0, c)

/-- The position behind as many prefixes as the line that starts at `i` has. -/
def afterPrefixes (s : Source) (prefixes : List LinePrefix) (i : Nat) : Nat :=
  (skipPrefixes s prefixes (Cursor.new i)).2.pos

def allPrefixes? (s : Source) (prefixes : List LinePrefix) (i : Nat) : Option Cursor :=
  let (n, c) := skipPrefixes s prefixes (Cursor.new i)
  if n == prefixes.length then some c else none

end Folio.Markdown
