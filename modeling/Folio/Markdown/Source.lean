/-!
# Source text

Markdown is read from an array of characters by position. The scanners here skip over runs of
characters and line ends; a position at or beyond the end counts as an end of line.
-/

namespace Folio.Markdown

abbrev Source := Array Char

def isInlineBlank (c : Char) : Bool :=
  c == ' ' || c == '\t' || c == '\x0b' || c == '\x0c'

def isAsciiBlank (c : Char) : Bool :=
  isInlineBlank c || c == '\n' || c == '\r'

namespace Source

def hasAt (s : Source) (i : Nat) (c : Char) : Bool :=
  s[i]? == some c

def startsWith (s : Source) (i : Nat) : List Char → Bool
  | [] => true
  | c :: cs => s.hasAt i c && s.startsWith (i + 1) cs

def skipWhileFuel (s : Source) (p : Char → Bool) : Nat → Nat → Nat
  | 0, i => i
  | fuel + 1, i =>
    match s[i]? with
    | some c => if p c then s.skipWhileFuel p fuel (i + 1) else i
    | none => i

/-- The first position from `i` on whose character does not satisfy `p`. -/
def skipWhile (s : Source) (p : Char → Bool) (i : Nat) : Nat :=
  s.skipWhileFuel p (s.size - i) i

def runLength (s : Source) (c : Char) (i : Nat) : Nat :=
  s.skipWhile (· == c) i - i

def skipBlanks (s : Source) (i : Nat) : Nat :=
  s.skipWhile isInlineBlank i

/-- The position behind the line end at `i`, if there is one. -/
def lineEnd? (s : Source) (i : Nat) : Option Nat :=
  match s[i]? with
  | none => some i
  | some '\n' => some (i + 1)
  | some '\r' => if s.hasAt (i + 1) '\n' then some (i + 2) else some (i + 1)
  | _ => none

/-- The position behind the line, if the rest of it is blank. -/
def blankLine? (s : Source) (i : Nat) : Option Nat :=
  s.lineEnd? (s.skipBlanks i)

def nextLine (s : Source) (i : Nat) : Nat :=
  min s.size (s.skipWhile (· != '\n') i + 1)

def skipBackFuel (s : Source) (p : Char → Bool) (low : Nat) : Nat → Nat
  | 0 => 0
  | i + 1 =>
    if low ≤ i && (s[i]?.any p) then s.skipBackFuel p low i else i + 1

/-- The least position from `low` on such that all characters from there up to `i` satisfy `p`. -/
def skipBack (s : Source) (p : Char → Bool) (low i : Nat) : Nat :=
  s.skipBackFuel p low i

def slice (s : Source) (start stop : Nat) : List Char :=
  (s.extract start stop).toList

def byteOffset (s : Source) (i : Nat) : Nat :=
  (s.extract 0 i).foldl (fun n c => n + c.utf8Size) 0

end Source

end Folio.Markdown
