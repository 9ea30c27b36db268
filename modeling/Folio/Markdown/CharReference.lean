import Folio.Markdown.Source
import Folio.Text.Basic
import Folio.Text.NamedReference
import Folio.Text.Punctuation

/-!
# Character references and escapes

A character reference is a name or a number between an ampersand and a semicolon. Before a mark of
ASCII punctuation a backslash takes the mark's meaning away.
-/

namespace Folio.Markdown

/-- The character with a code point; zero and everything that is no character is replaced. -/
def referenceChar (n : Nat) : Char :=
  if n ≠ 0 ∧ n.isValidChar then Char.ofNat n else '\ufffd'

def numeral (base : Nat) (ds : List Char) : Nat :=
  ds.foldl (fun n d => n * base + (Text.hexValue? d).getD 0) 0

/-- The character reference at the ampersand at `i`: its text and the position behind it. -/
def charReference? (s : Source) (i : Nat) : Option (List Char × Nat) :=
  if s.hasAt (i + 1) '#' then
    let hexadecimal := s.hasAt (i + 2) 'x' || s.hasAt (i + 2) 'X'
    let start := if hexadecimal then i + 3 else i + 2
    let limit := if hexadecimal then 6 else 7
    let isDigit := if hexadecimal then Text.isHexDigit else Char.isDigit
    let stop := min (s.skipWhile isDigit start) (start + limit)
    if start < stop && s.hasAt stop ';' then
      some ([referenceChar (numeral (if hexadecimal then 16 else 10) (s.slice start stop))],
        stop + 1)
    else none
  else
    let stop := s.skipWhile Char.isAlphanum (i + 1)
    if s.hasAt stop ';' then
      (Text.namedReference? (s.slice (i + 1) stop)).map fun text => (text.toList, stop + 1)
    else none

def isEscape (s : Source) (i : Nat) : Bool :=
  s.hasAt i '\\' && s[i + 1]?.any Text.isAsciiPunctuation

/-- There is an escaped backslash and a pipe: in a table these stand for an escaped pipe. -/
def isTablePipe (s : Source) (i : Nat) : Bool :=
  s.hasAt i '\\' && s.hasAt (i + 1) '\\' && s.hasAt (i + 2) '|'

def unescapeFuel (s : Source) (inTable : Bool) : Nat → Nat → List Char
  | 0, _ => []
  | fuel + 1, i =>
    match s[i]? with
    | none => []
    | some c =>
      if inTable && isTablePipe s i then '|' :: unescapeFuel s inTable fuel (i + 3)
      else if isEscape s i then
        (s[i + 1]?.toList) ++ unescapeFuel s inTable fuel (i + 2)
      else if c == '&' then
        match charReference? s i with
        | some (text, next) => text ++ unescapeFuel s inTable fuel next
        | none => c :: unescapeFuel s inTable fuel (i + 1)
      else if c == '\r' then unescapeFuel s inTable fuel (i + 1)
      else c :: unescapeFuel s inTable fuel (i + 1)

def unescape (inTable : Bool) (cs : List Char) : List Char :=
  let s := cs.toArray
  unescapeFuel s inTable s.size 0

end Folio.Markdown
