import Folio.Markdown.CharReference
import Folio.Markdown.Cursor
import Folio.Text.CaseFolding

/-!
# Parts of links

Labels name a link, destinations say where it goes. An automatic link is a URI or an e-mail address
between angle brackets.
-/

namespace Folio.Markdown

structure Definition where
  url : List Char
  title : List Char

/-- Labels are the same if they are so after case folding. -/
def labelKey (label : List Char) : List Char :=
  Text.foldCase label

/-- How much of a label has been read. The weight bounds its length; plain ASCII has none. -/
structure LabelScan where
  chars : List Char
  weight : Nat
  hasText : Bool

def labelLimit : Nat := 1000

/-- White space in a label from `i` on, with at most one line end. Yields the position behind and
how wide it is; anything but one space counts as wide. -/
def labelBlanksFuel (s : Source) (onLine : Nat → Option Nat) :
    Nat → Bool → Nat → Nat → Option (Nat × Nat)
  | 0, _, _, _ => none
  | fuel + 1, broken, width, i =>
    match s[i]? with
    | none => some (i, width)
    | some c =>
      if c == '\n' || c == '\r' then
        if broken then none
        else do
          let next ← s.lineEnd? i
          labelBlanksFuel s onLine fuel true (width + 2) (← onLine next)
      else if isAsciiBlank c then
        labelBlanksFuel s onLine fuel broken (width + if c == ' ' then 1 else 2) (i + 1)
      else some (i, width)

def labelFuel (s : Source) (onLine : Nat → Option Nat) (inTable : Bool) :
    Nat → LabelScan → Nat → Option (List Char × Nat)
  | 0, _, _ => none
  | fuel + 1, l, i =>
    if labelLimit ≤ l.weight then none
    else match s[i]? with
      | none => none
      | some '[' => none
      | some ']' => if l.hasText then some (l.chars.reverse, i + 1) else none
      | some '\\' =>
        if inTable && isTablePipe s i then
          labelFuel s onLine inTable fuel
            { l with chars := '|' :: '\\' :: l.chars, weight := l.weight + 2 } (i + 3)
        else match s[i + 1]? with
        | none => none
        | some d =>
          let chars := if inTable && d == '|' then d :: l.chars else d :: '\\' :: l.chars
          labelFuel s onLine inTable fuel
            ⟨chars, l.weight + 1 + d.utf8Size, l.hasText || 1 < d.utf8Size⟩ (i + 2)
      | some c =>
        if isAsciiBlank c then
          match labelBlanksFuel s onLine (s.size + 1 - i) false 0 i with
          | none => none
          | some (next, width) =>
            labelFuel s onLine inTable fuel
              { l with chars := ' ' :: l.chars,
                       weight := l.weight + if 1 < width then next - i else 1 } next
        else
          labelFuel s onLine inTable fuel
            ⟨c :: l.chars, l.weight + if c.toNat < 128 then 0 else c.utf8Size, true⟩ (i + 1)

/-- The label whose first character is at `i`: its text with white space collapsed, and the
position behind its closing bracket. `onLine` passes the start of a further line. -/
def label? (s : Source) (onLine : Nat → Option Nat) (inTable : Bool) (i : Nat) :
    Option (List Char × Nat) :=
  labelFuel s onLine inTable (s.size + 1 - i) ⟨[], 0, false⟩ i

/-- Footnote labels and the definitions of footnotes stay on one line. -/
def onOneLine (_ : Nat) : Option Nat := none

def pointyFuel (s : Source) : Nat → Nat → Option Nat
  | 0, _ => none
  | fuel + 1, i =>
    match s[i]? with
    | none | some '\n' | some '\r' | some '<' => none
    | some '>' => some i
    | some _ => pointyFuel s fuel (if isEscape s i then i + 2 else i + 1)

/-- How many parentheses may be open in a destination. -/
def nestingLimit : Nat := 32

def plainFuel (s : Source) : Nat → Nat → Nat → Option Nat
  | 0, _, _ => none
  | fuel + 1, nesting, i =>
    match s[i]? with
    | none => if nesting = 0 then some i else none
    | some c =>
      if c.toNat ≤ 32 then if nesting = 0 then some i else none
      else if c == '(' then
        if nestingLimit < nesting then none else plainFuel s fuel (nesting + 1) (i + 1)
      else if c == ')' then
        if nesting = 0 then some i else plainFuel s fuel (nesting - 1) (i + 1)
      else plainFuel s fuel nesting (if isEscape s i then i + 2 else i + 1)

/-- The destination at `i` as it is written, and the position behind it. -/
def destination? (s : Source) (i : Nat) : Option (List Char × Nat) :=
  if s.hasAt i '<' then
    (pointyFuel s (s.size - i) (i + 1)).map fun stop => (s.slice (i + 1) stop, stop + 1)
  else
    (plainFuel s (s.size + 1 - i) 0 i).map fun stop => (s.slice i stop, stop)

def isSchemeRest (c : Char) : Bool :=
  c.isAlphanum || c == '.' || c == '-' || c == '+'

def uri? (s : Source) (i : Nat) : Option (List Char × Nat) :=
  let colon := s.skipWhile isSchemeRest i
  let length := colon + 1 - i
  if s[i]?.any Char.isAlpha && s.hasAt colon ':' && 3 ≤ length && length ≤ 33 then
    let stop := s.skipWhile (fun c => !(c.toNat ≤ 32 || c == '<' || c == '>')) (colon + 1)
    if s.hasAt stop '>' then some (s.slice i stop, stop + 1) else none
  else none

def isMailboxChar (c : Char) : Bool :=
  c.isAlphanum || ".!#$%&'*+/=?^_\x60\x7b|\x7d~-".toList.contains c

/-- Labels of at most 63 letters, digits and inner hyphens, separated by dots. -/
def hostFuel (s : Source) : Nat → Nat → Option Nat
  | 0, _ => none
  | fuel + 1, i =>
    let stop := s.skipWhile (fun c => c.isAlphanum || c == '-') i
    if stop = i || 63 < stop - i || s.hasAt i '-' || s.hasAt (stop - 1) '-' then none
    else if s.hasAt stop '.' then hostFuel s fuel (stop + 1)
    else some stop

def email? (s : Source) (i : Nat) : Option (List Char × Nat) := do
  let sign := s.skipWhile isMailboxChar i
  if sign = i || !s.hasAt sign '@' then none
  let stop ← hostFuel s (s.size - i) (sign + 1)
  if s.hasAt stop '>' then some (s.slice i stop, stop + 1) else none

end Folio.Markdown
