import Folio.Markdown.Cursor
import Folio.Markdown.Inline
import Folio.Markdown.Token

/-!
# Code and formulas

Between backticks and between dollar signs text is taken as it is, without the prefixes of its
lines.
-/

namespace Folio.Markdown

/-- The raw text from `i` on. Each character of a line end is replaced, and the prefixes behind it
are passed over. In a table an escaped pipe is a pipe. -/
def rawTextFuel (s : Source) (prefixes : List LinePrefix) (inTable : Bool)
    (lineEnd : Char → Char) : Nat → Nat → List Char
  | 0, _ => []
  | fuel + 1, i =>
    match s[i]? with
    | none => []
    | some c =>
      if c == '\n' || c == '\r' then
        lineEnd c :: rawTextFuel s prefixes inTable lineEnd fuel (afterPrefixes s prefixes (i + 1))
      else if inTable && c == '\\' && s.hasAt (i + 1) '|' then
        '|' :: rawTextFuel s prefixes inTable lineEnd fuel (i + 2)
      else c :: rawTextFuel s prefixes inTable lineEnd fuel (i + 1)

def rawText (s : Source) (prefixes : List LinePrefix) (inTable : Bool) (lineEnd : Char → Char)
    (start stop : Nat) : List Char :=
  let s := s.extract start stop
  rawTextFuel s prefixes inTable lineEnd s.size 0

/-- Drops one space at each end of a text that has one at both, unless it is all spaces. -/
def stripOneSpace (cs : List Char) : List Char :=
  if cs.head? == some ' ' && cs.getLast? == some ' ' && !cs.all (· == ' ') then
    (cs.drop 1).dropLast
  else cs

def codeText (s : Source) (prefixes : List LinePrefix) (inTable : Bool) (start stop : Nat) :
    List Char :=
  stripOneSpace (rawText s prefixes inTable (fun _ => ' ') start stop)

/-- The first run of `n` backticks, with the tokens behind it. -/
def closingBackticks? (n : Nat) : List Token → Option (Token × List Token)
  | [] => none
  | t :: ts =>
    match t.kind with
    | .backticks _ => if t.stop - t.start = n then some (t, ts) else closingBackticks? n ts
    | _ => closingBackticks? n ts

def isDoubled (t : Token) (rest : List Token) : Bool :=
  match rest with
  | ⟨.dollar .., start, _⟩ :: _ => t.stop == start
  | _ => false

/-- The first dollar sign of a group of braces, whether it can close, and the tokens behind it. -/
def closingDollar? (group : Nat) : List Token → Option (Token × Bool × List Token)
  | [] => none
  | t :: ts =>
    match t.kind with
    | .dollar _ canClose g =>
      if g = group then some (t, canClose, ts) else closingDollar? group ts
    | _ => closingDollar? group ts

/-- The formula that the dollar sign `t` opens, and the tokens behind it. Two dollar signs open a
formula that is displayed. -/
def math? (s : Source) (prefixes : List LinePrefix) (inTable : Bool) (group : Nat) (t : Token)
    (rest : List Token) : Option (Inline × List Token) :=
  let value := fun start stop => rawText s prefixes inTable id start stop
  if isDoubled t rest then do
    let (closer, _, after) ← closingDollar? group (rest.drop 1)
    if isDoubled closer after then
      some (.math true (value (t.stop + 1) closer.start), after.drop 1)
    else none
  else do
    let (closer, canClose, after) ← closingDollar? group rest
    if canClose && t.stop != closer.start then
      some (.math false (value t.stop closer.start), after)
    else none

end Folio.Markdown
