import Folio.Literal.Authority

/-!
# Link literals

Finds URLs, domains and e-mail addresses in running text. A colon, a dot or an at sign triggers the
search for a literal around it; after a literal the search starts anew behind it.
-/

namespace Folio.Literal

inductive LiteralKind where
  | url
  | email
deriving DecidableEq, Repr

structure Found where
  start : Nat
  stop : Nat
  kind : LiteralKind
deriving DecidableEq, Repr

def isQuote (c : Char) : Bool :=
  c == '\'' || c == '"'

/-- How far back a scheme or a domain reaches, and the quotation mark before it. -/
structure Reach where
  length : Nat
  quote : Option Char

/-- The scheme that ends where the given reversed text begins. `first` and `digit` are the lengths
up to the letter and the digit found last. -/
def schemeReach (first digit : Option Nat) (n : Nat) : List Char → Option Reach
  | c :: cs =>
    if c.isAlpha then schemeReach (some (n + 1)) digit (n + 1) cs
    else if c.isDigit then schemeReach first (some (n + 1)) (n + 1) cs
    else if c == '+' || c == '-' || c == '.' then schemeReach first digit (n + 1) cs
    else if c == '@' then none
    else settle (if isQuote c then some c else none)
  | [] => settle none
where
  settle (quote : Option Char) : Option Reach :=
    match first with
    | some f => if digit = some (f + 1) then none else some ⟨f, quote⟩
    | none => none

/-- The first label of a domain, which ends where the given reversed text begins. -/
def domainReach (before : List Char) : Option Reach :=
  let label := before.takeWhile fun c => isLetter c || c.isDigit || c == '-'
  let stopper := (before.drop label.length).head?
  match label with
  | [] => none
  | '-' :: _ => none
  | _ =>
    if stopper = some '/' || stopper = some '@' || stopper = some '.' then none
    else if label.getLast? = some '-' then none
    else some ⟨label.length, stopper.filter isQuote⟩

/-- The brackets that are open and the quotation marks passed in the rest of a URL. -/
structure TailState where
  round : Nat
  square : Nat
  curly : Nat
  singleQuote : Bool
  previousCanEnd : Bool
  stop : Nat

def endsUrl (c : Char) : Bool :=
  c.toNat < 32 || (127 ≤ c.toNat && c.toNat ≤ 159) ||
    c == ' ' || c == '|' || c == '"' || c == '<' || c == '>' || c == '\x60'

def isTrailing (c : Char) : Bool :=
  c == '?' || c == '!' || c == '.' || c == ',' || c == ':' || c == ';' || c == '*'

/-- The state after one more character and whether a URL may end behind it, `none` when the URL
ends before it. -/
def TailState.step (quote : Option Char) (s : TailState) (c : Char) : Option (TailState × Bool) :=
  if endsUrl c then none
  else if isTrailing c then some (s, false)
  else match c with
    | '/' => some (s, s.previousCanEnd)
    | '(' => some ({ s with round := s.round + 1 }, false)
    | '[' => some ({ s with square := s.square + 1 }, false)
    | '\x7b' => some ({ s with curly := s.curly + 1 }, false)
    | ')' => if s.round = 0 then none else some ({ s with round := s.round - 1 }, true)
    | ']' => if s.square = 0 then none else some ({ s with square := s.square - 1 }, true)
    | '\x7d' => if s.curly = 0 then none else some ({ s with curly := s.curly - 1 }, true)
    | c =>
      if quote = some c then none
      else if c == '\'' then some ({ s with singleQuote := !s.singleQuote }, s.singleQuote)
      else some (s, true)

def scanTail (quote : Option Char) (s : TailState) (i : Nat) : List Char → Nat
  | [] => s.stop
  | c :: cs =>
    match s.step quote c with
    | none => s.stop
    | some (s, canEnd) =>
      let stop := if canEnd then i + 1 else s.stop
      scanTail quote { s with previousCanEnd := canEnd, stop := stop } (i + 1) cs

/-- The length of the path at the start of a text, with the query and the fragment behind it. A
URL without a slash behind its host ends there. -/
def tailLength (quote : Option Char) (cs : List Char) : Nat :=
  match cs with
  | '/' :: _ => scanTail quote ⟨0, 0, 0, false, true, 0⟩ 0 cs
  | _ => 0

def hostSchemes : List String :=
  ["https", "http", "file", "ftp", "ssh"]

/-- The URL around a colon: how far it reaches back from it and on behind it. -/
def urlAround (before after : List Char) : Option (Nat × Nat) :=
  match after with
  | '/' :: '/' :: rest =>
    if rest.isEmpty then none
    else do
      let reach ← schemeReach none none 0 before
      let scheme := String.ofList (before.take reach.length).reverse
      let (host, _) ← authorityEnd ⟨true, hostSchemes.contains scheme, true⟩ rest
      let tail := tailLength reach.quote (rest.drop host)
      if host = 0 && tail = 0 then none
      some (reach.length, 2 + host + tail)
  | _ => none

def domainAround (before after : List Char) : Option (Nat × Nat) := do
  let reach ← domainReach before
  let cs := (before.take reach.length).reverse ++ '.' :: after
  let (host, dot) ← authorityEnd ⟨false, true, true⟩ cs
  if dot.isNone then none
  let tail := tailLength reach.quote (cs.drop host)
  some (reach.length, host + tail - reach.length - 1)

def isLocal (c : Char) : Bool :=
  isLetter c || c.isDigit || "!#$%&'*+-/=?^_\x60\x7b|\x7d~".toList.contains c

/-- The length of the words, separated by single dots, that end where the reversed text begins. -/
def localReach (first : Nat) (boundary : Bool) (n : Nat) : List Char → Option Nat
  | c :: cs =>
    if isLocal c then localReach (n + 1) false (n + 1) cs
    else if c == '.' then
      if boundary then settle else localReach first true (n + 1) cs
    else if c == '@' then none
    else settle
  | [] => settle
where
  settle : Option Nat := if first = 0 then none else some first

def emailAround (before after : List Char) : Option (Nat × Nat) := do
  let start ← localReach 0 true 0 before
  let (host, dot) ← authorityEnd ⟨false, true, false⟩ after
  if dot.isNone then none
  some (start, host)

def around (before : List Char) (c : Char) (after : List Char) :
    Option (Nat × Nat × LiteralKind) :=
  match c with
  | ':' => (urlAround before after).map fun (b, a) => (b, a, .url)
  | '.' => (domainAround before after).map fun (b, a) => (b, a, .url)
  | '@' => (emailAround before after).map fun (b, a) => (b, a, .email)
  | _ => none

/-- The literals in the rest of a text. `before` is what lies, reversed, between the last literal
and position `i`; `skip` characters still belong to that literal. -/
def findFrom (before : List Char) (skip i : Nat) : List Char → List Found
  | [] => []
  | c :: cs =>
    match skip with
    | skip + 1 => findFrom [] skip (i + 1) cs
    | 0 =>
      match around before c cs with
      | some (back, ahead, kind) => ⟨i - back, i + 1 + ahead, kind⟩ :: findFrom [] ahead (i + 1) cs
      | none => findFrom (c :: before) 0 (i + 1) cs

def find (cs : List Char) : List Found :=
  findFrom [] 0 0 cs

end Folio.Literal
