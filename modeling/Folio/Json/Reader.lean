import Folio.Json.Value
import Folio.Text.Basic

/-!
# Reading JSON

Reading is strict: no trailing commas, no leading zeros, no raw control characters in strings, and
nothing but blanks after the value. Nesting is not limited here; whoever takes a value over limits
it.
-/

namespace Folio.Json

def isBlank (c : Char) : Bool :=
  c == ' ' || c == '\n' || c == '\t' || c == '\r'

def skipBlanks (cs : List Char) : List Char :=
  cs.dropWhile isBlank

/-- A piece of a string: a character, or half of a surrogate pair. -/
inductive Piece where
  | char (c : Char)
  | lead (n : Nat)
  | trail (n : Nat)

def Piece.ofUnit (n : Nat) : Piece :=
  if 0xd800 ≤ n && n < 0xdc00 then lead (n - 0xd800)
  else if 0xdc00 ≤ n && n < 0xe000 then trail (n - 0xdc00)
  else char (Char.ofNat n)

def escapeMeaning? : Char → Option Char
  | '"' => some '"'
  | '\\' => some '\\'
  | '/' => some '/'
  | 'b' => some '\x08'
  | 'f' => some '\x0c'
  | 'n' => some '\n'
  | 'r' => some '\r'
  | 't' => some '\t'
  | _ => none

/-- The pieces of a string whose opening quotation mark has been read, and what follows it. -/
def readPieces : List Char → Option (List Piece × List Char)
  | [] => none
  | '"' :: rest => some ([], rest)
  | '\\' :: 'u' :: a :: b :: c :: d :: rest => do
    let n := (((← Text.hexValue? a) * 16 + (← Text.hexValue? b)) * 16 + (← Text.hexValue? c)) * 16
      + (← Text.hexValue? d)
    let (ps, rest) ← readPieces rest
    some (Piece.ofUnit n :: ps, rest)
  | '\\' :: e :: rest => do
    let c ← escapeMeaning? e
    let (ps, rest) ← readPieces rest
    some (Piece.char c :: ps, rest)
  | c :: rest => do
    if c.toNat < 32 then none
    let (ps, rest) ← readPieces rest
    some (Piece.char c :: ps, rest)

/-- Joins the halves of surrogate pairs; half a pair that stands alone denotes nothing. -/
def joinPieces : List Piece → Option (List Char)
  | [] => some []
  | .char c :: ps => (joinPieces ps).map (c :: ·)
  | .lead n :: .trail m :: ps =>
    (joinPieces ps).map (Char.ofNat (0x10000 + n * 0x400 + m) :: ·)
  | _ => none

/-- A string after its opening quotation mark, `none` inside when it denotes nothing. -/
def readString (cs : List Char) : Option (Option String × List Char) := do
  let (ps, rest) ← readPieces cs
  some ((joinPieces ps).map String.ofList, rest)

def digitsValue (ds : List Char) : Nat :=
  ds.foldl (fun n d => n * 10 + (d.toNat - 48)) 0

def readDigits (cs : List Char) : Option (List Char × List Char) :=
  match cs.span (·.isDigit) with
  | ([], _) => none
  | (ds, rest) => some (ds, rest)

/-- The digits of a whole part: a zero alone, or digits that begin with another one. -/
def readWhole (cs : List Char) : Option (List Char × List Char) := do
  let (ds, rest) ← readDigits cs
  if ds.head? = some '0' && ds.length > 1 then none
  some (ds, rest)

def readFraction : List Char → Option (List Char × List Char)
  | '.' :: rest => readDigits rest
  | rest => some ([], rest)

def readExponent : List Char → Option (Option Int × List Char)
  | 'e' :: rest | 'E' :: rest => do
    let (sign, rest) := match rest with
      | '+' :: r => ((1 : Int), r)
      | '-' :: r => (-1, r)
      | r => (1, r)
    let (ds, rest) ← readDigits rest
    some (some (sign * digitsValue ds), rest)
  | rest => some (none, rest)

/-- Whether `m · 10 ^ e` rounds to a finite number of 64 bits. -/
def isFinite (m : Nat) (e : Int) : Bool :=
  let bound := Nat.pow 2 1024 - Nat.pow 2 970
  let magnitude := (Nat.toDigits 10 m).length + e
  if m = 0 || magnitude < 300 then true
  else if magnitude > 320 then false
  else if 0 ≤ e then m * Nat.pow 10 e.toNat < bound
  else m < bound * Nat.pow 10 (-e).toNat

def readNumber (cs : List Char) : Option (Json × List Char) := do
  let (negative, cs) := match cs with
    | '-' :: r => (true, r)
    | r => (false, r)
  let (whole, cs) ← readWhole cs
  let (fraction, cs) ← readFraction cs
  let (exponent, cs) ← readExponent cs
  let n := digitsValue whole
  let isInteger := fraction.isEmpty && exponent.isNone &&
    (if negative then 0 < n && n ≤ Nat.pow 2 63 else n < Nat.pow 2 64)
  if isInteger then
    some (number (.integer (if negative then -n else n)), cs)
  else
    let e := exponent.getD 0
    if isFinite (digitsValue (whole ++ fraction)) (e - fraction.length) then
      let sign := if negative then "-" else ""
      let point := if fraction.isEmpty then "" else "." ++ String.ofList fraction
      let power := match exponent with
        | some e => "e" ++ toString e
        | none => ""
      some (number (.decimal (sign ++ String.ofList whole ++ point ++ power)), cs)
    else some (unrepresentable, cs)

mutual

def readValue : Nat → List Char → Option (Json × List Char)
  | 0, _ => none
  | fuel + 1, cs =>
    match skipBlanks cs with
    | 'n' :: 'u' :: 'l' :: 'l' :: rest => some (null, rest)
    | 't' :: 'r' :: 'u' :: 'e' :: rest => some (bool true, rest)
    | 'f' :: 'a' :: 'l' :: 's' :: 'e' :: rest => some (bool false, rest)
    | '"' :: rest => do
      let (s, rest) ← readString rest
      some (s.elim unrepresentable string, rest)
    | '[' :: rest =>
      match skipBlanks rest with
      | ']' :: rest => some (array [], rest)
      | rest => (readItems fuel rest).map fun (vs, rest) => (array vs, rest)
    | '\x7b' :: rest =>
      match skipBlanks rest with
      | '\x7d' :: rest => some (object [], rest)
      | rest => (readFields fuel rest).map fun (fs, rest) => (fs.elim unrepresentable object, rest)
    | rest => readNumber rest

def readItems : Nat → List Char → Option (List Json × List Char)
  | 0, _ => none
  | fuel + 1, cs => do
    let (v, rest) ← readValue fuel cs
    match skipBlanks rest with
    | ',' :: rest =>
      let (vs, rest) ← readItems fuel rest
      some (v :: vs, rest)
    | ']' :: rest => some ([v], rest)
    | _ => none

/-- Fields up to the closing brace, `none` inside when a name denotes nothing. -/
def readFields : Nat → List Char → Option (Option (List (String × Json)) × List Char)
  | 0, _ => none
  | fuel + 1, cs => do
    let '"' :: rest := skipBlanks cs | none
    let (name, rest) ← readString rest
    let ':' :: rest := skipBlanks rest | none
    let (v, rest) ← readValue fuel rest
    match skipBlanks rest with
    | ',' :: rest =>
      let (fs, rest) ← readFields fuel rest
      some (name.bind fun name => fs.map ((name, v) :: ·), rest)
    | '\x7d' :: rest => some (name.map fun name => [(name, v)], rest)
    | _ => none

end

def readChars? (cs : List Char) : Option Json := do
  let (v, rest) ← readValue (2 * cs.length + 2) cs
  if (skipBlanks rest).isEmpty then some v else none

def read? (s : String) : Option Json :=
  readChars? s.toList

end Folio.Json
