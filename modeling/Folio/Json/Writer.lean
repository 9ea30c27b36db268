import Folio.Json.Value
import Folio.Text.Basic

/-!
# Writing JSON

Two layouts: compact, without any blank, and indented by two blanks per level. Only the quotation
mark, the backslash and the control characters below the blank are escaped in strings.
-/

namespace Folio.Json

/-- One character of a string, as it is written between quotation marks. -/
def escapedChar (c : Char) : List Char :=
  match c with
  | '"' => ['\\', '"']
  | '\\' => ['\\', '\\']
  | '\x08' => ['\\', 'b']
  | '\x0c' => ['\\', 'f']
  | '\n' => ['\\', 'n']
  | '\r' => ['\\', 'r']
  | '\t' => ['\\', 't']
  | c =>
    if c.toNat < 32 then
      ['\\', 'u', '0', '0', Text.hexDigit (c.toNat / 16), Text.hexDigit (c.toNat % 16)]
    else [c]

def stringChars (s : String) : List Char :=
  '"' :: s.toList.flatMap escapedChar ++ ['"']

def Number.chars : Number → List Char
  | integer n => (toString n).toList
  | decimal literal => literal.toList

mutual

def chars : Json → List Char
  | null | unrepresentable => ['n', 'u', 'l', 'l']
  | bool true => ['t', 'r', 'u', 'e']
  | bool false => ['f', 'a', 'l', 's', 'e']
  | number n => n.chars
  | string s => stringChars s
  | array [] => ['[', ']']
  | array (v :: vs) => '[' :: v.chars ++ itemChars vs
  | object [] => ['\x7b', '\x7d']
  | object ((k, v) :: fs) => '\x7b' :: stringChars k ++ ':' :: v.chars ++ fieldChars fs

/-- The items after the first one, and the closing bracket. -/
def itemChars : List Json → List Char
  | [] => [']']
  | v :: vs => ',' :: v.chars ++ itemChars vs

def fieldChars : List (String × Json) → List Char
  | [] => ['\x7d']
  | (k, v) :: fs => ',' :: stringChars k ++ ':' :: v.chars ++ fieldChars fs

end

def newline (level : Nat) : List Char :=
  '\n' :: List.replicate (2 * level) ' '

mutual

/-- The indented text of a value that stands at a level of nesting. -/
def indentedChars (level : Nat) : Json → List Char
  | null | unrepresentable => ['n', 'u', 'l', 'l']
  | bool true => ['t', 'r', 'u', 'e']
  | bool false => ['f', 'a', 'l', 's', 'e']
  | number n => n.chars
  | string s => stringChars s
  | array [] => ['[', ']']
  | array (v :: vs) =>
    '[' :: newline (level + 1) ++ v.indentedChars (level + 1) ++ indentedItems level vs
  | object [] => ['\x7b', '\x7d']
  | object ((k, v) :: fs) =>
    '\x7b' :: newline (level + 1) ++ stringChars k ++ ':' :: ' ' ::
      v.indentedChars (level + 1) ++ indentedFields level fs

def indentedItems (level : Nat) : List Json → List Char
  | [] => newline level ++ [']']
  | v :: vs =>
    ',' :: newline (level + 1) ++ v.indentedChars (level + 1) ++ indentedItems level vs

def indentedFields (level : Nat) : List (String × Json) → List Char
  | [] => newline level ++ ['\x7d']
  | (k, v) :: fs =>
    ',' :: newline (level + 1) ++ stringChars k ++ ':' :: ' ' ::
      v.indentedChars (level + 1) ++ indentedFields level fs

end

def compact (v : Json) : String :=
  String.ofList v.chars

def indented (v : Json) : String :=
  String.ofList (v.indentedChars 0)

end Folio.Json
