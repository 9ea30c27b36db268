/-!
# JSON values

A value keeps the fields of an object in the order in which they were written, repetitions
included, so that a reader of records can see both.
-/

namespace Folio

/-- A number is an integer of 64 bits, or else kept as it was written. -/
inductive Json.Number where
  | integer (n : Int)
  | decimal (literal : String)
deriving DecidableEq, Repr

inductive Json where
  | null
  | bool (b : Bool)
  | number (n : Json.Number)
  | string (s : String)
  | array (items : List Json)
  | object (fields : List (String × Json))
  /-- Well-formed text that denotes no value: half a surrogate pair, or a number out of range. -/
  | unrepresentable
deriving Inhabited, Repr

namespace Json

mutual

/-- How many brackets are open at the deepest point of a value. -/
def depth : Json → Nat
  | array items => depthItems items + 1
  | object fields => depthFields fields + 1
  | _ => 0

def depthItems : List Json → Nat
  | [] => 0
  | v :: vs => max v.depth (depthItems vs)

def depthFields : List (String × Json) → Nat
  | [] => 0
  | (_, v) :: fs => max v.depth (depthFields fs)

end

mutual

def isRepresentable : Json → Bool
  | array items => itemsRepresentable items
  | object fields => fieldsRepresentable fields
  | unrepresentable => false
  | _ => true

def itemsRepresentable : List Json → Bool
  | [] => true
  | v :: vs => v.isRepresentable && itemsRepresentable vs

def fieldsRepresentable : List (String × Json) → Bool
  | [] => true
  | (_, v) :: fs => v.isRepresentable && fieldsRepresentable fs

end

/-- Fewer brackets than this may be open at any point of a text that is read as a value. -/
def nestingLimit : Nat := 128

/-- A value that can be taken over whole, when `outer` brackets are open around it. -/
def isAdmissible (outer : Nat) (v : Json) : Bool :=
  v.isRepresentable && v.depth + outer < nestingLimit

/-- Puts a field into a list sorted by name; a field of the same name is replaced. -/
def insertField (name : String) (v : α) : List (String × α) → List (String × α)
  | [] => [(name, v)]
  | (n, w) :: rest =>
    if name = n then (name, v) :: rest
    else if name < n then (name, v) :: (n, w) :: rest
    else (n, w) :: insertField name v rest

mutual

/-- The value with the fields of all its objects sorted by name, the last of each name kept. -/
def sorted : Json → Json
  | array items => array (sortedItems items)
  | object fields => object (sortedFields fields [])
  | v => v

def sortedItems : List Json → List Json
  | [] => []
  | v :: vs => v.sorted :: sortedItems vs

def sortedFields : List (String × Json) → List (String × Json) → List (String × Json)
  | [], acc => acc
  | (n, v) :: fs, acc => sortedFields fs (insertField n v.sorted acc)

end

end Json

end Folio
