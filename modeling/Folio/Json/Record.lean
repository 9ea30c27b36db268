import Folio.Json.Value

/-!
# Records

A record is written as an object, in which unknown fields are passed over and no known field may
occur twice, or as an array of its fields in their order.
-/

namespace Folio.Json

def valuesOf (name : String) (fields : List (String × Json)) : List Json :=
  fields.filterMap fun (n, v) => if n = name then some v else none

/-- The one field with the given name: `some none` when it is absent, `none` when it occurs
twice. -/
def field? (name : String) (fields : List (String × Json)) : Option (Option Json) :=
  match valuesOf name fields with
  | [] => some none
  | [v] => some (some v)
  | _ => none

/-- The fields of a record in the order of `names`, each with whether it may be missing from an
array. -/
def record? (names : List String) : Json → Option (List (Option Json))
  | object fields => names.mapM (field? · fields)
  | array items =>
    if items.length ≤ names.length then
      some (items.map some ++ List.replicate (names.length - items.length) none)
    else none
  | _ => none

def isArray : Json → Bool
  | array _ => true
  | _ => false

def string? : Json → Option String
  | string s => some s
  | _ => none

def bool? : Json → Option Bool
  | bool b => some b
  | _ => none

def uint8? : Json → Option UInt8
  | number (.integer n) => if 0 ≤ n ∧ n < 256 then some (UInt8.ofNat n.toNat) else none
  | _ => none

def uint64? : Json → Option UInt64
  | number (.integer n) => if 0 ≤ n ∧ n.toNat < UInt64.size then some (UInt64.ofNat n.toNat) else none
  | _ => none

/-- An optional value: absent and `null` both mean that there is none. -/
def optional? (read : Json → Option α) : Option Json → Option (Option α)
  | none | some null => some none
  | some v => (read v).map some

end Folio.Json
