import Folio.Document
import Folio.Json.Reader
import Folio.Json.Record
import Folio.Json.Writer

/-!
# Documents as JSON

A node is an object whose field `kind` names its kind, followed by the fields of that kind; an
optional field that is absent is left out. A node is also read from an array that begins with the
name of its kind, and below the top level a kind may be given by its number.
-/

namespace Folio

namespace Node

def tagged (kind : String) (fields : List (String × Json)) : Json :=
  .object (("kind", .string kind) :: fields)

def optionalField (name : String) (toJson : α → Json) (a : Option α) : List (String × Json) :=
  (a.map fun a => (name, toJson a)).toList

def childrenField (items : List Json) : String × Json :=
  ("children", .array items)

mutual

def toJson : Node → Json
  | heading level cs =>
    tagged "heading" [("level", .number (.integer level.toNat)), childrenField (listToJson cs)]
  | paragraph cs => tagged "paragraph" [childrenField (listToJson cs)]
  | blockquote cs => tagged "blockquote" [childrenField (listToJson cs)]
  | list ordered start cs =>
    tagged "list" (("ordered", .bool ordered) ::
      optionalField "start" (fun n => .number (.integer n.toNat)) start ++
        [childrenField (listToJson cs)])
  | listItem checked cs =>
    tagged "listItem" (optionalField "checked" .bool checked ++ [childrenField (listToJson cs)])
  | table cs => tagged "table" [childrenField (listToJson cs)]
  | tableRow cs => tagged "tableRow" [childrenField (listToJson cs)]
  | tableCell cs => tagged "tableCell" [childrenField (listToJson cs)]
  | strong cs => tagged "strong" [childrenField (listToJson cs)]
  | emphasis cs => tagged "emphasis" [childrenField (listToJson cs)]
  | link url title cs =>
    tagged "link" (("url", .string url) :: optionalField "title" .string title ++
      [childrenField (listToJson cs)])
  | text value => tagged "text" [("value", .string value)]
  | inlineCode value => tagged "inlineCode" [("value", .string value)]
  | code lang value =>
    tagged "code" (optionalField "lang" .string lang ++ [("value", .string value)])
  | thematicBreak => tagged "thematicBreak" []
  | delete cs => tagged "delete" [childrenField (listToJson cs)]
  | image url alt title =>
    tagged "image" (("url", .string url) :: ("alt", .string alt) ::
      optionalField "title" .string title)
  | .break => tagged "break" []
  | html value => tagged "html" [("value", .string value)]
  | math value => tagged "math" [("value", .string value)]
  | inlineMath value => tagged "inlineMath" [("value", .string value)]
  | footnoteReference label => tagged "footnoteReference" [("label", .string label)]
  | footnoteDefinition label cs =>
    tagged "footnoteDefinition" [("label", .string label), childrenField (listToJson cs)]
  | unknown name => tagged "unknown" [("name", .string name)]

def listToJson : List Node → List Json
  | [] => []
  | n :: ns => n.toJson :: listToJson ns

end

/-- The names of the kinds; a kind's number is its place in this list. -/
def kindNames : List String :=
  ["heading", "paragraph", "blockquote", "list", "listItem", "table", "tableRow", "tableCell",
   "strong", "emphasis", "link", "text", "inlineCode", "code", "thematicBreak", "delete", "image",
   "break", "html", "math", "inlineMath", "footnoteReference", "footnoteDefinition", "unknown"]

/-- The kind that a value names, or numbers where `numbered` allows it. -/
def kindOf? (numbered : Bool) : Json → Option String
  | .string s => if s ∈ kindNames then some s else none
  | .number (.integer n) => if numbered && 0 ≤ n then kindNames[n.toNat]? else none
  | _ => none

def fieldNames : String → List String
  | "heading" => ["level", "children"]
  | "list" => ["ordered", "start", "children"]
  | "listItem" => ["checked", "children"]
  | "link" => ["url", "title", "children"]
  | "text" | "inlineCode" | "html" | "math" | "inlineMath" => ["value"]
  | "code" => ["lang", "value"]
  | "thematicBreak" | "break" => []
  | "image" => ["url", "alt", "title"]
  | "footnoteReference" => ["label"]
  | "footnoteDefinition" => ["label", "children"]
  | "unknown" => ["name"]
  | _ => ["children"]

def ofFields? (readChildren : Json → Option (List Node)) (kind : String)
    (fields : List (Option Json)) : Option Node :=
  match kind, fields with
  | "heading", [some level, some cs] => return .heading (← level.uint8?) (← readChildren cs)
  | "paragraph", [some cs] => return .paragraph (← readChildren cs)
  | "blockquote", [some cs] => return .blockquote (← readChildren cs)
  | "list", [some ordered, start, some cs] =>
    return .list (← ordered.bool?) (← Json.optional? Json.uint64? start) (← readChildren cs)
  | "listItem", [checked, some cs] =>
    return .listItem (← Json.optional? Json.bool? checked) (← readChildren cs)
  | "table", [some cs] => return .table (← readChildren cs)
  | "tableRow", [some cs] => return .tableRow (← readChildren cs)
  | "tableCell", [some cs] => return .tableCell (← readChildren cs)
  | "strong", [some cs] => return .strong (← readChildren cs)
  | "emphasis", [some cs] => return .emphasis (← readChildren cs)
  | "link", [some url, title, some cs] =>
    return .link (← url.string?) (← Json.optional? Json.string? title) (← readChildren cs)
  | "text", [some value] => return .text (← value.string?)
  | "inlineCode", [some value] => return .inlineCode (← value.string?)
  | "code", [lang, some value] =>
    return .code (← Json.optional? Json.string? lang) (← value.string?)
  | "thematicBreak", [] => some .thematicBreak
  | "delete", [some cs] => return .delete (← readChildren cs)
  | "image", [some url, some alt, title] =>
    return .image (← url.string?) (← alt.string?) (← Json.optional? Json.string? title)
  | "break", [] => some .break
  | "html", [some value] => return .html (← value.string?)
  | "math", [some value] => return .math (← value.string?)
  | "inlineMath", [some value] => return .inlineMath (← value.string?)
  | "footnoteReference", [some label] => return .footnoteReference (← label.string?)
  | "footnoteDefinition", [some label, some cs] =>
    return .footnoteDefinition (← label.string?) (← readChildren cs)
  | "unknown", [some name] => return .unknown (← name.string?)
  | _, _ => none

/-- The node that a value describes, with at most `levels` levels of nodes. -/
def ofJson? (levels : Nat) (numbered : Bool) (v : Json) : Option Node :=
  match levels with
  | 0 => none
  | levels + 1 => do
    let (tag, rest) ← match v with
      | .object fields => (← Json.field? "kind" fields).map (·, v)
      | .array (tag :: items) => some (tag, Json.array items)
      | _ => none
    let kind ← kindOf? numbered tag
    let fields ← Json.record? (fieldNames kind) rest
    ofFields? (fun
      | .array items => items.mapM (ofJson? levels true)
      | _ => none) kind fields

def read? (s : String) : Option Node := do
  let v ← Json.read? s
  if v.isAdmissible 0 then ofJson? Json.nestingLimit false v else none

end Node

namespace Document

def toJson (d : Document) : Json :=
  .object [("children", .array (Node.listToJson d.children))]

def ofJson? (v : Json) : Option Document := do
  match ← Json.record? ["children"] v with
  | [some (.array items)] =>
    if (Json.array items).isAdmissible 1 then
      return ⟨← items.mapM (Node.ofJson? Json.nestingLimit false)⟩
    else none
  | _ => none

def read? (s : String) : Option Document :=
  Json.read? s >>= ofJson?

end Document

end Folio
