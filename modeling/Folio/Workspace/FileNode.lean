import Folio.Json.Reader
import Folio.Json.Record
import Folio.Json.Writer

/-!
# File trees

The files of a workspace form a forest of files and folders. A node is written as an object with
its identifier, its name, its kind, and its content or its children.
-/

namespace Folio

inductive FileNode where
  | file (id name content : String)
  | folder (id name : String) (children : List FileNode)
deriving Inhabited, Repr

namespace FileNode

def name : FileNode → String
  | file _ name _ | folder _ name _ => name

def kind : FileNode → String
  | file .. => "file"
  | folder .. => "folder"

mutual

def count : FileNode → Nat
  | file .. => 1
  | folder _ _ children => countAll children + 1

def countAll : List FileNode → Nat
  | [] => 0
  | n :: ns => n.count + countAll ns

end

mutual

def toJson : FileNode → Json
  | file id name content =>
    .object [("id", .string id), ("name", .string name), ("kind", .string "file"),
      ("content", .string content)]
  | folder id name children =>
    .object [("id", .string id), ("name", .string name), ("kind", .string "folder"),
      ("children", .array (listToJson children))]

def listToJson : List FileNode → List Json
  | [] => []
  | n :: ns => n.toJson :: listToJson ns

end

def forestToJson (nodes : List FileNode) : Json :=
  .array (listToJson nodes)

/-- Whether a kind, given by its name or its number, is that of folders. -/
def isFolder? : Json → Option Bool
  | .string "file" | .number (.integer 0) => some false
  | .string "folder" | .number (.integer 1) => some true
  | _ => none

/-- The node that a value describes, with at most `levels` levels of nodes. A file without content
is empty, a folder without children too. -/
def ofJson? (levels : Nat) (v : Json) : Option FileNode :=
  match levels, v with
  | levels + 1, .object fields => do
    let id ← (← Json.field? "id" fields) >>= Json.string?
    let name ← (← Json.field? "name" fields) >>= Json.string?
    if ← (← Json.field? "kind" fields) >>= isFolder? then
      match ← Json.field? "children" fields with
      | none => some (.folder id name [])
      | some (.array items) => return .folder id name (← items.mapM (ofJson? levels))
      | some _ => none
    else
      match ← Json.field? "content" fields with
      | none => some (.file id name "")
      | some content => return .file id name (← content.string?)
  | _, _ => none

def forestOfJson? (v : Json) : Option (List FileNode) :=
  match v with
  | .array items =>
    if v.isAdmissible 0 then items.mapM (ofJson? Json.nestingLimit) else none
  | _ => none

def readForest? (s : String) : Option (List FileNode) :=
  Json.read? s >>= forestOfJson?

end FileNode

end Folio
