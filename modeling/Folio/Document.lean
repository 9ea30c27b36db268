/-!
# Documents

A document is a forest of nodes. A node is a container that owns its children, or a leaf that
carries text. Each kind has a name, which is also how trees are labelled when they are written out.
-/

namespace Folio

inductive Node where
  /-- The level is whatever the source asked for; only rendering bounds it. -/
  | heading (level : UInt8) (children : List Node)
  | paragraph (children : List Node)
  | blockquote (children : List Node)
  | list (ordered : Bool) (start : Option UInt64) (children : List Node)
  /-- An item of a task list is checked or not; any other item is neither. -/
  | listItem (checked : Option Bool) (children : List Node)
  /-- The first row of a table is its header. -/
  | table (children : List Node)
  | tableRow (children : List Node)
  | tableCell (children : List Node)
  | strong (children : List Node)
  | emphasis (children : List Node)
  | link (url : String) (title : Option String) (children : List Node)
  | text (value : String)
  | inlineCode (value : String)
  | code (lang : Option String) (value : String)
  | thematicBreak
  | delete (children : List Node)
  | image (url : String) (alt : String) (title : Option String)
  | break
  /-- A block or a span of raw markup. -/
  | html (value : String)
  | math (value : String)
  | inlineMath (value : String)
  | footnoteReference (label : String)
  | footnoteDefinition (label : String) (children : List Node)
  /-- Any other kind of node, known by name only. -/
  | unknown (name : String)
deriving Inhabited, Repr

structure Document where
  children : List Node
deriving Inhabited, Repr

namespace Node

/-- The name of a node's kind; an unknown node goes by its own name. -/
def kind : Node → String
  | heading .. => "heading"
  | paragraph _ => "paragraph"
  | blockquote _ => "blockquote"
  | list .. => "list"
  | listItem .. => "listItem"
  | table _ => "table"
  | tableRow _ => "tableRow"
  | tableCell _ => "tableCell"
  | strong _ => "strong"
  | emphasis _ => "emphasis"
  | link .. => "link"
  | text _ => "text"
  | inlineCode _ => "inlineCode"
  | code .. => "code"
  | thematicBreak => "thematicBreak"
  | delete _ => "delete"
  | image .. => "image"
  | .break => "break"
  | html _ => "html"
  | math _ => "math"
  | inlineMath _ => "inlineMath"
  | footnoteReference _ => "footnoteReference"
  | footnoteDefinition .. => "footnoteDefinition"
  | unknown name => name

def children : Node → List Node
  | heading _ cs | paragraph cs | blockquote cs | list _ _ cs | listItem _ cs | table cs
  | tableRow cs | tableCell cs | strong cs | emphasis cs | link _ _ cs | delete cs
  | footnoteDefinition _ cs => cs
  | _ => []

mutual

/-- The text of a node and of all nodes below it, without markup. -/
def plainText : Node → String
  | text value | inlineCode value => value
  | image _ alt _ => alt
  | heading _ cs | paragraph cs | blockquote cs | list _ _ cs | listItem _ cs | table cs
  | tableRow cs | tableCell cs | strong cs | emphasis cs | link _ _ cs | delete cs
  | footnoteDefinition _ cs => plainTexts cs
  | _ => ""

def plainTexts : List Node → String
  | [] => ""
  | n :: ns => n.plainText ++ plainTexts ns

end

end Node

end Folio
