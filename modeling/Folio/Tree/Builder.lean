import Folio.Event
import Folio.ParseError
import Folio.Text.Utf8
import Folio.Tree.DeepHeading
import Folio.Tree.LinkLiteral

/-!
# From events to trees

The builder keeps the containers that are open, innermost first, each with the nodes gathered in it
so far. Closing a container turns it into one node of the container around it.
-/

namespace Folio.Tree

structure Settings where
  source : List Char
  deepHeadings : Bool
  linkLiterals : Bool

structure Frame where
  tag : Tag
  offset : Nat
  /-- The nodes in the container, the latest one first. -/
  nodes : List Node
  /-- The content of a block that is taken literally. -/
  literal : String
  /-- The state of the box, if this is an item and a box was seen. -/
  checked : Option Bool

/-- The open containers, innermost first, and the finished top-level nodes, the latest first. -/
structure Builder where
  frames : List Frame
  done : List Node

namespace Frame

def new (tag : Tag) (offset : Nat) : Frame :=
  ⟨tag, offset, [], "", none⟩

/-- Code and blocks of markup take their content as it is. -/
def isLiteral (f : Frame) : Bool :=
  match f.tag with
  | .codeBlock _ | .htmlBlock => true
  | _ => false

def isItem (f : Frame) : Bool :=
  match f.tag with
  | .item => true
  | _ => false

def isLink (f : Frame) : Bool :=
  match f.tag with
  | .link .. => true
  | _ => false

end Frame

def containerName : Tag → String
  | .heading _ => "heading"
  | .paragraph => "paragraph"
  | .blockQuote => "blockquote"
  | .list _ => "list"
  | .item => "listItem"
  | .table => "table"
  | .tableHead | .tableRow => "tableRow"
  | .tableCell => "tableCell"
  | .strong => "strong"
  | .emphasis => "emphasis"
  | .strikethrough => "delete"
  | .link .. => "link"
  | .image .. => "image"
  | .codeBlock _ => "code"
  | .htmlBlock => "html"
  | .footnoteDefinition _ => "footnoteDefinition"
  | .metadata | .definitionList | .definitionTitle | .definition => "unsupported"

def nonEmpty? (s : String) : Option String :=
  if s.isEmpty then none else some s

def language? (info : Option String) : Option String :=
  info.bind fun info => (Text.firstWord? info.toList).map String.ofList

def linkTarget (form : LinkForm) (url : String) : String :=
  if form = .email ∧ ¬ "mailto:".toList.isPrefixOf url.toList then "mailto:" ++ url else url

/-- A block of code does not include the line break at its end. -/
def codeValue (literal : String) : String :=
  match literal.toList.getLast? with
  | some '\n' => String.ofList literal.toList.dropLast
  | _ => literal

def htmlValue (literal : String) : String :=
  String.ofList (Text.dropEndWhile (· == '\n') literal.toList)

def paragraphNode (settings : Settings) (offset : Nat) (children : List Node) : Node :=
  if settings.deepHeadings &&
      opensDeep ((Text.dropBytes? offset settings.source).getD []) then
    liftHeading children
  else .paragraph children

def containerNode (settings : Settings) (f : Frame) (children : List Node) : Node :=
  match f.tag with
  | .heading level => .heading level children
  | .paragraph => paragraphNode settings f.offset children
  | .blockQuote => .blockquote children
  | .list start => .list start.isSome start children
  | .item => .listItem f.checked children
  | .table => .table children
  | .tableHead | .tableRow => .tableRow children
  | .tableCell => .tableCell children
  | .strong => .strong children
  | .emphasis => .emphasis children
  | .strikethrough => .delete children
  | .link form url title => .link (linkTarget form url) (nonEmpty? title) children
  | .image _ url title => .image url (Node.plainTexts children) (nonEmpty? title)
  | .codeBlock info => .code (language? info) (codeValue f.literal)
  | .htmlBlock => .html (htmlValue f.literal)
  | .footnoteDefinition label => .footnoteDefinition label children
  | .metadata | .definitionList | .definitionTitle | .definition => .unknown "unsupported"

/-- The node for a container that is closed. Links in its text are found unless it is a link. -/
def Frame.close (settings : Settings) (f : Frame) : Node :=
  let children := f.nodes.reverse
  containerNode settings f
    (if settings.linkLiterals && !f.isLink then Tree.linkLiterals Literal.find children
      else children)

/-- Adds text behind siblings, the latest of which comes first: text next to text is one node. -/
def addText (text : String) : List Node → List Node
  | .text value :: ns => .text (value ++ text) :: ns
  | ns => .text text :: ns

/-- Ticks the innermost item. -/
def markItem (checked : Bool) : List Frame → List Frame
  | [] => []
  | f :: fs => if f.isItem then { f with checked := some checked } :: fs else f :: markItem checked fs

namespace Builder

def empty : Builder := ⟨[], []⟩

def mapNodes (g : List Node → List Node) (b : Builder) : Builder :=
  match b.frames with
  | [] => { b with done := g b.done }
  | f :: fs => { b with frames := { f with nodes := g f.nodes } :: fs }

def addNode (n : Node) : Builder → Builder :=
  mapNodes (n :: ·)

/-- Hands content to the innermost container if that is a literal one. -/
def addLiteral (value : String) (otherwise : Builder → Builder) (b : Builder) : Builder :=
  match b.frames with
  | f :: fs =>
    if f.isLiteral then { b with frames := { f with literal := f.literal ++ value } :: fs }
    else otherwise b
  | [] => otherwise b

def push (settings : Settings) (b : Builder) : Event → Except ParseError Builder
  | .start tag offset => .ok { b with frames := Frame.new tag offset :: b.frames }
  | .stop =>
    match b.frames with
    | [] => .error .nothingOpen
    | f :: fs => .ok (addNode (f.close settings) { b with frames := fs })
  | .text value => .ok (addLiteral value (mapNodes (addText value)) b)
  | .code value => .ok (addNode (.inlineCode value) b)
  | .inlineMath value => .ok (addNode (.inlineMath value) b)
  | .displayMath value => .ok (addNode (.math value) b)
  | .html value => .ok (addLiteral value (addNode (.html value)) b)
  | .inlineHtml value => .ok (addNode (.html value) b)
  | .footnoteReference label => .ok (addNode (.footnoteReference label) b)
  | .softBreak => .ok (mapNodes (addText "\n") b)
  | .hardBreak => .ok (addNode .break b)
  | .rule => .ok (addNode .thematicBreak b)
  | .taskMarker checked => .ok { b with frames := markItem checked b.frames }

def finish (b : Builder) : Except ParseError Document :=
  match b.frames with
  | [] => .ok ⟨b.done.reverse⟩
  | f :: fs => .error (.stillOpen (fs.length + 1) (containerName f.tag))

def pushAll (settings : Settings) : Builder → List Event → Except ParseError Builder
  | b, [] => .ok b
  | b, e :: es => b.push settings e >>= (pushAll settings · es)

end Builder

def ofEvents (settings : Settings) (events : List Event) : Except ParseError Document :=
  Builder.empty.pushAll settings events >>= Builder.finish

end Folio.Tree
