import Folio.Document

/-!
# Rendering to HTML

Every kind of node maps to one fixed tag or to nothing. Siblings are joined by one line break at
every level, and text, code and link targets are inserted as they are.
-/

namespace Folio

/-- The deepest heading that has a tag. -/
def maxHeadingLevel : UInt8 := 6

namespace Html

def element (tag body : String) : String :=
  "<" ++ tag ++ ">" ++ body ++ "</" ++ tag ++ ">"

/-- The tag of a heading; deeper headings share the deepest tag. -/
def headingTag (level : UInt8) : String :=
  "h" ++ toString (min level maxHeadingLevel).toNat

mutual

/-- The markup of one node; kinds without a tag render to nothing. -/
def renderNode : Node → String
  | .heading level cs => element (headingTag level) (renderNodes cs)
  | .paragraph cs => element "p" (renderNodes cs)
  | .list true _ cs => element "ol" (renderNodes cs)
  | .list false _ cs => element "ul" (renderNodes cs)
  | .listItem _ cs => element "li" (renderNodes cs)
  | .table cs => element "table" (renderNodes cs)
  | .tableRow cs => element "tr" (renderNodes cs)
  | .tableCell cs => element "td" (renderNodes cs)
  | .strong cs => element "strong" (renderNodes cs)
  | .emphasis cs => element "em" (renderNodes cs)
  | .link url _ cs => "<a href=\"" ++ url ++ "\">" ++ renderNodes cs ++ "</a>"
  | .text value => value
  | .inlineCode value => element "code" value
  | .code _ value => "<pre>" ++ element "code" value ++ "</pre>"
  | .blockquote cs => element "blockquote" (renderNodes cs)
  | .thematicBreak => "<hr />"
  | _ => ""

/-- The markup of siblings, joined by line breaks. -/
def renderNodes : List Node → String
  | [] => ""
  | [n] => renderNode n
  | n :: ns => renderNode n ++ "\n" ++ renderNodes ns

end

end Html

def Document.render (d : Document) : String :=
  Html.renderNodes d.children

end Folio
