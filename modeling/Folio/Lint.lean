import Folio.Diagnostic
import Folio.Html
import Folio.Text.Quoted

/-!
# Lint

Finds what rendering does to a document without saying so: kinds that are dropped, headings that
are too deep for their tag, links without a target, and raw markup that is passed through.
-/

namespace Folio.Lint

/-- The characters that mean something in markup. -/
def isMarkup (c : Char) : Bool :=
  c == '<' || c == '>' || c == '&' || c == '"'

def hasMarkup (s : String) : Bool :=
  s.toList.any isMarkup

def previewLength : Nat := 40

def warning (code message : String) : Diagnostic :=
  ⟨.warning, message, some code⟩

def rawMarkup (what value : String) : List Diagnostic :=
  if hasMarkup value then
    let preview := String.ofList (Text.quoted (value.toList.take previewLength))
    [⟨.info, "Raw markup in " ++ what ++ " is inserted unescaped: " ++ preview, some "V003"⟩]
  else []

def dropped (n : Node) : Diagnostic :=
  warning "V001" ("Node kind '" ++ n.kind ++ "' has no HTML output and is dropped")

def tooDeep (level : UInt8) : Diagnostic :=
  warning "V002" ("Heading level " ++ toString level.toNat ++ " is rendered as h" ++
    toString maxHeadingLevel.toNat)

def emptyUrl : Diagnostic :=
  warning "V004" "Link has an empty URL"

mutual

/-- The findings for a node and then for the nodes below it. Nothing is reported below a node that
is dropped. -/
def checkNode : Node → List Diagnostic
  | .heading level cs =>
    (if level > maxHeadingLevel then [tooDeep level] else []) ++ checkNodes cs
  | .link url _ cs =>
    (if url.isEmpty then [emptyUrl] else rawMarkup "link URL" url) ++ checkNodes cs
  | .text value => rawMarkup "text" value
  | .inlineCode value | .code _ value => rawMarkup "code" value
  | .thematicBreak => []
  | .paragraph cs | .blockquote cs | .list _ _ cs | .listItem _ cs | .table cs | .tableRow cs
  | .tableCell cs | .strong cs | .emphasis cs => checkNodes cs
  | n => [dropped n]

def checkNodes : List Node → List Diagnostic
  | [] => []
  | n :: ns => checkNode n ++ checkNodes ns

end

end Folio.Lint

namespace Folio

def Document.lint (d : Document) : List Diagnostic :=
  Lint.checkNodes d.children

end Folio
