import Folio.Html
import Folio.Text.Basic

/-!
# Pages

A page wraps the fragment of a document. The metadata is escaped, the fragment is not.
-/

namespace Folio

/-- What the caller says about a page; everything may be left open. -/
structure PageSettings where
  title : Option String
  canonicalUrl : Option String
  description : Option String
  lang : Option String
deriving Inhabited, Repr

namespace Page

def version : String := "0.1.0"

def replace (c : Char) (entity : String) (s : String) : String :=
  String.ofList (s.toList.flatMap fun d => if d = c then entity.toList else [d])

/-- Replaces the characters that could end the place where a text stands; the ampersand goes first,
so that no entity is replaced again. -/
def escape (s : String) : String :=
  replace '"' "&quot;" (replace '>' "&gt;" (replace '<' "&lt;" (replace '&' "&amp;" s)))

/-- The text of the first top-level heading that has any, without blanks around it. -/
def firstHeading? : List Node → Option String
  | [] => none
  | .heading level cs :: ns =>
    match Text.trim (Node.heading level cs).plainText.toList with
    | [] => firstHeading? ns
    | title => some (String.ofList title)
  | _ :: ns => firstHeading? ns

def title (d : Document) (settings : PageSettings) : String :=
  (settings.title <|> firstHeading? d.children).getD "Document"

def lang (settings : PageSettings) : String :=
  settings.lang.getD "en"

def descriptionTag : Option String → String
  | some text => "\n    <meta name=\"description\" content=\"" ++ escape text ++ "\">"
  | none => ""

def canonicalTag : Option String → String
  | some url => "\n    <link rel=\"canonical\" href=\"" ++ escape url ++ "\">"
  | none => ""

end Page

def Document.page (d : Document) (settings : PageSettings) : String :=
  "<!DOCTYPE html>\n<html lang=\"" ++ Page.escape (Page.lang settings) ++ "\">\n<head>\n" ++
  "    <meta charset=\"utf-8\">\n" ++
  "    <meta name=\"viewport\" content=\"width=device-width, initial-scale=1\">\n" ++
  "    <meta name=\"generator\" content=\"mdseo " ++ Page.version ++ "\">\n" ++
  "    <title>" ++ Page.escape (Page.title d settings) ++ "</title>" ++
  Page.descriptionTag settings.description ++ Page.canonicalTag settings.canonicalUrl ++
  "\n</head>\n<body>\n<article class=\"mdseo\">\n" ++ d.render ++
  "\n</article>\n</body>\n</html>"

end Folio
