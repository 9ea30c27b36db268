import Folio.Event

/-!
# Running text

Running text is a sequence of pieces. Emphasis and links contain pieces in turn.
-/

namespace Folio.Markdown

/-- What marks around a stretch of text can mean. -/
inductive SpanKind where
  | emphasis
  | strong
  | strikethrough
deriving DecidableEq, Repr

inductive Inline where
  | text (value : List Char)
  | code (value : List Char)
  | math (display : Bool) (value : List Char)
  | html (value : List Char)
  | footnote (label : List Char)
  | softBreak
  | hardBreak (backslash : Bool)
  /-- A run of marks whose meaning is still open. -/
  | delimiters (mark : Char) (count : Nat) (canOpen canClose : Bool)
  | span (kind : SpanKind) (children : List Inline)
  | link (form : LinkForm) (url title : List Char) (children : List Inline)
  | image (form : LinkForm) (url title : List Char) (children : List Inline)
deriving Repr

namespace Inline

def isDelimiters : Inline → Bool
  | delimiters .. => true
  | _ => false

/-- In the text of a link with marks in it, a backslash before the line end that the text ends with
breaks no line. -/
def dropFinalBreak (ps : List Inline) : List Inline :=
  match ps.getLast? with
  | some (.hardBreak true) =>
    if ps.any isDelimiters then ps.dropLast ++ [.text ['\\']] else ps
  | _ => ps

def tag : SpanKind → Tag
  | .emphasis => .emphasis
  | .strong => .strong
  | .strikethrough => .strikethrough

mutual

/-- The events of a piece. Spans and links carry no offset. -/
def events : Inline → List Event
  | text value => [.text (String.ofList value)]
  | code value => [.code (String.ofList value)]
  | math true value => [.displayMath (String.ofList value)]
  | math false value => [.inlineMath (String.ofList value)]
  | html value => [.inlineHtml (String.ofList value)]
  | footnote label => [.footnoteReference (String.ofList label)]
  | softBreak => [.softBreak]
  | hardBreak _ => [.hardBreak]
  | delimiters mark count _ _ => [.text (String.ofList (List.replicate count mark))]
  | span kind cs => .start (tag kind) 0 :: (eventsOf cs ++ [.stop])
  | link form url title cs =>
    .start (.link form (String.ofList url) (String.ofList title)) 0 :: (eventsOf cs ++ [.stop])
  | image form url title cs =>
    .start (.image form (String.ofList url) (String.ofList title)) 0 :: (eventsOf cs ++ [.stop])

def eventsOf : List Inline → List Event
  | [] => []
  | p :: ps => p.events ++ eventsOf ps

end

end Inline

end Folio.Markdown
