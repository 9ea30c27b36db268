/-!
# Events

A parsed text is a sequence of events: containers that open and close, and leaves between them.
A container opens with a tag and with the place in the source, in bytes, where it starts.
-/

namespace Folio

inductive LinkForm where
  | inline
  | reference
  | collapsed
  | shortcut
  | autolink
  | email
deriving DecidableEq, Repr

inductive Tag where
  | paragraph
  | heading (level : UInt8)
  | blockQuote
  /-- An indented block has no info string, a fenced one may have an empty one. -/
  | codeBlock (info : Option String)
  | htmlBlock
  | list (start : Option UInt64)
  | item
  | footnoteDefinition (label : String)
  | table
  | tableHead
  | tableRow
  | tableCell
  | emphasis
  | strong
  | strikethrough
  | link (form : LinkForm) (url title : String)
  | image (form : LinkForm) (url title : String)
  | metadata
  | definitionList
  | definitionTitle
  | definition
deriving DecidableEq, Repr

inductive Event where
  | start (tag : Tag) (offset : Nat)
  /-- Closes the innermost container. -/
  | stop
  | text (value : String)
  | code (value : String)
  | inlineMath (value : String)
  | displayMath (value : String)
  | html (value : String)
  | inlineHtml (value : String)
  | footnoteReference (label : String)
  | softBreak
  | hardBreak
  | rule
  /-- The box of a task list item. -/
  | taskMarker (checked : Bool)
deriving DecidableEq, Repr

end Folio
