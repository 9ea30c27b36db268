import Folio.Markdown.Events
import Folio.Tree.Builder

/-!
# Parsing

A source text becomes a document by way of its events.
-/

namespace Folio

structure ParseOptions where
  /-- Tables, struck-out text, task lists, footnotes, and links to addresses in plain text. -/
  extended : Bool
  math : Bool
  /-- The most bytes that a source may have. -/
  maxBytes : Option Nat
  deepHeadings : Bool
deriving Inhabited, Repr

namespace ParseOptions

def default : ParseOptions := ⟨true, true, none, true⟩

def dialect (o : ParseOptions) : Markdown.Dialect :=
  ⟨o.extended, o.math⟩

def settings (o : ParseOptions) (source : String) : Tree.Settings :=
  ⟨source.toList, o.deepHeadings, o.extended⟩

end ParseOptions

namespace Document

def parse (options : ParseOptions) (source : String) : Except ParseError Document :=
  let length := source.utf8ByteSize
  match options.maxBytes with
  | some limit =>
    if limit < length then .error (.tooLarge length limit)
    else Tree.ofEvents (options.settings source) (Markdown.events options.dialect source.toList)
  | none =>
    Tree.ofEvents (options.settings source) (Markdown.events options.dialect source.toList)

end Document

end Folio
