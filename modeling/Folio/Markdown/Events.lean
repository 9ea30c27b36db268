import Folio.Markdown.Block
import Folio.Markdown.Emphasis
import Folio.Markdown.Link

/-!
# Events of a source text

Reads the blocks of a source, then the running text in them, and lists the events in order.
-/

namespace Folio.Markdown

/-- What is needed to read running text anywhere in a source. -/
structure Reading where
  source : Source
  dialect : Dialect
  references : References

def Reading.pieces (r : Reading) (c : Content) : List Inline :=
  let ctx : TextContext :=
    ⟨r.source.extract 0 c.stop, c.prefixes, c.inTable, r.dialect, r.references⟩
  emphasize (ctx.takeTokens c.tokens)

def Reading.content (r : Reading) (c : Content) : List Event :=
  Inline.eventsOf (r.pieces c)

/-- What belongs to the last token shows if that token is text in the end. -/
def addTrailing (trailing : List Char) (ps : List Inline) : List Inline :=
  if trailing.isEmpty then ps
  else match ps.getLast? with
    | some (.text _) => ps ++ [.text trailing]
    | _ => ps

/-- The box of a task comes before its text. -/
def taskEvents (task : Option Bool) : List Event :=
  (task.map Event.taskMarker).toList

def Reading.row (r : Reading) (tag : Tag) (cells : List Content) : List Event :=
  .start tag 0 ::
    (cells.flatMap fun c => .start .tableCell 0 :: (r.content c ++ [.stop])) ++ [.stop]

mutual

/-- The events of a block. Only paragraphs carry the offset where they start. -/
def Block.events (r : Reading) : Block → List Event
  | .paragraph true _ task content => taskEvents task ++ r.content content
  | .paragraph false start task content =>
    .start .paragraph (r.source.byteOffset start) ::
      (taskEvents task ++ r.content content ++ [.stop])
  | .heading level task content trailing =>
    .start (.heading (UInt8.ofNat level)) 0 ::
      (taskEvents task ++ Inline.eventsOf (addTrailing trailing (r.pieces content)) ++ [.stop])
  | .code info text =>
    [.start (.codeBlock (info.map String.ofList)) 0, .text (String.ofList text), .stop]
  | .html text => [.start .htmlBlock 0, .html (String.ofList text), .stop]
  | .rule => [.rule]
  | .table header rows =>
    .start .table 0 :: (r.row .tableHead header ++ rows.flatMap (r.row .tableRow) ++ [.stop])
  | .quote blocks => .start .blockQuote 0 :: (blocksEvents r blocks ++ [.stop])
  | .list start blocks =>
    .start (.list (start.map UInt64.ofNat)) 0 :: (blocksEvents r blocks ++ [.stop])
  | .item blocks => .start .item 0 :: (blocksEvents r blocks ++ [.stop])
  | .footnote label blocks =>
    .start (.footnoteDefinition (String.ofList label)) 0 :: (blocksEvents r blocks ++ [.stop])
  | .task checked => [.taskMarker checked]

def blocksEvents (r : Reading) : List Block → List Event
  | [] => []
  | b :: bs => b.events r ++ blocksEvents r bs

end

def events (dialect : Dialect) (source : List Char) : List Event :=
  let s := source.toArray
  let st := readBlocks dialect s
  blocksEvents ⟨s, dialect, ⟨st.definitions, st.footnotes⟩⟩ st.blocks.reverse

end Folio.Markdown
