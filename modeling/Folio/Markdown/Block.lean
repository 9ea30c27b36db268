import Folio.Markdown.BlockStart

/-!
# Blocks

The structure of a document above the level of running text. Containers stay open from line to
line; everything else is finished before the next block begins.
-/

namespace Folio.Markdown

/-- A stretch of running text: its tokens, where the block around it ends, and what further lines
of it begin with. -/
structure Content where
  tokens : List Token
  stop : Nat
  prefixes : List LinePrefix
  inTable : Bool

inductive Block where
  /-- A paragraph that starts at a position. The paragraphs of a tight list are bare text. A task
  box may stand before the text. -/
  | paragraph (bare : Bool) (start : Nat) (task : Option Bool) (content : Content)
  /-- The last token of a heading may have blanks behind it that belong to it. -/
  | heading (level : Nat) (task : Option Bool) (content : Content) (trailing : List Char)
  | code (info : Option (List Char)) (text : List Char)
  | html (text : List Char)
  | rule
  | table (header : List Content) (rows : List (List Content))
  | quote (blocks : List Block)
  | list (start : Option Nat) (blocks : List Block)
  | item (blocks : List Block)
  | footnote (label : List Char) (blocks : List Block)
  /-- A task box without text behind it. -/
  | task (checked : Bool)

inductive Container where
  | quote
  /-- Items belong to a list if they have its mark. -/
  | list (tight : Bool) (mark : Char) (number : Nat)
  | item (indent : Nat)
  | footnote (label : List Char)

/-- What each further line of a container begins with. -/
def Container.linePrefix? : Container → Option LinePrefix
  | quote => some .quote
  | list .. => none
  | item indent => some (.indent indent)
  | footnote _ => some (.indent 4)

/-- Paragraphs of the items of a tight list become bare text. -/
def Block.tighten : Block → Block
  | .item blocks => .item (blocks.map fun
    | .paragraph _ start box content => .paragraph true start box content
    | b => b)
  | b => b

def Container.block (blocks : List Block) : Container → Block
  | quote => .quote blocks
  | list tight mark number =>
    .list (if mark == '.' || mark == ')' then some number else none)
      (if tight then blocks.map Block.tighten else blocks)
  | item _ => .item blocks
  | footnote label => .footnote label blocks

/-- What is known at the start of a block. Blocks are held latest first. -/
structure BlockState where
  dialect : Dialect
  stack : List (Container × List Block)
  blocks : List Block
  /-- The latest item began with a blank line. -/
  bareItem : Bool
  afterBlank : Bool
  /-- A task box that waits for a paragraph. -/
  task : Option Bool
  definitions : List (List Char × Definition)
  footnotes : List (List Char)

namespace BlockState

def initial (dialect : Dialect) : BlockState :=
  ⟨dialect, [], [], false, false, none, [], []⟩

def containers (st : BlockState) : List Container :=
  (st.stack.map Prod.fst).reverse

def prefixes (st : BlockState) : List LinePrefix :=
  st.containers.filterMap Container.linePrefix?

def add (b : Block) (st : BlockState) : BlockState :=
  match st.stack with
  | (c, bs) :: rest => { st with stack := (c, b :: bs) :: rest }
  | [] => { st with blocks := b :: st.blocks }

def push (c : Container) (st : BlockState) : BlockState :=
  { st with stack := (c, []) :: st.stack }

def pop (st : BlockState) : BlockState :=
  match st.stack with
  | [] => st
  | (c, bs) :: rest =>
    let bareItem := match c with
      | .list true _ _ => false
      | _ => st.bareItem
    { st with stack := rest, bareItem := bareItem }.add (c.block bs.reverse)

def popTimes : Nat → BlockState → BlockState
  | 0, st => st
  | n + 1, st => popTimes n st.pop

/-- An item that begins with two blank lines is finished. -/
def finishBareItem (st : BlockState) : BlockState :=
  let st' := match st.stack with
    | (.item _, _) :: _ => if st.bareItem && st.afterBlank then st.pop else st
    | _ => st
  { st' with bareItem := false }

/-- Makes the list around the innermost item loose. -/
def loosenAround (st : BlockState) : BlockState :=
  match st.stack with
  | c :: (.list _ mark number, bs) :: rest =>
    { st with stack := c :: (.list false mark number, bs) :: rest }
  | _ => st

/-- Finishes the innermost container if it is a list. A blank line before makes the list around it
loose. -/
def finishList (st : BlockState) : BlockState :=
  let st := st.finishBareItem
  let st := match st.stack with
    | (.list .., _) :: _ => st.pop
    | _ => st
  if st.afterBlank then { st.loosenAround with afterBlank := false } else st

def continueList (mark : Char) (number : Nat) (st : BlockState) : BlockState :=
  let st := st.finishBareItem
  let begin := fun (st : BlockState) =>
    { st.push (.list true mark number) with afterBlank := false }
  match st.stack with
  | [] => begin st
  | (.list tight mark' number', bs) :: rest =>
    if mark' == mark then
      if st.afterBlank then
        { st with stack := (.list false mark' number', bs) :: rest, afterBlank := false }
      else { st with stack := (.list tight mark' number', bs) :: rest }
    else begin st.finishList
  | _ => begin st.finishList

/-- The number of containers, lists included, that a line with `found` prefixes leaves open. -/
def keptCount : List Container → Nat → Nat
  | [], _ => 0
  | .list .. :: cs, found => keptCount cs found + 1
  | _ :: cs, found + 1 => keptCount cs found + 1
  | _ :: _, 0 => 0

end BlockState

/-- The rest of a line from `start` to `stop`, behind `spaces` columns left of a tab. A carriage
return before the last character is dropped. -/
def literalLine (s : Source) (spaces start stop : Nat) : List Char :=
  List.replicate spaces ' ' ++
    if start + 2 ≤ stop && s.hasAt (stop - 2) '\r' then
      s.slice start (stop - 2) ++ s.slice (stop - 1) stop
    else s.slice start stop

/-- The lines of an indented block of code from `i` on, latest first, each with whether it is
blank, and the position behind them. -/
def indentedLinesFuel (s : Source) (prefixes : List LinePrefix) :
    Nat → List (List Char × Bool) → Bool → Nat → Nat → List (List Char × Bool) × Bool × Nat
  | 0, lines, blank, _, i => (lines, blank, i)
  | fuel + 1, lines, blank, spaces, i =>
    let next := s.nextLine i
    let lines := (literalLine s spaces i next, blank) :: lines
    if s.size ≤ next then (lines, blank, next)
    else match allPrefixes? s prefixes next with
      | none => (lines, blank, next)
      | some c =>
        let (isIndented, c) := c.skipExactly s 4
        if isIndented || c.atLineEnd s then
          indentedLinesFuel s prefixes fuel lines (s.blankLine? c.pos).isSome c.spaces c.pos
        else (lines, blank, next)

/-- A block of code by indentation; blank lines at its end do not belong to it. -/
def indentedCode (s : Source) (st : BlockState) (spaces i : Nat) : BlockState × Nat :=
  let (lines, blank, next) := indentedLinesFuel s st.prefixes (s.size + 1 - i) [] false spaces i
  let text := (lines.dropWhile (·.2)).reverse.flatMap (·.1)
  (({ st with afterBlank := blank }).add (.code none text), next)

/-- The lines of a fenced block of code from `i` on, and the position behind its closing fence. -/
def fencedLinesFuel (s : Source) (prefixes : List LinePrefix) (indent : Nat) (mark : Char)
    (length : Nat) : Nat → Nat → List Char × Nat
  | 0, i => ([], i)
  | fuel + 1, i =>
    match allPrefixes? s prefixes i with
    | none => ([], i)
    | some c =>
      let (_, c) := c.skipExactly s indent
      let (tooFar, inner) := c.skipExactly s (4 - indent)
      match if tooFar then none else closingFence? s mark length inner.pos with
      | some stop => ([], (s.blankLine? stop).getD stop)
      | none =>
        let next := s.nextLine c.pos
        let (rest, stop) := fencedLinesFuel s prefixes indent mark length fuel next
        (literalLine s c.spaces c.pos next ++ rest, stop)

def fencedCode (s : Source) (st : BlockState) (indent : Nat) (mark : Char) (length i : Nat) :
    BlockState × Nat :=
  let start := s.skipBlanks (i + length)
  let next := s.nextLine start
  let info := s.slice start (s.skipBack isAsciiBlank start next)
  let (text, stop) :=
    fencedLinesFuel s st.prefixes indent mark length (s.size + 2 - next) next
  (st.add (.code (some (unescape false info)) text), stop)

def lineContains (s : Source) (cs : List Char) (start stop : Nat) : Bool :=
  match find? s cs start with
  | some after => after ≤ stop
  | none => false

/-- The lines of a block of markup from `i` on. It ends with the line that contains `closer`, or
without one before a blank line. -/
def htmlLinesFuel (s : Source) (prefixes : List LinePrefix) (closer : Option String) :
    Nat → Nat → Nat → List Char × Nat
  | 0, _, i => ([], i)
  | fuel + 1, spaces, i =>
    let next := s.nextLine i
    let line := literalLine s spaces i next
    match allPrefixes? s prefixes next with
    | none => (line, next)
    | some c =>
      let ends := match closer with
        | some closer => lineContains s closer.toList i next
        | none => (s.blankLine? c.pos).isSome
      if ends || s.size ≤ c.pos then (line, next)
      else
        let (rest, stop) := htmlLinesFuel s prefixes closer fuel c.spaces c.pos
        (line ++ rest, stop)

def htmlBlock (s : Source) (st : BlockState) (closer : Option String) (spaces i : Nat) :
    BlockState × Nat :=
  let (text, stop) := htmlLinesFuel s st.prefixes closer (s.size + 1 - i) spaces i
  (st.add (.html text), stop)

def BlockState.lineRules (st : BlockState) (mode : PipeMode) (i : Nat) : LineRules :=
  ⟨st.dialect, mode, st.prefixes, i⟩

/-- The end of a heading whose text starts at `start`, in front of the spaces. -/
def headingLimit (s : Source) (start stop : Nat) : Nat :=
  s.skipBack (fun c => c == '\n' || c == '\r' || c == ' ') start stop

/-- Cuts the closing sequence off the last token of a heading whose text starts at `start`. A
heading that is nothing but a closing sequence has no tokens. Plain text reaches to the end. -/
def cutClosing (s : Source) (start stop : Nat) (tokens : List Token) : List Token :=
  match tokens with
  | [] => []
  | t :: ts =>
    let limit := headingLimit s start stop
    let closer := s.skipBack (· == '#') start limit
    let bare := s.skipBack (· == ' ') start closer
    if closer = start then ts
    else match t.kind with
      | .text _ => { t with stop := if bare < closer then bare else limit } :: ts
      | _ => t :: ts

/-- Blanks behind the last token of a heading, if it is no plain text. Only what the source shows
has such blanks. -/
def trailingBlanks (s : Source) (start stop : Nat) (tokens : List Token) : List Char :=
  match tokens with
  | [] => []
  | t :: _ =>
    match t.kind with
    | .text _ | .synthetic _ => []
    | _ => s.slice t.stop (headingLimit s start stop)

def markedHeading (s : Source) (st : BlockState) (level i : Nat) : BlockState × Nat :=
  let content := fun tokens stop => (⟨tokens, stop, st.prefixes, false⟩ : Content)
  match s.lineEnd? (i + level) with
  | some next => (st.add (.heading level none (content [] next) []), next)
  | none =>
    let start := s.skipBlanks (i + level)
    let (tokens, _, next, lineEnd) := scanLine s (st.lineRules .plain start) [] Braces.none
    let tokens := match lineEnd with
      | .broken ⟨.hardBreak true, b, e⟩ => addText b e false tokens
      | _ => tokens
    let tokens := cutClosing s start next tokens
    let trailing := trailingBlanks s start next tokens
    (st.add (.heading level none (content tokens.reverse next) trailing), next)

/-- The cells of the row at `i`, at most `columns` of them, and the position behind the row. -/
def rowCellsFuel (s : Source) (st : BlockState) : Nat → Braces → Nat → List Content × Braces × Nat
  | 0, braces, i => ([], braces, i)
  | fuel + 1, braces, i =>
    let i := s.skipBlanks (if s.hasAt i '|' then i + 1 else i)
    match s.lineEnd? i with
    | some next => ([], braces, next)
    | none =>
      let (tokens, braces, stop, _) := scanLine s (st.lineRules .cell i) [] braces
      let (cells, braces, next) := rowCellsFuel s st fuel braces stop
      (⟨tokens.reverse, stop, st.prefixes, true⟩ :: cells, braces, next)

/-- Fills a row up to a number of columns, or cuts it off there. -/
def fitRow (columns stop : Nat) (cells : List Content) : List Content :=
  cells.take columns ++ List.replicate (columns - cells.length) ⟨[], stop, [], true⟩

def tableRowsFuel (s : Source) (st : BlockState) (columns : Nat) :
    Nat → Braces → Nat → List (List Content) × Nat
  | 0, _, i => ([], i)
  | fuel + 1, braces, i =>
    match allPrefixes? s st.prefixes i with
    | none => ([], i)
    | some c =>
      let start := (c.skipAll s).pos
      if interrupts s st.dialect true true start then ([], i)
      else
        let (cells, braces, next) := rowCellsFuel s st (s.size + 1 - start) braces start
        if cells.isEmpty then ([], i)
        else
          let (rows, stop) := tableRowsFuel s st columns fuel braces next
          (fitRow columns next cells :: rows, stop)

/-- A table whose header starts at `i` and whose rows start at `body`. -/
def tableBlock (s : Source) (st : BlockState) (columns : Nat) (braces : Braces) (i body : Nat) :
    BlockState × Nat :=
  let (header, braces, stop) := rowCellsFuel s st (s.size + 1 - i) braces i
  let (rows, next) := tableRowsFuel s st columns (s.size + 1 - body) braces body
  (st.add (.table (fitRow columns stop header) rows), next)

def endsParagraph (s : Source) (st : BlockState) (sameContainer : Bool) (i : Nat) : Bool :=
  interrupts s st.dialect sameContainer false i ||
    (st.dialect.extended && startsTable s st.prefixes i)

inductive ParagraphEnd where
  | paragraph (tokens : List Token) (next : Nat)
  | heading (level : Nat) (tokens : List Token) (next : Nat)
  | table (columns : Nat) (braces : Braces) (body : Nat)

/-- The lines of a paragraph from `i` on. The tokens come latest first. -/
def paragraphFuel (s : Source) (st : BlockState) :
    Nat → PipeMode → List Token → Braces → Nat → ParagraphEnd
  | 0, _, tokens, _, i => .paragraph tokens i
  | fuel + 1, mode, tokens, braces, i =>
    let (tokens, braces, next, lineEnd) := scanLine s (st.lineRules mode i) tokens braces
    match lineEnd with
    | .table columns => .table columns braces next
    | _ =>
      let (found, c) := skipPrefixes s st.prefixes (Cursor.new next)
      let sameContainer := found == st.prefixes.length
      let (isIndented, c) := c.skipExactly s 4
      let ended := match lineEnd with
        | .broken ⟨.hardBreak true, b, _⟩ => addText b (b + 1) false tokens
        | _ => tokens
      match if sameContainer && !isIndented then underline? s c.pos else none with
      | some (level, stop) => .heading level ended stop
      | none =>
        if !isIndented && endsParagraph s st sameContainer c.pos then .paragraph ended next
        else
          let c := c.skipAll s
          if c.atLineEnd s then .paragraph ended next
          else
            let tokens := match lineEnd with
              | .broken t => t :: tokens
              | _ => tokens
            paragraphFuel s st fuel .plain tokens braces c.pos

/-- A paragraph, or what its further lines turn it into. -/
def paragraphBlock (s : Source) (st : BlockState) (i : Nat) : BlockState × Nat :=
  let task := st.task
  let st := { st with task := none }
  let mode := if st.dialect.extended then PipeMode.header else .plain
  let content := fun (tokens : List Token) stop =>
    (⟨tokens.reverse, stop, st.prefixes, false⟩ : Content)
  match paragraphFuel s st (s.size + 1 - i) mode [] Braces.none i with
  | .paragraph tokens next => (st.add (.paragraph false i task (content tokens next)), next)
  | .heading level tokens next => (st.add (.heading level task (content tokens next) []), next)
  | .table columns braces body => tableBlock s st columns braces i body

/-- The cursor on a further line of a paragraph that starts at `i`, unless another block begins
there. The line need not have the prefixes of all containers. -/
def continuation? (s : Source) (st : BlockState) (i : Nat) : Option Cursor :=
  let (found, c) := skipPrefixes s st.prefixes (Cursor.new i)
  let sameContainer := found == st.prefixes.length
  let (isIndented, c) := c.skipExactly s 4
  if !isIndented && (endsParagraph s st sameContainer c.pos ||
      (sameContainer && (underline? s c.pos).isSome)) then none
  else some c

/-- White space between the parts of a definition from `i` on, with at most one line end. Yields
whether there was one. -/
def definitionGap? (s : Source) (st : BlockState) (i : Nat) : Option (Bool × Nat) :=
  let i := s.skipBlanks i
  match s.lineEnd? i with
  | none => some (false, i)
  | some next =>
    if next = i then none
    else do
      let c ← continuation? s st next
      let i := s.skipBlanks c.pos
      if (s.lineEnd? i).isSome then none
      some (true, i)

def definitionTitleFuel (s : Source) (st : BlockState) (closer : Char) :
    Nat → Nat → Option (List Char × Nat)
  | 0, _ => none
  | fuel + 1, i =>
    let goOn := fun taken next =>
      (definitionTitleFuel s st closer fuel next).map fun (rest, stop) => (taken ++ rest, stop)
    match s[i]? with
    | none => none
    | some c =>
      if c == closer then some ([], i + 1)
      else if c == '(' && closer == ')' then none
      else if c == '\n' || c == '\r' then do
        let next ← s.lineEnd? i
        let c ← continuation? s st next
        let c := c.skipAll s
        if c.atLineEnd s then none
        goOn ['\n'] c.pos
      else if c == '\\' then
        match s[i + 1]? with
        | none => none
        | some d => if d == '\n' || d == '\r' then goOn [c] (i + 1) else goOn [c, d] (i + 2)
      else goOn [c] (i + 1)

def definitionTitle? (s : Source) (st : BlockState) (i : Nat) : Option (List Char × Nat) := do
  let c ← s[i]?
  let closer ← match c with
    | '"' => some '"'
    | '\'' => some '\''
    | '(' => some ')'
    | _ => none
  definitionTitleFuel s st closer (s.size - i) (i + 1)

/-- The definition of a link at `i`: its label, where it leads, and the position behind it. -/
def definition? (s : Source) (st : BlockState) (i : Nat) :
    Option (List Char × Definition × Nat) := do
  if !s.hasAt i '[' then none
  let (label, stop) ← label? s (fun next => (continuation? s st next).map Cursor.pos) false (i + 1)
  if !s.hasAt stop ':' then none
  let (_, start) ← definitionGap? s st (stop + 1)
  let (destination, after) ← destination? s start
  if after = start then none
  let url := unescape false destination
  let untitled := (labelKey label, ⟨url, []⟩, after)
  match definitionGap? s st after with
  | none => some untitled
  | some (newLine, start) =>
    if start = after then none
    else
      let titled := do
        let (title, stop) ← definitionTitle? s st start
        if (s.blankLine? stop).isNone then none
        some (labelKey label, (⟨url, unescape false title⟩ : Definition), stop)
      match titled with
      | some d => some d
      | none => if newLine then some untitled else none

/-- Keeps a definition; the first one of a label counts. -/
def BlockState.define (key : List Char) (d : Definition) (st : BlockState) : BlockState :=
  if (st.definitions.lookup key).isSome then st
  else { st with definitions := (key, d) :: st.definitions }

/-- The definitions at `i` and the paragraph behind them. A line behind a definition is a line of
the same paragraph unless another block begins there. -/
def definitionsFuel (s : Source) : Nat → BlockState → Nat → BlockState × Nat
  | 0, st, i => (st, i)
  | fuel + 1, st, i =>
    match definition? s st i with
    | none => paragraphBlock s st i
    | some (key, d, stop) =>
      let st := st.define key d
      let next := (s.blankLine? stop).getD stop
      let (found, c) := skipPrefixes s st.prefixes (Cursor.new next)
      let (isIndented, c) := c.skipExactly s 4
      if !isIndented && endsParagraph s st (found == st.prefixes.length) c.pos then (st, next)
      else definitionsFuel s fuel st (c.skipAll s).pos

/-- What follows the markers of the containers on a line. -/
inductive LineStart where
  | done (next : Nat)
  | block (c : Cursor)

/-- Opens the containers whose markers stand at the cursor. -/
def openContainersFuel (s : Source) : Nat → BlockState → Cursor → BlockState × LineStart
  | 0, st, c => (st, .block c)
  | fuel + 1, st, c =>
    let (outer, inner) := c.skipUpTo s 4
    if 4 ≤ outer then (st, .block c)
    else
      match if st.dialect.extended then footnoteLabel? s false inner.pos else none with
      | some (label, stop) =>
        let st := st.finishList
        let st := match st.stack with
          | (.footnote _, _) :: _ => st.pop
          | _ => st
        let st := { st with footnotes := labelKey label :: st.footnotes }
        openContainersFuel s fuel (st.push (.footnote label)) (Cursor.new (s.skipBlanks stop))
      | none =>
        match listMarker? s outer inner with
        | some (m, c) =>
          let st := (st.continueList m.mark m.number).push (.item m.indent)
          match s.blankLine? c.pos with
          | some next => ({ st with bareItem := true }, .done next)
          | none =>
            match if st.dialect.extended then taskBox? s c else none with
            | none => openContainersFuel s fuel st c
            | some (checked, c) =>
              match s.blankLine? c.pos with
              | some next => ({ st with bareItem := true }.add (.task checked), .done next)
              | none => openContainersFuel s fuel { st with task := some checked } c
        | none =>
          match inner.quoteMarker? s with
          | some c => openContainersFuel s fuel (st.finishList.push .quote) c
          | none => (st, .block c)

def BlockState.noteBlank (st : BlockState) : BlockState :=
  match st.stack with
  | (.quote, _) :: _ => st
  | (.item _, bs) :: rest =>
    if st.bareItem then { st with stack := (.item 0, bs) :: rest, afterBlank := true }
    else { st with afterBlank := true }
  | _ => { st with afterBlank := true }

def leafBlock (s : Source) (st : BlockState) (c : Cursor) : BlockState × Nat :=
  match s.blankLine? c.pos with
  | some next => (st.noteBlank, next)
  | none =>
    let st := st.finishList
    let (indent, inner) := c.skipUpTo s 4
    let i := inner.pos
    if indent = 4 then indentedCode s st inner.spaces i
    else
      let markup : Option (Option String) :=
        if s.hasAt i '<' then
          match htmlBlockEnd? s i with
          | some closer => some (some closer)
          | none => if startsBlockElement s i || startsLoneTag s i then some none else none
        else none
      match markup with
      | some closer => htmlBlock s st closer (max c.spaces indent) i
      | none =>
        match ruleLine? s i with
        | some next => (st.add .rule, next)
        | none =>
          match headingLevel? s i with
          | some level => markedHeading s st level i
          | none =>
            match fence? s i with
            | some (mark, length) => fencedCode s st indent mark length i
            | none => definitionsFuel s (s.size + 1 - i) st i

def block (s : Source) (st : BlockState) (i : Nat) : BlockState × Nat :=
  let containers := st.containers
  let (found, c) := skipPrefixes s st.prefixes (Cursor.new i)
  let st := st.popTimes (containers.length - BlockState.keptCount containers found)
  match openContainersFuel s (s.size + 1 - i) st c with
  | (st, .done next) => (st, next)
  | (st, .block c) => leafBlock s st c

def blocksFuel (s : Source) : Nat → BlockState → Nat → BlockState
  | 0, st, _ => st
  | fuel + 1, st, i =>
    if s.size ≤ i then st
    else
      let (st, next) := block s st i
      blocksFuel s fuel st next

def readBlocks (dialect : Dialect) (s : Source) : BlockState :=
  let st := blocksFuel s (2 * s.size) (BlockState.initial dialect) 0
  st.popTimes st.stack.length

end Folio.Markdown
