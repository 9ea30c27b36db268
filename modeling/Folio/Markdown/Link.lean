import Folio.Markdown.Inline
import Folio.Markdown.LinkSyntax
import Folio.Markdown.RawHtml
import Folio.Markdown.RawSpan
import Folio.Markdown.Token

/-!
# Links

Opening brackets are kept on a stack until a closing bracket. Behind it stands a destination in
parentheses, or the link refers to a definition by its label. On the way, code, formulas, raw
markup and automatic links are taken out of the tokens; the marks of emphasis stay as they are.
-/

namespace Folio.Markdown

/-- What running text can refer to. Labels are held by their keys. -/
structure References where
  definitions : List (List Char × Definition)
  footnotes : List (List Char)

structure TextContext where
  source : Source
  /-- What further lines begin with. -/
  prefixes : List LinePrefix
  inTable : Bool
  dialect : Dialect
  references : References

structure Bracket where
  image : Bool
  /-- There is no link around it yet. -/
  enabled : Bool
  start : Nat
  stop : Nat
  /-- The pieces before the bracket, latest first. -/
  before : List Inline

/-- The opening brackets, innermost first, and the pieces behind the innermost one, latest
first. -/
structure BracketScan where
  brackets : List Bracket
  pieces : List Inline

namespace Bracket

def text (b : Bracket) : Inline :=
  .text (if b.image then ['!', '['] else ['['])

end Bracket

namespace BracketScan

def empty : BracketScan := ⟨[], []⟩

def add (p : Inline) (b : BracketScan) : BracketScan :=
  { b with pieces := p :: b.pieces }

def openBracket (image : Bool) (t : Token) (b : BracketScan) : BracketScan :=
  ⟨⟨image, true, t.start, t.stop, b.pieces⟩ :: b.brackets, []⟩

/-- The innermost bracket becomes text. -/
def forget (b : BracketScan) : BracketScan :=
  match b.brackets with
  | [] => b
  | o :: os => ⟨os, b.pieces ++ o.text :: o.before⟩

def forgetAll (b : BracketScan) : BracketScan :=
  ⟨[], b.brackets.foldl (fun pieces o => pieces ++ o.text :: o.before) b.pieces⟩

/-- A bracket becomes a link or an image of what is behind it. There is no link in a link. -/
def close (o : Bracket) (outer : List Bracket) (form : LinkForm) (d : Definition)
    (b : BracketScan) : BracketScan :=
  let children := Inline.dropFinalBreak b.pieces.reverse
  if o.image then ⟨outer, .image form d.url d.title children :: o.before⟩
  else
    ⟨outer.map fun o => { o with enabled := o.image && o.enabled },
      .link form d.url d.title children :: o.before⟩

end BracketScan

/-- The tokens behind a position; the first of them starts there if it began before. -/
def tokensFrom (stop : Nat) (ts : List Token) : List Token :=
  match ts.dropWhile (·.stop ≤ stop) with
  | [] => []
  | t :: ts => { t with start := max t.start stop } :: ts

namespace TextContext

/-- Passes blanks, one line end with the prefixes behind it, and blanks again. -/
def skipGap (ctx : TextContext) (i : Nat) : Nat :=
  let i := ctx.source.skipBlanks i
  ctx.source.skipBlanks (((ctx.source.lineEnd? i).map
    (afterPrefixes ctx.source ctx.prefixes)).getD i)

/-- The title of a link from `i` on, up to the closing mark, and the position behind it. Further
lines start where their first token does. -/
def titleFuel (ctx : TextContext) (opener closer : Char) (ts : List Token) :
    Nat → Nat → Option (List Char × Nat)
  | 0, _ => none
  | fuel + 1, i =>
    let s := ctx.source
    let goOn := fun (taken : List Char) next =>
      (titleFuel ctx opener closer ts fuel next).map fun (rest, stop) => (taken ++ rest, stop)
    match s[i]? with
    | none => none
    | some c =>
      if c == closer then some ([], i + 1)
      else if c == opener then none
      else if c == '\n' || c == '\r' then
        match ts.dropWhile (·.stop ≤ i + 1) with
        | t :: _ => if i < t.start then goOn ['\n'] t.start else goOn [c] (i + 1)
        | [] => goOn [c] (i + 1)
      else if c == '&' then
        match charReference? s i with
        | some (text, next) => goOn text next
        | none => goOn [c] (i + 1)
      else if ctx.inTable && isTablePipe s i then
        match s[i + 3]? with
        | some d => if Text.isAsciiPunctuation d then goOn [d] (i + 4) else goOn ['|'] (i + 3)
        | none => none
      else if isEscape s i then goOn s[i + 1]?.toList (i + 2)
      else goOn [c] (i + 1)

def title? (ctx : TextContext) (ts : List Token) (i : Nat) : Option (List Char × Nat) := do
  let opener ← ctx.source[i]?
  let closer ← match opener with
    | '"' => some '"'
    | '\'' => some '\''
    | '(' => some ')'
    | _ => none
  ctx.titleFuel opener closer ts (ctx.source.size - i) (i + 1)

def target? (ctx : TextContext) (ts : List Token) (i : Nat) : Option (Definition × Nat) := do
  if !ctx.source.hasAt i '(' then none
  let (destination, i) ← destination? ctx.source (ctx.skipGap (i + 1))
  let url := unescape ctx.inTable destination
  let i := ctx.skipGap i
  let (title, i) := match ctx.title? ts i with
    | some (title, i) => (title, ctx.skipGap i)
    | none => ([], i)
  if ctx.source.hasAt i ')' then some (⟨url, title⟩, i + 1) else none

inductive Label where
  | link (text : List Char)
  | footnote (text : List Char)

/-- The label in the brackets at `i`, and the position behind them. -/
def label? (ctx : TextContext) (i : Nat) : Option (Label × Nat) :=
  let s := ctx.source
  if !s.hasAt i '[' then none
  else
    let footnote :=
      if ctx.dialect.extended && s.hasAt (i + 1) '^' && !s.hasAt (i + 2) ']' then
        Markdown.label? s onOneLine ctx.inTable (i + 2)
      else none
    match footnote with
    | some (text, stop) => some (.footnote text, stop)
    | none =>
      (Markdown.label? s (fun next => some (afterPrefixes s ctx.prefixes next)) ctx.inTable
        (i + 1)).map fun (text, stop) => (.link text, stop)

inductive Reference where
  /-- A label of its own, and the position behind it. -/
  | full (label : List Char) (stop : Nat)
  | collapsed
  | shortcut

def reference (ctx : TextContext) (ts : List Token) : Reference :=
  match ts with
  | [] => .shortcut
  | t :: _ =>
    match t.kind with
    | .text true => .shortcut
    | _ =>
      if ctx.source.startsWith t.start ['[', ']'] then .collapsed
      else match ctx.label? t.start with
        | some (.link text, stop) => .full text stop
        | _ => .shortcut

def definition? (ctx : TextContext) (label : List Char) : Option Definition :=
  ctx.references.definitions.lookup (labelKey label)

/-- A bracket whose text is a label: refers to a footnote or a definition. The pieces come from
between the brackets. `after` are the tokens behind a link, `rest` those behind the closing
bracket. -/
def closeByText (ctx : TextContext) (form : LinkForm) (o : Bracket) (outer : List Bracket)
    (closing : Token) (after rest : List Token) (b : BracketScan) :
    Option (BracketScan × List Token) :=
  match ctx.label? (o.stop - 1) with
  | none => none
  | some (label, stop) =>
    if stop ≠ closing.stop then none
    else match label with
      | .footnote text =>
        if ctx.references.footnotes.contains (labelKey text) then
          let before := if o.image then .text ['!'] :: o.before else o.before
          some ((BracketScan.mk outer (.footnote text :: before)).forgetAll, rest)
        else none
      | .link text => (ctx.definition? text).map fun d => (b.close o outer form d, after)

/-- A closing bracket. Yields the tokens behind what it closes. -/
def closeBracket (ctx : TextContext) (refers : Bool) (t : Token) (rest : List Token)
    (b : BracketScan) : BracketScan × List Token :=
  let asText := b.forget.add (.text [']'])
  match b.brackets with
  | [] => (asText, rest)
  | o :: outer =>
    if !o.enabled then (asText, rest)
    else match ctx.target? rest t.stop with
      | some (d, stop) => (b.close o outer .inline d, tokensFrom stop rest)
      | none =>
        match ctx.reference rest with
        | .full label stop =>
          match rest.dropWhile (·.stop ≤ stop - 1) with
          | [] => (asText, rest)
          | closing :: after =>
            match ctx.definition? label with
            | some d => (b.close o outer .reference d, after)
            | none =>
              (asText, rest.takeWhile (·.stop ≤ stop - 1) ++
                { closing with kind := .closeBracket false } :: after)
        | .collapsed =>
          if !refers then (asText, rest)
          else (ctx.closeByText .collapsed o outer t (rest.drop 2) rest b).getD (asText, rest)
        | .shortcut =>
          if !refers then (asText, rest)
          else (ctx.closeByText .shortcut o outer t rest rest b).getD (asText, rest)

def autolink? (s : Source) (i : Nat) : Option (LinkForm × List Char × Nat) :=
  match uri? s i with
  | some (url, stop) => some (.autolink, url, stop)
  | none => (email? s i).map fun (url, stop) => (.email, url, stop)

def angle (ctx : TextContext) (t : Token) (rest : List Token) (b : BracketScan) :
    BracketScan × List Token :=
  let s := ctx.source
  match rest with
  | [] => (b.add (.text ['<']), rest)
  | next :: _ =>
    match autolink? s next.start with
    | some (form, url, stop) =>
      (b.add (.link form url [] [.text (s.slice (t.start + 1) (stop - 1))]), tokensFrom stop rest)
    | none =>
      match inlineHtml? s ctx.prefixes (next.start - 1) with
      | some (text, stop) =>
        (b.add (.html (s.slice t.start (next.start - 1) ++ text)), tokensFrom stop rest)
      | none => (b.add (.text ['<']), rest)

/-- A run of backticks; the first one is text if it is escaped. -/
def backticks (ctx : TextContext) (escaped : Bool) (t : Token) (rest : List Token)
    (b : BracketScan) : BracketScan × List Token :=
  let s := ctx.source
  let length := t.stop - t.start
  let count := if escaped then length - 1 else length
  match if count = 0 then none else closingBackticks? count rest with
  | none => (b.add (.text (s.slice t.start t.stop)), rest)
  | some (closer, after) =>
    let b := if escaped then b.add (.text ['\x60']) else b
    (b.add (.code (codeText s ctx.prefixes ctx.inTable t.stop closer.start)), after)

/-- Takes one token, and those behind it that belong to the same piece. -/
def takeToken (ctx : TextContext) (t : Token) (rest : List Token) (b : BracketScan) :
    BracketScan × List Token :=
  let asText := b.add (.text (ctx.source.slice t.start t.stop))
  match t.kind with
  | .text _ => (asText, rest)
  | .synthetic value => (b.add (.text value), rest)
  | .delimiters mark canOpen canClose =>
    (b.add (.delimiters mark (t.stop - t.start) canOpen canClose), rest)
  | .dollar canOpen _ group =>
    match
      if canOpen then math? ctx.source ctx.prefixes ctx.inTable group t rest else none with
    | some (p, after) => (b.add p, after)
    | none => (asText, rest)
  | .backticks escaped => ctx.backticks escaped t rest b
  | .angle => ctx.angle t rest b
  | .openBracket => (b.openBracket false t, rest)
  | .openImage => (b.openBracket true t, rest)
  | .closeBracket refers => ctx.closeBracket refers t rest b
  | .softBreak => (b.add .softBreak, rest)
  | .hardBreak backslash => (b.add (.hardBreak backslash), rest)

def takeTokensFuel (ctx : TextContext) : Nat → List Token → BracketScan → BracketScan
  | 0, _, b => b
  | _, [], b => b
  | fuel + 1, t :: rest, b =>
    let (b, rest) := ctx.takeToken t rest b
    ctx.takeTokensFuel fuel rest b

/-- The pieces that tokens stand for, with links made and emphasis left open. -/
def takeTokens (ctx : TextContext) (ts : List Token) : List Inline :=
  (ctx.takeTokensFuel ts.length ts .empty).forgetAll.pieces.reverse

end TextContext

end Folio.Markdown
