import Folio.Markdown.Cursor

/-!
# Raw HTML

Recognizes tags, comments, processing instructions, declarations and CDATA sections, both within a
line of text and as the start of a block of markup.
-/

namespace Folio.Markdown

/-- A tag that is being read: the position, and the text kept so far without line prefixes, which
reaches up to `mark`. -/
structure TagScan where
  pos : Nat
  mark : Nat
  kept : List Char

namespace TagScan

/-- Passes a line end and the prefixes of the next line. Without `prefixes` a tag cannot go on
behind a line end. -/
def passLineEnd? (s : Source) (prefixes : Option (List LinePrefix)) (t : TagScan) (next : Nat) :
    Option TagScan :=
  prefixes.map fun ps =>
    let after := afterPrefixes s ps next
    if after = next then { t with pos := next }
    else ⟨after, after, t.kept ++ s.slice t.mark next⟩

def skipBlanksFuel (s : Source) (prefixes : Option (List LinePrefix)) :
    Nat → TagScan → Option TagScan
  | 0, t => some t
  | fuel + 1, t =>
    let pos := s.skipBlanks t.pos
    match s.lineEnd? pos with
    | some next =>
      if next = pos then some { t with pos := pos }
      else (t.passLineEnd? s prefixes next).bind (skipBlanksFuel s prefixes fuel)
    | none => some { t with pos := pos }

def skipBlanks? (s : Source) (prefixes : Option (List LinePrefix)) (t : TagScan) :
    Option TagScan :=
  skipBlanksFuel s prefixes (s.size + 1 - t.pos) t

def quotedValueFuel (s : Source) (prefixes : Option (List LinePrefix)) (quote : Char) :
    Nat → TagScan → Option TagScan
  | 0, _ => none
  | fuel + 1, t =>
    match s[t.pos]? with
    | none => none
    | some c =>
      if c == quote then some { t with pos := t.pos + 1 }
      else if c == '\n' || c == '\r' then
        (s.lineEnd? t.pos).bind fun next =>
          (t.passLineEnd? s prefixes next).bind (quotedValueFuel s prefixes quote fuel)
      else quotedValueFuel s prefixes quote fuel { t with pos := t.pos + 1 }

def isBareValue (c : Char) : Bool :=
  !("'\" =><\x60\n\r\t".toList.contains c)

def value? (s : Source) (prefixes : Option (List LinePrefix)) (t : TagScan) : Option TagScan := do
  let c ← s[t.pos]?
  if c == '"' || c == '\'' then
    quotedValueFuel s prefixes c (s.size - t.pos) { t with pos := t.pos + 1 }
  else if isBareValue c then some { t with pos := s.skipWhile isBareValue t.pos }
  else none

def isNameStart (c : Char) : Bool :=
  c.isAlpha || c == '_' || c == ':'

def isNameRest (c : Char) : Bool :=
  c.isAlphanum || c == '_' || c == '.' || c == ':' || c == '-'

def attribute? (s : Source) (prefixes : Option (List LinePrefix)) (t : TagScan) :
    Option TagScan := do
  if !(s[t.pos]?.any isNameStart) then none
  let named := { t with pos := s.skipWhile isNameRest (t.pos + 1) }
  let ahead ← named.skipBlanks? s prefixes
  if s.hasAt ahead.pos '=' then
    let t ← ({ ahead with pos := ahead.pos + 1 } : TagScan).skipBlanks? s prefixes
    t.value? s prefixes
  else some named

/-- Attributes, each behind white space, up to the end of the tag. -/
def attributesFuel (s : Source) (prefixes : Option (List LinePrefix)) :
    Nat → TagScan → Option TagScan
  | 0, _ => none
  | fuel + 1, t => do
    let spaced ← t.skipBlanks? s prefixes
    match s[spaced.pos]? with
    | none => none
    | some c =>
      if c == '/' || c == '>' then some spaced
      else if spaced.pos = t.pos then none
      else
        let t ← spaced.attribute? s prefixes
        attributesFuel s prefixes fuel t

end TagScan

def isTagNameRest (c : Char) : Bool :=
  c.isAlphanum || c == '-'

/-- The opening or closing tag at `i`: its text without line prefixes, and the position behind. -/
def tag? (s : Source) (prefixes : Option (List LinePrefix)) (i : Nat) :
    Option (List Char × Nat) := do
  let closing := s.hasAt (i + 1) '/'
  let name := if closing then i + 2 else i + 1
  if !(s[name]?.any Char.isAlpha) then none
  let t : TagScan := ⟨s.skipWhile isTagNameRest (name + 1), i, []⟩
  let t ← if closing then some t else t.attributesFuel s prefixes (s.size + 1 - t.pos)
  let pos := s.skipBlanks t.pos
  let pos := if !closing && s.hasAt pos '/' then pos + 1 else pos
  if s.hasAt pos '>' then some (t.kept ++ s.slice t.mark (pos + 1), pos + 1) else none

def findFuel (s : Source) (cs : List Char) : Nat → Nat → Option Nat
  | 0, _ => none
  | fuel + 1, i =>
    if s.startsWith i cs then some (i + cs.length)
    else if i < s.size then findFuel s cs fuel (i + 1)
    else none

def find? (s : Source) (cs : List Char) (i : Nat) : Option Nat :=
  findFuel s cs (s.size + 1 - i) i

/-- What stands between `<!` and `>`: a comment, a CDATA section or a declaration. -/
def declaration? (s : Source) (i : Nat) : Option Nat :=
  if s.startsWith (i + 2) "--".toList then find? s "-->".toList (i + 2)
  else if s.startsWith (i + 2) "[CDATA[".toList then
    let brackets := s.skipWhile (· != ']') (i + 9)
    let after := s.skipWhile (· == ']') brackets
    if brackets < after && s.hasAt after '>' then some (after + 1) else none
  else if s[i + 2]?.any Char.isAlpha then find? s ['>'] (i + 3)
  else none

def inlineHtml? (s : Source) (prefixes : List LinePrefix) (i : Nat) : Option (List Char × Nat) :=
  if s.hasAt (i + 1) '!' then
    (declaration? s i).map fun stop => (s.slice i stop, stop)
  else if s.hasAt (i + 1) '?' then
    (find? s "?>".toList (i + 2)).map fun stop => (s.slice i stop, stop)
  else tag? s (some prefixes) i

/-- Elements whose blocks end at their own closing tag. -/
def verbatimElements : List String :=
  ["pre", "style", "script", "textarea"]

/-- The text that ends the block of markup at `i`, if one starts there that ends at such a text. -/
def htmlBlockEnd? (s : Source) (i : Nat) : Option String :=
  let isElement := fun (name : String) =>
    let after := i + 1 + name.length
    (s.slice (i + 1) after).map Char.toLower == name.toList &&
      s[after]?.all fun c => isAsciiBlank c || c == '>'
  match verbatimElements.find? isElement with
  | some name => some ("</" ++ name ++ ">")
  | none =>
    if s.startsWith (i + 1) "!--".toList then some "-->"
    else if s.hasAt (i + 1) '?' then some "?>"
    else if s.startsWith (i + 1) "![CDATA[".toList then some "]]>"
    else if s.hasAt (i + 1) '!' && s[i + 2]?.any Char.isAlpha then some ">"
    else none

/-- Elements that start a block of markup wherever they stand. -/
def blockElements : List String :=
  ["address", "article", "aside", "base", "basefont", "blockquote", "body", "caption", "center",
   "col", "colgroup", "dd", "details", "dialog", "dir", "div", "dl", "dt", "fieldset", "figcaption",
   "figure", "footer", "form", "frame", "frameset", "h1", "h2", "h3", "h4", "h5", "h6", "head",
   "header", "hr", "html", "iframe", "legend", "li", "link", "main", "menu", "menuitem", "nav",
   "noframes", "ol", "optgroup", "option", "p", "param", "search", "section", "summary", "table",
   "tbody", "td", "tfoot", "th", "thead", "title", "tr", "track", "ul"]

def startsBlockElement (s : Source) (i : Nat) : Bool :=
  let name := if s.hasAt (i + 1) '/' then i + 2 else i + 1
  let after := s.skipWhile Char.isAlphanum name
  blockElements.contains (String.ofList ((s.slice name after).map Char.toLower)) &&
    match s[after]? with
    | none => true
    | some c =>
      c == ' ' || c == '\t' || c == '\r' || c == '\n' || c == '>' ||
        (c == '/' && s.hasAt (after + 1) '>')

/-- A complete tag stands alone on the line. -/
def startsLoneTag (s : Source) (i : Nat) : Bool :=
  match tag? s none i with
  | some (_, after) => (s.blankLine? after).isSome
  | none => false

end Folio.Markdown
