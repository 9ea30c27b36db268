import Folio.Markdown.Inline

/-!
# Emphasis

Runs of marks that can open are kept on a stack until a run that can close matches one of them.
Two marks make strong text, one makes emphasis; runs that match nothing are text.
-/

namespace Folio.Markdown

structure Opener where
  mark : Char
  count : Nat
  runLength : Nat
  /-- The run could also have closed a span. -/
  both : Bool
  /-- The pieces before the run, latest first. -/
  before : List Inline

/-- The openers, innermost first, and the pieces behind the innermost one, latest first. -/
structure EmphasisScan where
  openers : List Opener
  pieces : List Inline
  /-- How many openers tildes no longer look at, counted from the outermost. -/
  tildeBound : Nat

def marksText (mark : Char) (count : Nat) : Inline :=
  .text (List.replicate count mark)

/-- A run that can close ends the span of an opener. If one of the two can both open and close,
their lengths must not add up to a multiple of three unless both are multiples of three. -/
def Opener.fits (o : Opener) (mark : Char) (runLength : Nat) (both : Bool) : Bool :=
  o.mark == mark && (mark != '~' || o.runLength == runLength) &&
    ((!both && !o.both) || (runLength + o.runLength) % 3 != 0 || runLength % 3 == 0)

/-- The innermost opener that satisfies `p`, with the pieces behind it and the openers around it.
Openers that are skipped become text. -/
def findOpener (p : Opener → Bool) (bound : Nat) :
    List Opener → List Inline → Option (List Inline × Opener × List Opener)
  | [], _ => none
  | o :: os, pieces =>
    if os.length < bound then none
    else if p o then some (pieces, o, os)
    else findOpener p bound os (pieces ++ marksText o.mark o.count :: o.before)

/-- Wraps pieces into spans made by `n` marks on each side, from the inside out. -/
def wrapSpan (mark : Char) : Nat → List Inline → List Inline
  | 0, inner => inner
  | 1, inner => [.span (if mark == '~' then .strikethrough else .emphasis) inner]
  | n + 2, inner => wrapSpan mark n [.span (if mark == '~' then .strikethrough else .strong) inner]

namespace EmphasisScan

def empty : EmphasisScan := ⟨[], [], 0⟩

def add (p : Inline) (e : EmphasisScan) : EmphasisScan :=
  { e with pieces := p :: e.pieces }

/-- Closes spans with `count` marks of a run. Yields how many of them are left. -/
def closeFuel (mark : Char) (runLength : Nat) (both : Bool) :
    Nat → EmphasisScan → Nat → EmphasisScan × Nat
  | 0, e, count => (e, count)
  | fuel + 1, e, count =>
    let bound := if mark == '~' then e.tildeBound else 0
    match findOpener (·.fits mark runLength both) bound e.openers e.pieces with
    | none =>
      ({ e with tildeBound := if mark == '~' then e.openers.length else e.tildeBound }, count)
    | some (inner, o, outer) =>
      let n := min count o.count
      let wrapped := wrapSpan mark n inner.reverse
      let bound := min e.tildeBound outer.length
      let e : EmphasisScan :=
        if n < o.count then ⟨{ o with count := o.count - n } :: outer, wrapped, bound⟩
        else ⟨outer, wrapped ++ o.before, bound⟩
      if count ≤ n then (e, 0) else closeFuel mark runLength both fuel e (count - n)

def addRun (mark : Char) (runLength : Nat) (canOpen canClose : Bool) (e : EmphasisScan) :
    EmphasisScan :=
  let both := canOpen && canClose
  let (e, count) :=
    if canClose then closeFuel mark runLength both runLength e runLength else (e, runLength)
  if count = 0 then e
  else if canOpen then ⟨⟨mark, count, runLength, both, e.pieces⟩ :: e.openers, [], e.tildeBound⟩
  else e.add (marksText mark count)

/-- The pieces in order; openers that are left become text. -/
def finish (e : EmphasisScan) : List Inline :=
  (e.openers.foldl (fun pieces o => pieces ++ marksText o.mark o.count :: o.before)
    e.pieces).reverse

end EmphasisScan

mutual

def emphasizePiece : Inline → Inline
  | .link form url title cs => .link form url title (emphasizeFrom .empty cs).finish
  | .image form url title cs => .image form url title (emphasizeFrom .empty cs).finish
  | p => p

def emphasizeFrom : EmphasisScan → List Inline → EmphasisScan
  | e, [] => e
  | e, p :: ps =>
    let e := match p with
      | .delimiters mark count canOpen canClose => e.addRun mark count canOpen canClose
      | _ => e.add (emphasizePiece p)
    emphasizeFrom e ps

end

def emphasize (ps : List Inline) : List Inline :=
  (emphasizeFrom .empty ps).finish

end Folio.Markdown
