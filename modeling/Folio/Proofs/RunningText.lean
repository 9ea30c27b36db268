import Folio.Markdown.Events
import Mathlib.Data.List.Infix
import Mathlib.Tactic.Lemma

/-!
# The first pieces of running text

Pieces of text are gathered behind the bracket or the run of marks that was opened last. What was
gathered before the first one was opened stays in front of everything that comes later. The piece
right behind it may still become a link or a span, but if it is a text in the end, the character
that it begins with is settled.
-/

namespace Folio.Markdown

/-- A piece that is no text, or a text whose first character is `c`. Marks whose meaning is still
open may become text. -/
def Inline.BeginsWith (c : Option Char) : Inline → Prop
  | .text value => value.head? = c
  | .delimiters mark count _ _ => 0 < count ∧ c = some mark
  | _ => True

/-- What is open, innermost first: the piece that each opener stands for if it becomes text, and the
pieces before it. Pieces are held latest first. -/
abbrev Openings := List (Inline × List Inline)

/-- The pieces before the outermost opener; all pieces at hand if nothing is open. -/
def bottom : Openings → List Inline → List Inline
  | [], pieces => pieces
  | (_, before) :: rest, _ => bottom rest before

/-- All pieces if every opener becomes text. -/
def flatten : Openings → List Inline → List Inline
  | [], pieces => pieces
  | (p, before) :: rest, pieces => flatten rest (pieces ++ p :: before)

/-- The first pieces stay what they are, whatever comes behind them, and the piece right behind them
is no text or begins with `c`. -/
structure Keeps (c : Option Char) (old : List Inline) (stack : Openings) (pieces : List Inline) :
    Prop where
  first : old <:+ bottom stack pieces
  next : ∃ q, q.BeginsWith c ∧ q :: old <:+ flatten stack pieces

section Stacks

variable {c : Option Char} {old pieces pieces' before : List Inline} {stack skipped outer : Openings}
  {p p' : Inline}

lemma flatten_append (stack : Openings) (ps pieces : List Inline) :
    flatten stack (ps ++ pieces) = ps ++ flatten stack pieces := by
  induction stack generalizing pieces with
  | nil => rfl
  | cons x rest ih => rw [flatten, flatten, List.append_assoc, ih]

lemma flatten_skip (skipped outer : Openings) (p : Inline) (before pieces : List Inline) :
    ∃ ps, flatten (skipped ++ (p, before) :: outer) pieces =
      ps ++ p :: flatten outer before := by
  induction skipped generalizing pieces with
  | nil =>
    refine ⟨pieces, ?_⟩
    rw [List.nil_append, flatten, ← List.singleton_append, ← List.append_assoc, flatten_append,
      List.append_assoc, List.singleton_append]
  | cons x skipped ih => exact ih _

lemma bottom_skip (skipped outer : Openings) (p : Inline) (before pieces : List Inline) :
    bottom (skipped ++ (p, before) :: outer) pieces = bottom outer before := by
  induction skipped generalizing pieces with
  | nil => rfl
  | cons x skipped ih => exact ih x.2

lemma suffix_bottom (h : old <:+ bottom stack pieces) (hpieces : pieces <:+ pieces') :
    old <:+ bottom stack pieces' := by
  cases stack with
  | nil => exact h.trans hpieces
  | cons x rest => exact h

lemma bottom_suffix_flatten (stack : Openings) (pieces : List Inline) :
    bottom stack pieces <:+ flatten stack pieces := by
  induction stack generalizing pieces with
  | nil => exact List.suffix_refl _
  | cons x rest ih =>
    refine (ih x.2).trans ?_
    rw [flatten, ← List.singleton_append, ← List.append_assoc, flatten_append]
    exact List.suffix_append _ _

/-- Another piece in the place of the one right behind the first pieces, if it is in that place. -/
lemma next_replace {ps rest : List Inline} (hold : old <:+ rest)
    (h : ∃ q, q.BeginsWith c ∧ q :: old <:+ ps ++ p :: rest)
    (hp : p.BeginsWith c → p'.BeginsWith c) :
    ∃ q, q.BeginsWith c ∧ q :: old <:+ p' :: rest := by
  obtain ⟨q, hq, hsuffix⟩ := h
  obtain ⟨between, rfl⟩ := hold
  have heq {x : Inline} (hx : x :: old <:+ ps ++ p :: (between ++ old)) : x = q :=
    (List.cons.inj ((List.suffix_of_suffix_length_le hx hsuffix le_rfl).eq_of_length rfl)).1
  rcases List.eq_nil_or_concat between with rfl | ⟨between, x, rfl⟩
  · refine ⟨p', hp ?_, List.suffix_refl _⟩
    rw [heq (List.suffix_append ps _)]
    exact hq
  · have hx : x :: old <:+ between.concat x ++ old := by
      rw [List.concat_eq_append, List.append_assoc]
      exact List.suffix_append _ _
    refine ⟨x, ?_, hx.trans (List.suffix_cons _ _)⟩
    rw [heq ((hx.trans (List.suffix_cons p _)).trans (List.suffix_append ps _))]
    exact hq

namespace Keeps

lemma extend (h : Keeps c old stack pieces) (hpieces : pieces <:+ pieces') :
    Keeps c old stack pieces' := by
  obtain ⟨q, hq, hsuffix⟩ := h.next
  refine ⟨suffix_bottom h.first hpieces, q, hq, hsuffix.trans ?_⟩
  obtain ⟨ps, rfl⟩ := hpieces
  rw [flatten_append]
  exact List.suffix_append _ _

lemma «open» (h : Keeps c old stack pieces) (p : Inline) :
    Keeps c old ((p, pieces) :: stack) [] := by
  obtain ⟨q, hq, hsuffix⟩ := h.next
  refine ⟨h.first, q, hq, hsuffix.trans ?_⟩
  change _ <:+ flatten stack ([p] ++ pieces)
  rw [flatten_append]
  exact List.suffix_append _ _

lemma skip (h : Keeps c old (skipped ++ (p, before) :: outer) pieces)
    (hp : p.BeginsWith c → p'.BeginsWith c) : Keeps c old outer (p' :: before) := by
  obtain ⟨ps, hps⟩ := flatten_skip skipped outer p before pieces
  have hold := h.first
  have hnext := h.next
  rw [bottom_skip] at hold
  rw [hps] at hnext
  refine ⟨suffix_bottom hold (List.suffix_cons _ _), ?_⟩
  change ∃ q, _ ∧ _ <:+ flatten outer ([p'] ++ before)
  rw [flatten_append]
  exact next_replace (hold.trans (bottom_suffix_flatten _ _)) hnext hp

/-- Whatever an opener turns into comes behind the pieces before it. -/
lemma close (h : Keeps c old (skipped ++ (p, before) :: outer) pieces)
    (hp : p.BeginsWith c → p'.BeginsWith c) (hpieces : p' :: before <:+ pieces') :
    Keeps c old outer pieces' :=
  (h.skip hp).extend hpieces

lemma reopen (h : Keeps c old (skipped ++ (p, before) :: outer) pieces)
    (hp : p.BeginsWith c → p'.BeginsWith c) (pieces' : List Inline) :
    Keeps c old ((p', before) :: outer) pieces' := by
  have hskipped := h.skip hp
  obtain ⟨q, hq, hsuffix⟩ := hskipped.next
  have hold := h.first
  rw [bottom_skip] at hold
  refine ⟨hold, q, hq, hsuffix.trans ?_⟩
  rw [flatten, flatten_append]
  exact List.suffix_append _ _

lemma flatten (h : Keeps c old stack pieces) : Keeps c old [] (Markdown.flatten stack pieces) :=
  ⟨h.first.trans (bottom_suffix_flatten _ _), h.next⟩

end Keeps

end Stacks

section Brackets

variable {c : Option Char} {old : List Inline} {b : BracketScan}

def BracketScan.openings (b : BracketScan) : Openings :=
  b.brackets.map fun o => (o.text, o.before)

lemma BracketScan.forgetAll_eq (b : BracketScan) :
    b.forgetAll = ⟨[], flatten b.openings b.pieces⟩ := by
  obtain ⟨brackets, pieces⟩ := b
  unfold forgetAll openings
  induction brackets generalizing pieces with
  | nil => rfl
  | cons o os ih => exact ih _

def BracketScan.Keeps (c : Option Char) (old : List Inline) (b : BracketScan) : Prop :=
  Markdown.Keeps c old b.openings b.pieces

namespace BracketScan.Keeps

lemma add (h : b.Keeps c old) (p : Inline) : (b.add p).Keeps c old :=
  h.extend (List.suffix_cons p b.pieces)

lemma openBracket (h : b.Keeps c old) (image : Bool) (t : Token) :
    (b.openBracket image t).Keeps c old :=
  h.open _

variable {o : Bracket} {outer outer' : List Bracket}

/-- Whatever a bracket turns into comes behind the pieces before it. -/
lemma replace (h : b.Keeps c old) (hb : b.brackets = o :: outer)
    (houter : (BracketScan.mk outer' []).openings = (BracketScan.mk outer []).openings)
    {p : Inline} (hp : o.text.BeginsWith c → p.BeginsWith c) {pieces : List Inline}
    (hpieces : p :: o.before <:+ pieces) : (BracketScan.mk outer' pieces).Keeps c old := by
  have hopenings : b.openings = [] ++ (o.text, o.before) :: (BracketScan.mk outer' []).openings := by
    rw [houter, openings, hb]
    rfl
  unfold BracketScan.Keeps at h
  rw [hopenings] at h
  exact h.close hp hpieces

lemma forget (h : b.Keeps c old) : b.forget.Keeps c old := by
  unfold BracketScan.forget
  split
  · exact h
  · next o os hb => exact h.replace hb rfl id (List.suffix_append _ _)

lemma forgetAll (h : b.Keeps c old) : b.forgetAll.Keeps c old := by
  rw [forgetAll_eq]
  exact h.flatten

lemma close (h : b.Keeps c old) (hb : b.brackets = o :: outer) (form : LinkForm)
    (d : Definition) : (b.close o outer form d).Keeps c old := by
  unfold BracketScan.close
  dsimp only
  split
  · refine h.replace hb rfl ?_ (List.suffix_refl _)
    exact fun _ => trivial
  · refine h.replace hb ?_ ?_ (List.suffix_refl _)
    · simp [openings, Bracket.text]
    · exact fun _ => trivial

variable {ctx : TextContext}

lemma closeByText (h : b.Keeps c old) (hb : b.brackets = o :: outer) {form : LinkForm}
    {closing : Token} {after rest : List Token} {r : BracketScan × List Token}
    (hr : ctx.closeByText form o outer closing after rest b = some r) : r.1.Keeps c old := by
  unfold TextContext.closeByText at hr
  split at hr
  · cases hr
  split at hr
  · cases hr
  split at hr
  · split at hr
    · cases hr
      refine BracketScan.Keeps.forgetAll ?_
      split
      · next himage =>
        refine h.replace hb rfl (p := .text ['!']) (fun hbegins => ?_) (List.suffix_cons _ _)
        rw [Bracket.text, if_pos himage] at hbegins
        exact hbegins
      · refine h.replace hb rfl ?_ (List.suffix_refl _)
        exact fun _ => trivial
    · cases hr
  · obtain ⟨d, -, rfl⟩ := Option.map_eq_some_iff.mp hr
    exact h.close hb form d

lemma closeBracket (h : b.Keeps c old) (refers : Bool) (t : Token) (rest : List Token) :
    (ctx.closeBracket refers t rest b).1.Keeps c old := by
  have htext : (b.forget.add (.text [']'])).Keeps c old := h.forget.add _
  have hbyText {o : Bracket} {outer : List Bracket} (hb : b.brackets = o :: outer)
      (form : LinkForm) (after : List Token) :
      ((ctx.closeByText form o outer t after rest b).getD
        (b.forget.add (.text [']']), rest)).1.Keeps c old := by
    cases hr : ctx.closeByText form o outer t after rest b with
    | none => exact htext
    | some r => exact h.closeByText hb hr
  unfold TextContext.closeBracket
  dsimp only
  split
  · exact htext
  · next o outer hb =>
    split
    · exact htext
    split
    · exact h.close hb _ _
    split
    · split
      · exact htext
      split
      · exact h.close hb _ _
      · exact htext
    · split
      · exact htext
      · exact hbyText hb _ _
    · split
      · exact htext
      · exact hbyText hb _ _

lemma takeToken (h : b.Keeps c old) (t : Token) (rest : List Token) :
    (ctx.takeToken t rest b).1.Keeps c old := by
  unfold TextContext.takeToken
  dsimp only
  split
  · exact h.add _
  · exact h.add _
  · exact h.add _
  · split
    · exact h.add _
    · exact h.add _
  · unfold TextContext.backticks
    dsimp only
    split
    · exact h.add _
    · refine BracketScan.Keeps.add ?_ _
      split
      · exact h.add _
      · exact h
  · unfold TextContext.angle
    dsimp only
    split
    · exact h.add _
    split
    · exact h.add _
    split
    · exact h.add _
    · exact h.add _
  · exact h.openBracket _ t
  · exact h.openBracket _ t
  · exact h.closeBracket _ t rest
  · exact h.add _
  · exact h.add _

lemma takeTokensFuel (h : b.Keeps c old) (fuel : Nat) (ts : List Token) :
    (ctx.takeTokensFuel fuel ts b).Keeps c old := by
  induction fuel generalizing ts b with
  | zero => exact h
  | succ fuel ih =>
    cases ts with
    | nil => exact h
    | cons t rest => exact ih (h.takeToken t rest) _

end BracketScan.Keeps

/-- What a token stands for begins with `c` if it is a text in the end. -/
def TextContext.BeginsWith (ctx : TextContext) (c : Option Char) (t : Token) : Prop :=
  match t.kind with
  | .text _ | .dollar .. => (ctx.source.slice t.start t.stop).head? = c
  | .backticks _ => (ctx.source.slice t.start t.stop).head? = c ∧ c = some '\x60'
  | .synthetic value => value.head? = c
  | .delimiters mark .. => t.start < t.stop ∧ c = some mark
  | .angle => c = some '<'
  | .openBracket => c = some '['
  | .openImage => c = some '!'
  | .closeBracket _ => c = some ']'
  | .softBreak | .hardBreak _ => True

lemma keeps_add (p : Inline) (hp : p.BeginsWith c) :
    ((BracketScan.mk [] old).add p).Keeps c old :=
  ⟨List.suffix_cons p old, p, hp, List.suffix_refl _⟩

lemma keeps_openBracket (image : Bool) (t : Token)
    (hc : c = some (if image then '!' else '[')) :
    ((BracketScan.mk [] old).openBracket image t).Keeps c old := by
  refine ⟨List.suffix_refl _, _, ?_, List.suffix_refl _⟩
  rw [hc]
  cases image <;> rfl

/-- A formula is no text. -/
lemma math_beginsWith {s : Source} {prefixes : List LinePrefix} {inTable : Bool} {group : Nat}
    {t : Token} {rest : List Token} {r : Inline × List Token}
    (h : math? s prefixes inTable group t rest = some r) : r.1.BeginsWith c := by
  unfold math? at h
  dsimp only at h
  split at h
  · obtain ⟨⟨closer, canClose, after⟩, -, h⟩ := Option.bind_eq_some_iff.mp h
    dsimp only at h
    split at h
    · cases h
      trivial
    · cases h
  · obtain ⟨⟨closer, canClose, after⟩, -, h⟩ := Option.bind_eq_some_iff.mp h
    dsimp only at h
    split at h
    · cases h
      trivial
    · cases h

/-- The token right behind the first pieces. -/
lemma keeps_takeToken (ctx : TextContext) {t : Token} (ht : ctx.BeginsWith c t)
    (rest : List Token) : (ctx.takeToken t rest ⟨[], old⟩).1.Keeps c old := by
  obtain ⟨kind, start, stop⟩ := t
  unfold TextContext.takeToken
  dsimp only
  cases kind with
  | text escaped => exact keeps_add _ ht
  | synthetic value => exact keeps_add _ ht
  | delimiters mark canOpen canClose => exact keeps_add _ ⟨Nat.sub_pos_of_lt ht.1, ht.2⟩
  | dollar canOpen canClose group =>
    dsimp only
    split
    · next p after hmath =>
      split at hmath
      · exact keeps_add p (math_beginsWith hmath)
      · cases hmath
    · exact keeps_add _ ht
  | backticks escaped =>
    unfold TextContext.backticks
    dsimp only
    split
    · exact keeps_add _ ht.1
    · cases escaped with
      | false => exact keeps_add _ trivial
      | true => exact (keeps_add (.text ['\x60']) ht.2.symm).add _
  | angle =>
    unfold TextContext.angle
    dsimp only
    split
    · exact keeps_add _ ht.symm
    split
    · exact keeps_add _ trivial
    split
    · exact keeps_add _ trivial
    · exact keeps_add _ ht.symm
  | openBracket => exact keeps_openBracket _ _ ht
  | openImage => exact keeps_openBracket _ _ ht
  | closeBracket refers => exact keeps_add _ ht.symm
  | softBreak => exact keeps_add _ trivial
  | hardBreak backslash => exact keeps_add _ trivial

end Brackets

section Emphasis

variable {c : Option Char} {old : List Inline} {e : EmphasisScan}

def EmphasisScan.openings (e : EmphasisScan) : Openings :=
  e.openers.map fun o => (marksText o.mark o.count, o.before)

lemma EmphasisScan.finish_eq (e : EmphasisScan) :
    e.finish = (flatten e.openings e.pieces).reverse := by
  obtain ⟨openers, pieces, tildeBound⟩ := e
  unfold finish openings
  congr 1
  induction openers generalizing pieces with
  | nil => rfl
  | cons o os ih => exact ih _

/-- The openers have marks, and the first pieces stay what they are. -/
structure EmphasisScan.Keeps (c : Option Char) (old : List Inline) (e : EmphasisScan) : Prop where
  count_pos : ∀ o ∈ e.openers, 0 < o.count
  pieces : Markdown.Keeps c old e.openings e.pieces

lemma findOpener_openers {p : Opener → Bool} {bound : Nat} {openers outer : List Opener}
    {pieces inner : List Inline} {o : Opener}
    (h : findOpener p bound openers pieces = some (inner, o, outer)) :
    ∃ skipped, openers = skipped ++ o :: outer := by
  induction openers generalizing pieces with
  | nil => cases h
  | cons o' os ih =>
    rw [findOpener] at h
    split at h
    · cases h
    split at h
    · cases h
      exact ⟨[], rfl⟩
    · obtain ⟨skipped, rfl⟩ := ih h
      exact ⟨o' :: skipped, rfl⟩

lemma beginsWith_marksText {mark : Char} {m n : Nat} (hm : 0 < m) (hn : 0 < n)
    (h : (marksText mark m).BeginsWith c) : (marksText mark n).BeginsWith c := by
  obtain ⟨m, rfl⟩ := Nat.exists_eq_succ_of_ne_zero hm.ne'
  obtain ⟨n, rfl⟩ := Nat.exists_eq_succ_of_ne_zero hn.ne'
  exact h

/-- Marks around pieces make one span. -/
lemma exists_wrapSpan (mark : Char) {n : Nat} (hn : 0 < n) (inner : List Inline) :
    ∃ kind children, wrapSpan mark n inner = [.span kind children] := by
  induction n using Nat.strong_induction_on generalizing inner with
  | _ n ih =>
    match n with
    | 0 => exact absurd hn (lt_irrefl 0)
    | 1 => exact ⟨_, _, rfl⟩
    | 2 => exact ⟨_, _, rfl⟩
    | n + 3 => exact ih (n + 1) (by omega) (Nat.succ_pos n) _

namespace EmphasisScan.Keeps

lemma add (h : e.Keeps c old) (p : Inline) : (e.add p).Keeps c old :=
  ⟨h.count_pos, h.pieces.extend (List.suffix_cons p e.pieces)⟩

lemma openRun (h : e.Keeps c old) (mark : Char) {count : Nat} (hcount : 0 < count)
    (runLength : Nat) (both : Bool) :
    (EmphasisScan.mk (⟨mark, count, runLength, both, e.pieces⟩ :: e.openers) [] e.tildeBound).Keeps
      c old :=
  ⟨List.forall_mem_cons.mpr ⟨hcount, h.count_pos⟩, h.pieces.open _⟩

/-- An opener gives some of its marks to a span, or all of them. -/
lemma wrap (h : e.Keeps c old) {skipped outer : List Opener} {o : Opener}
    (hopeners : e.openers = skipped ++ o :: outer) (mark : Char) {n : Nat} (hn : 0 < n)
    (inner : List Inline) (bound : Nat) :
    (if n < o.count then
        (⟨{ o with count := o.count - n } :: outer, wrapSpan mark n inner, bound⟩ : EmphasisScan)
      else ⟨outer, wrapSpan mark n inner ++ o.before, bound⟩).Keeps c old := by
  have hpos := h.count_pos
  have hpieces := h.pieces
  rw [hopeners, List.forall_mem_append, List.forall_mem_cons] at hpos
  rw [openings, hopeners, List.map_append, List.map_cons] at hpieces
  split
  · refine ⟨List.forall_mem_cons.mpr ⟨Nat.sub_pos_of_lt ‹_›, hpos.2.2⟩, ?_⟩
    exact hpieces.reopen (beginsWith_marksText hpos.2.1 (Nat.sub_pos_of_lt ‹_›)) _
  · refine ⟨hpos.2.2, ?_⟩
    obtain ⟨kind, children, hwrap⟩ := exists_wrapSpan mark hn inner
    rw [hwrap]
    refine hpieces.close ?_ (List.suffix_refl _)
    exact fun _ => trivial

lemma closeFuel (h : e.Keeps c old) (mark : Char) (runLength : Nat) (both : Bool) (fuel : Nat)
    {count : Nat} (hcount : 0 < count) :
    (closeFuel mark runLength both fuel e count).1.Keeps c old := by
  induction fuel generalizing e count with
  | zero => exact h
  | succ fuel ih =>
    rw [EmphasisScan.closeFuel]
    dsimp only
    split
    · exact ⟨h.count_pos, h.pieces⟩
    · next inner o outer hfind =>
      obtain ⟨skipped, hopeners⟩ := findOpener_openers hfind
      have hpos : 0 < min count o.count :=
        Nat.lt_min.mpr ⟨hcount, h.count_pos o (by simp [hopeners])⟩
      have hwrap := fun bound => h.wrap hopeners mark hpos inner.reverse bound
      split
      · exact hwrap _
      · exact ih (hwrap _) (by omega)

lemma addRun (h : e.Keeps c old) (mark : Char) (runLength : Nat) (canOpen canClose : Bool) :
    (e.addRun mark runLength canOpen canClose).Keeps c old := by
  unfold EmphasisScan.addRun
  dsimp only
  have hclosed : (if canClose then
      EmphasisScan.closeFuel mark runLength (canOpen && canClose) runLength e runLength
      else (e, runLength)).1.Keeps c old := by
    split
    · rcases Nat.eq_zero_or_pos runLength with rfl | hpos
      · exact h
      · exact h.closeFuel _ _ _ _ hpos
    · exact h
  generalize (if canClose then
      EmphasisScan.closeFuel mark runLength (canOpen && canClose) runLength e runLength
      else (e, runLength)) = r at hclosed ⊢
  split
  · exact hclosed
  · next hcount =>
    split
    · exact hclosed.openRun mark (Nat.pos_of_ne_zero hcount) _ _
    · exact hclosed.add _

lemma emphasizeFrom (h : e.Keeps c old) (ps : List Inline) : (emphasizeFrom e ps).Keeps c old := by
  induction ps generalizing e with
  | nil =>
    rw [Markdown.emphasizeFrom]
    exact h
  | cons p ps ih =>
    cases p with
    | delimiters mark count canOpen canClose =>
      rw [Markdown.emphasizeFrom]
      exact ih (h.addRun _ _ _ _)
    | _ =>
      simp only [Markdown.emphasizeFrom]
      exact ih (h.add _)

end EmphasisScan.Keeps

lemma keeps_addPiece (p : Inline) (hp : p.BeginsWith c) :
    ((EmphasisScan.mk [] old 0).add p).Keeps c old :=
  ⟨nofun, List.suffix_cons p old, p, hp, List.suffix_refl _⟩

/-- Nothing is open yet that a run of marks could close. -/
lemma keeps_addRun {mark : Char} {count : Nat} (hcount : 0 < count) (hc : c = some mark)
    (canOpen canClose : Bool) :
    ((EmphasisScan.mk [] old 0).addRun mark count canOpen canClose).Keeps c old := by
  obtain ⟨n, rfl⟩ := Nat.exists_eq_succ_of_ne_zero hcount.ne'
  have hmarks : (marksText mark (n + 1)).BeginsWith c := hc.symm
  have hclosed : EmphasisScan.closeFuel mark (n + 1) (canOpen && canClose) (n + 1)
      ⟨[], old, 0⟩ (n + 1) = (⟨[], old, 0⟩, n + 1) := by
    rw [EmphasisScan.closeFuel]
    simp [findOpener]
  unfold EmphasisScan.addRun
  dsimp only
  rw [hclosed, ite_self]
  dsimp only
  rw [if_neg (Nat.succ_ne_zero n)]
  split
  · exact ⟨List.forall_mem_singleton.mpr hcount, List.suffix_refl _, _, hmarks, List.suffix_refl _⟩
  · exact keeps_addPiece _ hmarks

/-- A plain piece at the front stays there when emphasis is found. What comes right behind it may
be marked, but if it is a text it begins as before. -/
theorem prefix_emphasize {value : List Char} {p : Inline} (hp : p.BeginsWith c) (ps : List Inline) :
    ∃ q, q.BeginsWith c ∧ [.text value, q] <+: emphasize (.text value :: p :: ps) := by
  have hkeeps : (emphasizeFrom ⟨[], [.text value], 0⟩ (p :: ps)).Keeps c [.text value] := by
    cases p with
    | delimiters mark count canOpen canClose =>
      rw [emphasizeFrom]
      exact (keeps_addRun hp.1 hp.2 canOpen canClose).emphasizeFrom ps
    | text value' =>
      simp only [emphasizeFrom, emphasizePiece]
      exact (keeps_addPiece _ hp).emphasizeFrom ps
    | _ =>
      simp only [emphasizeFrom, emphasizePiece]
      refine EmphasisScan.Keeps.emphasizeFrom (keeps_addPiece _ ?_) ps
      trivial
  obtain ⟨q, hq, hsuffix⟩ := hkeeps.pieces.next
  refine ⟨q, hq, ?_⟩
  have hemphasize : emphasize (.text value :: p :: ps) =
      (emphasizeFrom ⟨[], [.text value], 0⟩ (p :: ps)).finish := by
    simp only [emphasize, emphasizeFrom]
    rfl
  rw [hemphasize, EmphasisScan.finish_eq, ← List.reverse_suffix, List.reverse_reverse]
  exact hsuffix

end Emphasis

section Content

variable {c : Option Char} {first t : Token} {rest : List Token} {escaped : Bool}
  {start stop : Nat}

lemma prefix_takeTokens (ctx : TextContext) (ht : ctx.BeginsWith c t) (rest : List Token) :
    ∃ q, q.BeginsWith c ∧ [.text (ctx.source.slice start stop), q] <+:
      ctx.takeTokens (⟨.text escaped, start, stop⟩ :: t :: rest) := by
  have hkeeps : (ctx.takeTokensFuel (rest.length + 2)
      (⟨.text escaped, start, stop⟩ :: t :: rest) .empty).Keeps c
        [.text (ctx.source.slice start stop)] :=
    (keeps_takeToken ctx ht rest).takeTokensFuel rest.length _
  obtain ⟨q, hq, hsuffix⟩ := hkeeps.forgetAll.next
  refine ⟨q, hq, ?_⟩
  rw [TextContext.takeTokens, ← List.reverse_suffix, List.reverse_reverse]
  exact hsuffix

/-- How running text is read in a block. -/
def Reading.context (r : Reading) (c : Content) : TextContext :=
  ⟨r.source.extract 0 c.stop, c.prefixes, c.inTable, r.dialect, r.references⟩

/-- A plain token at the front of a text is read as it is, and what comes right behind it is no text
or begins like the next token. -/
theorem content_eq_of_cons_cons (r : Reading) (content : Content)
    (htokens : content.tokens = ⟨.text escaped, start, stop⟩ :: t :: rest)
    (ht : (r.context content).BeginsWith c t) :
    ∃ q qs, q.BeginsWith c ∧ r.content content =
      Inline.eventsOf (.text ((r.context content).source.slice start stop) :: q :: qs) := by
  obtain ⟨p, hp, ps, htaken⟩ := prefix_takeTokens (r.context content) ht rest
  obtain ⟨q, hq, qs, hemphasized⟩ := prefix_emphasize hp ps
  refine ⟨q, qs, hq, ?_⟩
  have hcontent : r.content content =
      Inline.eventsOf (emphasize ((r.context content).takeTokens content.tokens)) := rfl
  rw [hcontent, htokens, ← htaken]
  exact congrArg Inline.eventsOf hemphasized.symm

/-- A plain token alone is read as it is. -/
lemma content_eq_of_singleton (r : Reading) (content : Content)
    (htokens : content.tokens = [⟨.text escaped, start, stop⟩]) :
    r.content content =
      Inline.eventsOf [.text ((r.context content).source.slice start stop)] := by
  have hcontent : r.content content =
      Inline.eventsOf (emphasize ((r.context content).takeTokens content.tokens)) := rfl
  rw [hcontent, htokens, emphasize]
  simp only [TextContext.takeTokens, TextContext.takeTokensFuel, TextContext.takeToken,
    BracketScan.add, BracketScan.empty, BracketScan.forgetAll, List.length_singleton,
    List.foldl_nil, List.reverse_singleton, emphasizeFrom, emphasizePiece, EmphasisScan.add,
    EmphasisScan.empty, EmphasisScan.finish]

end Content

end Folio.Markdown
