import Folio.Markdown.Block
import Mathlib.Tactic.Lemma

/-!
# The first tokens of a line

A line of text that opens with marks which mean nothing on their own begins with a token of plain
text. Either the token goes on beyond the marks, or something that ends a piece of text stands right
behind them, and then the next token shows what it is.
-/

namespace Folio.Markdown

namespace Source

variable {s : Source} {p : Char → Bool} {c : Char} {i j k next : Nat}

lemma le_skipWhileFuel (fuel : Nat) : i ≤ s.skipWhileFuel p fuel i := by
  induction fuel generalizing i with
  | zero => exact Nat.le_refl i
  | succ fuel ih =>
    rw [skipWhileFuel]
    split
    · split
      · exact Nat.le_of_succ_le ih
      · exact Nat.le_refl i
    · exact Nat.le_refl i

lemma le_skipWhile : i ≤ s.skipWhile p i :=
  le_skipWhileFuel _

lemma lt_skipWhile (hc : s[i]? = some c) (hp : p c = true) : i < s.skipWhile p i := by
  obtain ⟨hsize, -⟩ := Array.getElem?_eq_some_iff.mp hc
  obtain ⟨fuel, hfuel⟩ := Nat.exists_eq_succ_of_ne_zero (Nat.sub_ne_zero_of_lt hsize)
  rw [skipWhile, hfuel, skipWhileFuel, hc]
  simp only [hp, if_true]
  exact le_skipWhileFuel fuel

lemma runLength_pos (hc : s[i]? = some c) : 0 < s.runLength c i :=
  Nat.sub_pos_of_lt (lt_skipWhile hc (beq_self_eq_true c))

lemma skipBack_le (low i : Nat) : s.skipBack p low i ≤ i := by
  unfold skipBack
  induction i with
  | zero => exact Nat.le_refl 0
  | succ i ih =>
    rw [skipBackFuel]
    split
    · exact Nat.le_succ_of_le ih
    · exact Nat.le_refl _

/-- Skipping back stops behind a character that is not skipped. -/
lemma lt_skipBack (low : Nat) (hk : k < i) (hp : s[k]?.any p = false) :
    k < s.skipBack p low i := by
  unfold skipBack
  induction i with
  | zero => exact absurd hk (Nat.not_lt_zero k)
  | succ i ih =>
    rw [skipBackFuel]
    split
    · next hskip =>
      rw [Bool.and_eq_true] at hskip
      have hne : k ≠ i := by
        rintro rfl
        rw [hp] at hskip
        exact Bool.false_ne_true hskip.2
      exact ih (Nat.lt_of_le_of_ne (Nat.le_of_lt_succ hk) hne)
    · exact hk

lemma le_lineEnd (h : s.lineEnd? i = some next) : i ≤ next := by
  unfold lineEnd? at h
  split at h
  · cases h
    exact Nat.le_refl i
  · cases h
    exact Nat.le_succ i
  · split at h <;> cases h <;> omega
  · cases h

end Source

lemma lt_charReference {s : Source} {i stop : Nat} {text : List Char}
    (h : charReference? s i = some (text, stop)) : i < stop := by
  unfold charReference? at h
  split at h
  · generalize (s.hasAt (i + 2) 'x' || s.hasAt (i + 2) 'X') = hexadecimal at h
    cases hexadecimal
    all_goals
      simp only [Bool.false_eq_true, if_true, if_false] at h
      split at h
      · next hdigits =>
        rw [Bool.and_eq_true, decide_eq_true_eq] at hdigits
        cases h
        omega
      · cases h
  · dsimp only at h
    split at h
    · obtain ⟨value, -, heq⟩ := Option.map_eq_some_iff.mp h
      cases heq
      have hskip := Source.le_skipWhile (s := s) (p := Char.isAlphanum) (i := i + 1)
      omega
    · cases h

/-- The characters that end a piece of plain text in the middle of a line. -/
def markChars : List Char :=
  ['\\', '*', '_', '~', '$', '\x60', '<', '!', '[', ']', '&']

namespace TokenKind

def isBreak : TokenKind → Bool
  | softBreak | hardBreak _ => true
  | _ => false

/-- The character that a mark begins with. -/
def mark? : TokenKind → Option Char
  | delimiters mark _ _ => some mark
  | dollar .. => some '$'
  | backticks _ => some '\x60'
  | angle => some '<'
  | openBracket => some '['
  | openImage => some '!'
  | closeBracket _ => some ']'
  | text _ | synthetic _ | softBreak | hardBreak _ => none

end TokenKind

/-- The token behind a piece of plain text that ends at `k`, when the line has been read up to `j`:
what ends the piece stands there, a mark, a reference or an escape, or the line is broken. -/
inductive Behind (s : Source) (k j : Nat) : Token → Prop where
  | mark {kind : TokenKind} {stop : Nat} {c : Char} (hc : s[k]? = some c)
    (hkind : kind.mark? = some c) (hstop : k < stop) (hj : k < j) : Behind s k j ⟨kind, k, stop⟩
  | reference {value : List Char} {stop : Nat} (hc : s[k]? = some '&')
    (h : charReference? s k = some (value, stop)) : Behind s k j ⟨.synthetic value, k, stop⟩
  | escaped {kind : TokenKind} {stop : Nat} (h : isEscape s k = true)
    (hkind : (∃ e, kind = .text e) ∨ (kind = .backticks true ∧ s[k + 1]? = some '\x60'))
    (hstop : k + 1 < stop) (hj : k + 1 < j) : Behind s k j ⟨kind, k + 1, stop⟩
  | lineBreak {t : Token} (h : t.kind.isBreak = true) : Behind s k j t

lemma Behind.mono {s : Source} {k j j' : Nat} {t : Token} (h : Behind s k j t) (hj : j ≤ j') :
    Behind s k j' t := by
  cases h with
  | mark hc hkind hstop hlt => exact .mark hc hkind hstop (by omega)
  | reference hc h => exact .reference hc h
  | escaped h hkind hstop hlt => exact .escaped h hkind hstop (by omega)
  | lineBreak h => exact .lineBreak h

section ScanChar

variable {s : Source} {rules : LineRules} {l : LineScan} {i : Nat} {c : Char}

/-- What a step that ends the piece at hand at `i` can do: it adds a token, or begins a piece behind
a backslash. -/
inductive Ended (s : Source) (mode : PipeMode) (l : LineScan) (i : Nat) : LineScan × Nat → Prop where
  | token {l' : LineScan} {next : Nat} {t : Token} (ht : Behind s i next t)
    (htokens : l'.tokens = t :: (l.flush i).tokens) : Ended s mode l i (l', next)
  | escape {l' : LineScan} {next : Nat} (h : isEscape s i = true) (hnext : i + 1 < next)
    (htokens : l'.tokens = (l.flush i).tokens) (hpending : mode ≠ .cell → l'.pending = i + 1) :
    Ended s mode l i (l', next)

lemma Ended.tokens {mode : PipeMode} {r : LineScan × Nat} (h : Ended s mode l i r) :
    ∃ ts, r.1.tokens = ts ++ (l.flush i).tokens := by
  cases h with
  | token ht htokens => exact ⟨[_], htokens⟩
  | escape h hnext htokens => exact ⟨[], htokens⟩

/-- What a step within a line can do. It goes on by at least one character. Either it leaves the
tokens and the piece at hand as they are, or the piece ends. -/
structure Stepped (s : Source) (mode : PipeMode) (l : LineScan) (i : Nat) (c : Char)
    (r : LineScan × Nat) : Prop where
  forward : i < r.2
  one : c ∉ markChars → r.2 = i + 1
  tokens : (r.1.tokens = l.tokens ∧ r.1.pending = l.pending) ∨
    (c ∈ markChars ∧ Ended s mode l i r)

variable {mode : PipeMode}

lemma Stepped.plain {l' : LineScan} (h : l'.tokens = l.tokens ∧ l'.pending = l.pending) :
    Stepped s mode l i c (l', i + 1) :=
  ⟨Nat.lt_succ_self i, fun _ => rfl, .inl h⟩

lemma Stepped.skip {next : Nat} (hc : c ∈ markChars) (h : i < next) :
    Stepped s mode l i c (l, next) :=
  ⟨h, fun hnot => absurd hc hnot, .inl ⟨rfl, rfl⟩⟩

lemma Stepped.ended {r : LineScan × Nat} (hc : c ∈ markChars) (h : i < r.2)
    (hended : Ended s mode l i r) : Stepped s mode l i c r :=
  ⟨h, fun hnot => absurd hc hnot, .inr ⟨hc, hended⟩⟩

/-- A mark is a token of its own. -/
lemma Stepped.mark {kind : TokenKind} {next : Nat} {l' : LineScan} (hc : s[i]? = some c)
    (hmark : c ∈ markChars) (hkind : kind.mark? = some c) (h : i < next)
    (hl : l'.tokens = (l.mark kind i next).tokens) : Stepped s mode l i c (l', next) :=
  .ended hmark h (.token (.mark hc hkind h h) hl)

lemma stepped_scanBackslash (mode : PipeMode) :
    Stepped s mode l i '\\' (scanBackslash s mode l i) := by
  have hc : '\\' ∈ markChars := by decide
  unfold scanBackslash
  split
  · next hescape =>
    dsimp only
    split
    · next htick =>
      have htick : s[i + 1]? = some '\x60' := by simpa [Source.hasAt] using htick
      have hskip : i + 1 < s.skipWhile (· == '\x60') (i + 1) :=
        Source.lt_skipWhile htick (beq_self_eq_true _)
      exact .ended hc (by omega) (.token (.escaped hescape (.inr ⟨rfl, htick⟩) hskip hskip) rfl)
    split
    · next hcell =>
      have hmode : mode = .cell := of_decide_eq_true (Bool.and_eq_true_iff.mp hcell).1
      exact .ended hc (by omega) (.escape hescape (by omega) rfl fun h => absurd hmode h)
    · exact .ended hc (by omega) (.escape hescape (by omega) rfl fun _ => rfl)
  · exact .plain ⟨rfl, rfl⟩

lemma stepped_scanChar (rules : LineRules) (l : LineScan) (hc : s[i]? = some c) :
    Stepped s rules.mode l i c (scanChar s rules l i c) := by
  have hrun := Source.runLength_pos hc
  -- The three delimiters share one branch.
  have hdelimiters {plain taken opens closes : Bool} (hmark : c ∈ markChars) :
      Stepped s rules.mode l i c (if plain = true then (l, i + 1) else
        if taken = true then
          (l.mark (.delimiters c opens closes) i (i + s.runLength c i), i + s.runLength c i)
        else (l, i + s.runLength c i)) := by
    split
    · exact .plain ⟨rfl, rfl⟩
    split
    · exact .mark hc hmark rfl (by omega) rfl
    · exact .skip hmark (by omega)
  unfold scanChar
  dsimp only
  split
  · exact stepped_scanBackslash _
  · exact hdelimiters (by decide)
  · exact hdelimiters (by decide)
  · exact hdelimiters (by decide)
  · split
    · exact .mark hc (by decide) rfl (Nat.lt_succ_self i) rfl
    · exact .plain ⟨rfl, rfl⟩
  · split <;> exact .plain ⟨rfl, rfl⟩
  · split <;> exact .plain ⟨rfl, rfl⟩
  · exact .mark hc (by decide) rfl (by omega) rfl
  · split
    · exact .plain ⟨rfl, rfl⟩
    · exact .mark hc (by decide) rfl (Nat.lt_succ_self i) rfl
  · split
    · exact .mark hc (by decide) rfl (by omega) rfl
    · exact .plain ⟨rfl, rfl⟩
  · exact .mark hc (by decide) rfl (Nat.lt_succ_self i) rfl
  · exact .mark hc (by decide) rfl (Nat.lt_succ_self i) rfl
  · split
    · next hreference =>
      exact .ended (by decide) (lt_charReference hreference) (.token (.reference hc hreference) rfl)
    · exact .plain ⟨rfl, rfl⟩
  · split <;> exact .plain ⟨rfl, rfl⟩
  · exact .plain ⟨rfl, rfl⟩

end ScanChar

section Tokens

variable {i n m b : Nat} {ts : List Token}

/-- A property of lists of tokens, latest first, that further tokens and further text keep. -/
structure TokenClosed (P : List Token → Prop) : Prop where
  cons : ∀ t ts, P ts → P (t :: ts)
  addText : ∀ start stop escaped ts, P ts → P (addText start stop escaped ts)

lemma TokenClosed.append {P : List Token → Prop} (hP : TokenClosed P) (us : List Token)
    (h : P ts) : P (us ++ ts) := by
  induction us with
  | nil => exact h
  | cons u us ih => exact hP.cons u _ ih

/-- The first token is plain text from `i` to `m`, the second one satisfies `P`. -/
def PlainThen (P : Token → Prop) (i m : Nat) (ts : List Token) : Prop :=
  ∃ us t escaped, ts = us ++ [t, ⟨.text escaped, i, m⟩] ∧ P t

lemma addText_nil {start stop : Nat} (h : start < stop) (escaped : Bool) :
    addText start stop escaped [] = [⟨.text escaped, start, stop⟩] := by
  simp [addText, h]

/-- What adding a piece of text can do: nothing, one more token, or a longer first token. -/
lemma addText_cases (start stop : Nat) (escaped : Bool) (ts : List Token) :
    addText start stop escaped ts = ts ∨ (∃ t, addText start stop escaped ts = t :: ts) ∨
      ∃ e b rest, ts = ⟨.text e, b, start⟩ :: rest ∧ start < stop ∧
        addText start stop escaped ts = ⟨.text e, b, stop⟩ :: rest := by
  unfold Markdown.addText
  split
  · next hlt =>
    split
    · next e b m rest =>
      split
      · next hm =>
        subst hm
        exact .inr (.inr ⟨e, b, rest, rfl, hlt, rfl⟩)
      · exact .inr (.inl ⟨_, rfl⟩)
    · exact .inr (.inl ⟨_, rfl⟩)
  · exact .inl rfl

lemma plainThen_closed {P : Token → Prop}
    (hP : ∀ e b m m', P ⟨.text e, b, m⟩ → m < m' → P ⟨.text e, b, m'⟩) (i m : Nat) :
    TokenClosed (PlainThen P i m) := by
  have hcons (t : Token) (ts : List Token) (h : PlainThen P i m ts) :
      PlainThen P i m (t :: ts) := by
    obtain ⟨us, u, escaped, rfl, hu⟩ := h
    exact ⟨t :: us, u, escaped, rfl, hu⟩
  refine ⟨hcons, fun start stop escaped ts h => ?_⟩
  rcases addText_cases start stop escaped ts with heq | ⟨t, heq⟩ | ⟨e, b', rest, hts, hlt, heq⟩
  · rwa [heq]
  · rw [heq]
    exact hcons t ts h
  · rw [heq]
    obtain ⟨us, u, escaped', rfl, hu⟩ := h
    cases us with
    | nil =>
      cases hts
      exact ⟨[], _, escaped', rfl, hP _ _ _ _ hu hlt⟩
    | cons v us =>
      cases hts
      exact ⟨⟨.text e, b', stop⟩ :: us, u, escaped', rfl, hu⟩

lemma Behind.longer {s : Source} {k j b m m' : Nat} {e : Bool}
    (h : Behind s k j ⟨.text e, b, m⟩) (hm : m < m') : Behind s k j ⟨.text e, b, m'⟩ := by
  cases h with
  | mark hc hkind => cases hkind
  | escaped h hkind hstop hj => exact .escaped h hkind (by omega) hj
  | lineBreak h => cases h

end Tokens

section Line

variable {s : Source} {rules : LineRules} {l : LineScan} {i n j j' : Nat} {c : Char}
  {ts : List Token}

/-- The text at `i` opens with `n` marks. -/
structure MarkedLine (s : Source) (i n : Nat) : Prop where
  pos : 0 < n
  marks : ∀ k < n, s[i + k]? = some '#'

/-- When the line has been read up to `j`, a piece of plain text from `i` on ends at `m`, not in
front of the end of the marks. -/
structure Reached (s : Source) (i n j m : Nat) : Prop where
  marks : i + n ≤ m
  forward : m ≤ j
  size : i + n < m → i + n < s.size

/-- The first token is plain text, and the second one shows what ends it. -/
def Settled (s : Source) (i n j : Nat) (ts : List Token) : Prop :=
  ∃ m, Reached s i n j m ∧ PlainThen (Behind s m j) i m ts

/-- The first token is settled, or it is the only one. -/
def Begun (s : Source) (i n j : Nat) (ts : List Token) : Prop :=
  Settled s i n j ts ∨ ∃ m escaped, Reached s i n j m ∧ ts = [⟨.text escaped, i, m⟩]

lemma settled_closed (s : Source) (i n j : Nat) : TokenClosed (Settled s i n j) := by
  have hclosed (m : Nat) := plainThen_closed (P := Behind s m j) (fun _ _ _ _ => Behind.longer) i m
  exact ⟨fun t ts ⟨m, hm, hts⟩ => ⟨m, hm, (hclosed m).cons t ts hts⟩,
    fun b e escaped ts ⟨m, hm, hts⟩ => ⟨m, hm, (hclosed m).addText b e escaped ts hts⟩⟩

lemma Settled.mono (h : Settled s i n j ts) (hj : j ≤ j') : Settled s i n j' ts := by
  obtain ⟨m, hm, us, t, escaped, rfl, ht⟩ := h
  exact ⟨m, ⟨hm.marks, Nat.le_trans hm.forward hj, hm.size⟩, us, t, escaped, rfl, ht.mono hj⟩

lemma Begun.mono (h : Begun s i n j ts) (hj : j ≤ j') : Begun s i n j' ts := by
  refine h.imp (·.mono hj) ?_
  rintro ⟨m, escaped, hm, rfl⟩
  exact ⟨m, escaped, ⟨hm.marks, Nat.le_trans hm.forward hj, hm.size⟩, rfl⟩

lemma Begun.cons_break (h : Begun s i n j ts) {t : Token} (ht : t.kind.isBreak = true) :
    Settled s i n j (t :: ts) := by
  rcases h with h | ⟨m, escaped, hm, rfl⟩
  · exact (settled_closed s i n j).cons t ts h
  · exact ⟨m, hm, [], t, escaped, rfl, .lineBreak ht⟩

/-- A line has been scanned up to `j`. All is in the piece at hand, or the first token is settled,
or the piece at hand begins behind an escape right behind the first token. -/
structure Scanned (s : Source) (i n j : Nat) (l : LineScan) : Prop where
  forward : i ≤ j
  size : i + n < j → i + n < s.size
  first : (l.tokens = [] ∧ l.pending = i) ∨ Settled s i n j l.tokens ∨
    ∃ m escaped, Reached s i n j m ∧ isEscape s m = true ∧ m + 1 < j ∧ l.pending = m + 1 ∧
      l.tokens = [⟨.text escaped, i, m⟩]

lemma settled_of_escape {m stop : Nat} (hm : Reached s i n j m) (hescape : isEscape s m = true)
    (hstop : m + 1 < stop) (hj : m + 1 < j) (e escaped : Bool) :
    Settled s i n j [⟨.text e, m + 1, stop⟩, ⟨.text escaped, i, m⟩] :=
  ⟨m, hm, [], _, escaped, rfl, .escaped hescape (.inl ⟨e, rfl⟩) hstop hj⟩

/-- The piece at hand is ended somewhere behind the marks. -/
lemma Scanned.flush (hline : MarkedLine s i n) (h : Scanned s i n j l) {stop : Nat}
    (hstop : i + n ≤ stop) (hle : stop ≤ j) : Begun s i n j (l.flush stop).tokens := by
  have hpos := hline.pos
  rcases h.first with ⟨htokens, hpending⟩ | hsettled |
    ⟨m, escaped, hm, hescape, hlt, hpending, htokens⟩
  · refine .inr ⟨stop, l.escaped, ⟨hstop, hle, fun _ => h.size (by omega)⟩, ?_⟩
    rw [LineScan.flush, htokens, hpending, addText_nil (by omega)]
  · exact .inl ((settled_closed s i n j).addText _ _ _ _ hsettled)
  · rw [LineScan.flush, htokens, hpending, addText]
    split
    · next hbeyond =>
      simp only [Nat.ne_of_lt (Nat.lt_succ_self m), if_false]
      exact .inl (settled_of_escape hm hescape hbeyond hlt _ _)
    · exact .inr ⟨m, escaped, hm, rfl⟩

/-- A line is read beyond something that ends the piece at hand. -/
lemma Scanned.ended {mode : PipeMode} {r : LineScan × Nat} (hline : MarkedLine s i n)
    (h : Scanned s i n j l) (hj : i + n ≤ j) (hforward : j < r.2) (hmode : mode ≠ .cell)
    (hsize : i + n < s.size) (hended : Ended s mode l j r) : Scanned s i n r.2 r.1 := by
  have hpos := hline.pos
  refine ⟨by omega, fun _ => hsize, .inr ?_⟩
  have hsettled (hflushed : Settled s i n j (l.flush j).tokens) : Settled s i n r.2 r.1.tokens := by
    obtain ⟨ts, htokens⟩ := hended.tokens
    rw [htokens]
    exact ((settled_closed s i n j).append ts hflushed).mono (Nat.le_of_lt hforward)
  rcases h.first with ⟨htokens, hpending⟩ | hfirst |
    ⟨m, escaped, hm, hescape, hlt, hpending, htokens⟩
  · have hflush : (l.flush j).tokens = [⟨.text l.escaped, i, j⟩] := by
      rw [LineScan.flush, htokens, hpending, addText_nil (by omega)]
    have hm : Reached s i n r.2 j := ⟨hj, Nat.le_of_lt hforward, fun _ => hsize⟩
    cases hended with
    | token ht htokens =>
      left
      rw [htokens, hflush]
      exact ⟨j, hm, [], _, l.escaped, rfl, ht⟩
    | escape hescape hnext htokens hpending =>
      exact .inr ⟨j, l.escaped, hm, hescape, hnext, hpending hmode, htokens.trans hflush⟩
  · exact .inl (hsettled ((settled_closed s i n j).addText _ _ _ _ hfirst))
  · refine .inl (hsettled ?_)
    rw [LineScan.flush, htokens, hpending, addText, if_pos hlt]
    simp only [Nat.ne_of_lt (Nat.lt_succ_self m), if_false]
    exact settled_of_escape hm hescape hlt hlt _ _

/-- A line is read on within the piece at hand. -/
lemma Scanned.plain {l' : LineScan} {next : Nat} (h : Scanned s i n j l) (hj : j ≤ next)
    (hsize : i + n < next → i + n < s.size) (htokens : l'.tokens = l.tokens)
    (hpending : l'.pending = l.pending) : Scanned s i n next l' := by
  refine ⟨Nat.le_trans h.forward hj, hsize, ?_⟩
  rw [htokens, hpending]
  refine h.first.imp id (Or.imp (·.mono hj) ?_)
  rintro ⟨m, escaped, hm, hescape, hlt, hrest⟩
  exact ⟨m, escaped, ⟨hm.marks, Nat.le_trans hm.forward hj, hm.size⟩, hescape, by omega, hrest⟩

lemma Scanned.step (hline : MarkedLine s i n) (hmode : rules.mode ≠ .cell)
    (h : Scanned s i n j l) (hc : s[j]? = some c) :
    Scanned s i n (scanChar s rules l j c).2 (scanChar s rules l j c).1 := by
  have hstep := stepped_scanChar rules l hc
  have hforward := hstep.forward
  have hend := (Array.getElem?_eq_some_iff.mp hc).1
  by_cases hj : i + n ≤ j
  · rcases hstep.tokens with ⟨htokens, hpending⟩ | ⟨-, hended⟩
    · exact h.plain (Nat.le_of_lt hforward) (fun _ => by omega) htokens hpending
    · exact h.ended hline hj hforward hmode (by omega) hended
  · obtain ⟨k, rfl⟩ := Nat.exists_eq_add_of_le h.forward
    have hmark := hline.marks k (by omega)
    rw [hmark] at hc
    cases hc
    have hplain : '#' ∉ markChars := by decide
    have hone := hstep.one hplain
    rcases hstep.tokens with ⟨htokens, hpending⟩ | ⟨hnot, -⟩
    · exact h.plain (Nat.le_of_lt hforward) (fun _ => by omega) htokens hpending
    · exact absurd hnot hplain

/-- What is known of the first token when a line has been scanned and `next` is the position
behind it. A backslash at its end may still become text. -/
inductive LineOutcome (s : Source) (i n next : Nat) (tokens : List Token) : LineEnd → Prop where
  | table (columns : Nat) : LineOutcome s i n next tokens (.table columns)
  | broken {t : Token} (hnext : i + n ≤ next) (ht : t.kind.isBreak = true)
    (h : Begun s i n next tokens)
    (hended : t.kind = .hardBreak true →
      Begun s i n next (addText t.start (t.start + 1) false tokens)) :
    LineOutcome s i n next tokens (.broken t)
  | cut (hnext : i + n ≤ next) (h : Begun s i n next tokens) (hsize : s.size ≤ next) :
    LineOutcome s i n next tokens .cut

/-- A marked line ends behind its marks. -/
lemma MarkedLine.le_end (hline : MarkedLine s i n) (hij : i ≤ j)
    (hend : s[j]?.all (fun c => c == '\n' || c == '\r') = true) : i + n ≤ j := by
  rcases Nat.lt_or_ge j (i + n) with hlt | hge
  · obtain ⟨k, rfl⟩ := Nat.exists_eq_add_of_le hij
    rw [hline.marks k (by omega)] at hend
    cases hend
  · exact hge

/-- Skipping back from behind the marks stops there at the latest. -/
lemma MarkedLine.le_skipBack (hline : MarkedLine s i n) {p : Char → Bool} (hp : p '#' = false)
    (hj : i + n ≤ j) (low : Nat) : i + n ≤ s.skipBack p low j := by
  have hpos := hline.pos
  have hlast : s[i + (n - 1)]?.any p = false := by
    rw [hline.marks (n - 1) (by omega), Option.any_some, hp]
  have hlt := Source.lt_skipBack low (i := j) (by omega) hlast
  omega

/-- The scan at the end of the source. -/
lemma Scanned.cut (hline : MarkedLine s i n) (h : Scanned s i n j l) (hsize : s.size ≤ j) :
    LineOutcome s i n j (l.flush (max l.pending (s.skipBack isInlineBlank l.pending j))).tokens
      .cut := by
  have hj : i + n ≤ j := hline.le_end h.forward (by rw [Array.getElem?_eq_none hsize]; rfl)
  have hskip := hline.le_skipBack (p := isInlineBlank) (by decide) hj l.pending
  have hback := Source.skipBack_le (s := s) (p := isInlineBlank) l.pending j
  refine .cut hj ?_ hsize
  rcases h.first with ⟨-, hpending⟩ | hsettled | ⟨m, -, hm, -, hlt, hpending, -⟩
  · exact h.flush hline (by omega) (by omega)
  · exact .inl ((settled_closed s i n j).addText _ _ _ _ hsettled)
  · exact h.flush hline (by omega) (by omega)

/-- A backslash at the end of the line is text if the paragraph ends with it. -/
lemma Scanned.flush_backslash (hline : MarkedLine s i n) (h : Scanned s i n j l)
    (hj : i + n < j) :
    Begun s i n j (addText (j - 1) (j - 1 + 1) false (l.flush (j - 1)).tokens) := by
  have hpos := hline.pos
  have hlast : j - 1 + 1 = j := by omega
  rw [hlast]
  rcases h.first with ⟨htokens, hpending⟩ | hsettled |
    ⟨m, escaped, hm, hescape, hlt, hpending, htokens⟩
  · refine .inr ⟨j, l.escaped, ⟨by omega, Nat.le_refl j, fun _ => h.size hj⟩, ?_⟩
    rw [LineScan.flush, htokens, hpending, addText_nil (by omega), addText, if_pos (by omega)]
    simp
  · exact .inl ((settled_closed s i n j).addText _ _ _ _
      ((settled_closed s i n j).addText _ _ _ _ hsettled))
  · have hne := Nat.ne_of_lt (Nat.lt_succ_self m)
    rw [LineScan.flush, htokens, hpending]
    rcases Nat.eq_or_lt_of_le (show m + 1 ≤ j - 1 by omega) with heq | hbeyond
    · rw [← heq]
      simp only [addText, Nat.lt_irrefl, if_false, hlt, if_true, hne]
      exact .inl (settled_of_escape hm hescape hlt hlt _ _)
    · simp only [addText, hbeyond, if_true, hne, if_false, show j - 1 < j by omega]
      exact .inl (settled_of_escape hm hescape hlt hlt _ _)

/-- The scan at a line end. -/
lemma Scanned.endLine (hline : MarkedLine s i n) (h : Scanned s i n j l)
    (hmode : rules.mode ≠ .cell) (hc : s[j]? = some c)
    (hend : (c == '\n' || c == '\r') = true) :
    LineOutcome s i n (endLine s rules l j).2.1 (endLine s rules l j).1.tokens
      (endLine s rules l j).2.2 := by
  have hend : s[j]?.all (fun c => c == '\n' || c == '\r') = true := by
    rw [hc]
    exact hend
  have hj := hline.le_end h.forward hend
  have hnext : j ≤ (s.lineEnd? j).getD j := by
    cases hnext : s.lineEnd? j with
    | none => exact Nat.le_refl j
    | some next => exact Source.le_lineEnd hnext
  unfold Markdown.endLine
  rw [if_neg hmode]
  split
  · exact .table _
  · dsimp only
    split
    · next hbackslash =>
      rw [Bool.and_eq_true, decide_eq_true_eq] at hbackslash
      -- The marks are no backslashes, so that there is one behind them.
      have hback := hline.le_skipBack (p := (· == '\\')) (by decide) hj 0
      have hbeyond : i + n < j := by omega
      refine .broken (Nat.le_trans hj hnext) rfl ?_ fun _ => ?_
      · exact (h.flush hline (by omega) (Nat.sub_le j 1)).mono hnext
      · exact (h.flush_backslash hline hbeyond).mono hnext
    have hle := Source.skipBack_le (s := s) (p := isInlineBlank) 0 j
    have hstop : j - (j - s.skipBack isInlineBlank 0 j) = s.skipBack isInlineBlank 0 j := by omega
    have hbegun := (h.flush hline (hline.le_skipBack (by decide) hj 0) hle).mono hnext
    rw [hstop]
    split
    · exact .broken (Nat.le_trans hj hnext) rfl hbegun nofun
    · exact .broken (Nat.le_trans hj hnext) rfl hbegun nofun

/-- The scan of a marked line, from the marks on or from further behind. -/
lemma Scanned.outcome (hline : MarkedLine s i n) (hmode : rules.mode ≠ .cell) {fuel : Nat}
    (h : Scanned s i n j l) (hfuel : s.size ≤ fuel + j) :
    LineOutcome s i n (scanLineFuel s rules fuel l j).2.1
      (scanLineFuel s rules fuel l j).1.tokens (scanLineFuel s rules fuel l j).2.2 := by
  induction fuel generalizing l j with
  | zero =>
    rw [Nat.zero_add] at hfuel
    exact h.cut hline hfuel
  | succ fuel ih =>
    rw [scanLineFuel]
    split
    · next hnone => exact h.cut hline (Array.getElem?_eq_none_iff.mp hnone)
    · next c hc =>
      split
      · next hend => exact h.endLine hline hmode hc hend
      split
      · next hcell => simp [hmode] at hcell
      · have hforward := (stepped_scanChar rules l hc).forward
        have hrest : s.size ≤ fuel + (scanChar s rules l j c).2 := by omega
        exact ih (h.step hline hmode hc) hrest

/-- The first token of a paragraph that opens with a marked line. -/
theorem scanLine_outcome (hline : MarkedLine s rules.start n) (hmode : rules.mode ≠ .cell)
    (braces : Braces) :
    LineOutcome s rules.start n (scanLine s rules [] braces).2.2.1 (scanLine s rules [] braces).1
      (scanLine s rules [] braces).2.2.2 :=
  Scanned.outcome hline hmode ⟨Nat.le_refl _, fun h => by omega, .inl ⟨rfl, rfl⟩⟩ (by omega)

lemma TokenClosed.flush {P : List Token → Prop} (hP : TokenClosed P) (h : P l.tokens)
    (stop : Nat) : P (l.flush stop).tokens :=
  hP.addText _ _ _ _ h

lemma TokenClosed.endLine {P : List Token → Prop} (hP : TokenClosed P) (h : P l.tokens) :
    P (endLine s rules l j).1.tokens := by
  unfold Markdown.endLine
  split
  · exact hP.flush h _
  split
  · exact h
  · dsimp only
    split
    · exact hP.flush h _
    split
    · exact hP.flush h _
    · exact hP.flush h _

lemma TokenClosed.scanLineFuel {P : List Token → Prop} (hP : TokenClosed P) (fuel : Nat)
    (h : P l.tokens) : P (scanLineFuel s rules fuel l j).1.tokens := by
  induction fuel generalizing l j with
  | zero => exact hP.flush h _
  | succ fuel ih =>
    rw [Markdown.scanLineFuel]
    split
    · exact hP.flush h _
    · next c hc =>
      split
      · exact hP.endLine h
      split
      · exact hP.flush h _
      · have hstep : P (scanChar s rules l j c).1.tokens := by
          rcases (stepped_scanChar rules l hc).tokens with ⟨htokens, -⟩ | ⟨-, hended⟩
          · rwa [htokens]
          · obtain ⟨ts, htokens⟩ := hended.tokens
            rw [htokens]
            exact hP.append ts (hP.flush h j)
        exact ih hstep

/-- Scanning a line keeps what further tokens and further text keep. -/
lemma TokenClosed.scanLine {P : List Token → Prop} (hP : TokenClosed P) {tokens : List Token}
    (h : P tokens) (braces : Braces) : P (scanLine s rules tokens braces).1 :=
  hP.scanLineFuel _ h

lemma le_endLine (hend : ∀ columns, (Markdown.endLine s rules l j).2.2 ≠ .table columns) :
    j ≤ (Markdown.endLine s rules l j).2.1 := by
  have hnext : j ≤ (s.lineEnd? j).getD j := by
    cases hnext : s.lineEnd? j with
    | none => exact Nat.le_refl j
    | some next => exact Source.le_lineEnd hnext
  unfold Markdown.endLine at hend ⊢
  split
  · exact Nat.le_refl j
  · next hmode =>
    rw [if_neg hmode] at hend
    split
    · next heq =>
      rw [heq] at hend
      exact absurd rfl (hend _)
    · dsimp only
      split
      · exact hnext
      split
      · exact hnext
      · exact hnext

lemma le_scanLineFuel (fuel : Nat)
    (hend : ∀ columns, (scanLineFuel s rules fuel l j).2.2 ≠ .table columns) :
    j ≤ (scanLineFuel s rules fuel l j).2.1 := by
  induction fuel generalizing l j with
  | zero => exact Nat.le_refl j
  | succ fuel ih =>
    rw [scanLineFuel] at hend ⊢
    split
    · exact Nat.le_refl j
    · next c hc =>
      simp only [hc] at hend
      split
      · next hnewline =>
        rw [if_pos hnewline] at hend
        exact le_endLine hend
      · next hnewline =>
        rw [if_neg hnewline] at hend
        split
        · exact Nat.le_refl j
        · next hcell =>
          rw [if_neg hcell] at hend
          have hforward := (stepped_scanChar rules l hc).forward
          exact Nat.le_trans (Nat.le_of_lt hforward) (ih hend)

/-- The position behind a line that is no header of a table is not in front of it. -/
lemma le_scanLine {tokens : List Token} {braces : Braces}
    (hend : ∀ columns, (scanLine s rules tokens braces).2.2.2 ≠ .table columns) :
    rules.start ≤ (scanLine s rules tokens braces).2.2.1 :=
  le_scanLineFuel _ hend

end Line

end Folio.Markdown
