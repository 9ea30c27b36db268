import Folio.Proofs.RelocatedPieces

/-!
# Lines behind a front

A line is cut into the same tokens when more plain text is put in front of it, if a blank separates
the two. Only the first token is another one: it begins where the text in front does.
-/

namespace Folio.Markdown

variable {front s : Source} {p : Nat}

/-- The tokens of a line that begins at `p`, latest first, and those of the same line behind a
front that belongs to the line as plain text. -/
inductive Headed (front : Source) (p : Nat) : List Token → List Token → Prop where
  | front : Headed front p [] [⟨.text false, 0, front.size + p⟩]
  | text (escaped : Bool) {stop : Nat} (hstop : p ≤ stop) :
    Headed front p [⟨.text escaped, p, stop⟩] [⟨.text escaped, 0, front.size + stop⟩]
  | cons {ts ts' : List Token} (t : Token) (hstart : p ≤ t.start) (hstop : p ≤ t.stop)
    (h : Headed front p ts ts') : Headed front p (t :: ts) (t.behind front :: ts')

section Tokens

variable {start stop : Nat} {ts ts' : List Token}

lemma addText_of_stop_ne {e : Bool} {b m : Nat} (hm : m ≠ start) (escaped : Bool) :
    addText start stop escaped (⟨.text e, b, m⟩ :: ts) =
      if start < stop then ⟨.text escaped, start, stop⟩ :: ⟨.text e, b, m⟩ :: ts
      else ⟨.text e, b, m⟩ :: ts := by
  simp only [addText, if_neg hm]

lemma addText_of_stop_eq {e : Bool} {b : Nat} (h : start < stop) (escaped : Bool) :
    addText start stop escaped (⟨.text e, b, start⟩ :: ts) = ⟨.text e, b, stop⟩ :: ts := by
  rw [addText, if_pos h, if_pos rfl]

lemma addText_of_le (h : stop ≤ start) (escaped : Bool) : addText start stop escaped ts = ts := by
  unfold Markdown.addText
  exact if_neg (Nat.not_lt_of_le h)

lemma addText_of_not_text (h : start < stop) (escaped : Bool) {t : Token}
    (ht : ∀ e, t.kind ≠ .text e) :
    addText start stop escaped (t :: ts) = ⟨.text escaped, start, stop⟩ :: t :: ts := by
  obtain ⟨kind, b, m⟩ := t
  unfold Markdown.addText
  rw [if_pos h]
  cases kind with
  | text e => exact absurd rfl (ht e)
  | _ => rfl

lemma Headed.addText (h : Headed front p ts ts') (hp : p < start) (escaped : Bool) :
    Headed front p (addText start stop escaped ts)
      (addText (front.size + start) (front.size + stop) escaped ts') := by
  rcases Nat.lt_or_ge start stop with hlt | hge
  case inr =>
    rw [addText_of_le hge, addText_of_le (by omega)]
    exact h
  have hlt' : front.size + start < front.size + stop := by omega
  have hadd {ts ts' : List Token} (h : Headed front p ts ts') :
      Headed front p (⟨.text escaped, start, stop⟩ :: ts)
        (⟨.text escaped, front.size + start, front.size + stop⟩ :: ts') :=
    .cons ⟨.text escaped, start, stop⟩ (by dsimp only; omega) (by dsimp only; omega) h
  cases h with
  | front =>
    rw [addText_nil hlt, addText_of_stop_ne (by omega), if_pos hlt']
    exact hadd .front
  | @text e m hm =>
    by_cases heq : m = start
    · subst heq
      rw [addText_of_stop_eq hlt, addText_of_stop_eq hlt']
      exact .text e (by omega)
    · rw [addText_of_stop_ne heq, if_pos hlt, addText_of_stop_ne (by omega), if_pos hlt']
      exact hadd (.text e hm)
  | @cons ts ts' t hstart hstop h =>
    have hall : Headed front p (t :: ts) (t.behind front :: ts') := .cons t hstart hstop h
    obtain ⟨kind, b, m⟩ := t
    cases kind with
    | text e =>
      dsimp only [Token.behind] at hall ⊢
      by_cases heq : m = start
      · subst heq
        rw [addText_of_stop_eq hlt, addText_of_stop_eq hlt']
        exact .cons ⟨.text e, b, stop⟩ hstart (by dsimp only; omega) h
      · rw [addText_of_stop_ne heq, if_pos hlt, addText_of_stop_ne (by omega), if_pos hlt']
        exact hadd hall
    | _ =>
      rw [addText_of_not_text hlt _ (by simp), addText_of_not_text hlt' _ (by simp)]
      exact hadd hall

/-- The tokens that are cut off a line lie in it. -/
lemma Headed.le_of_mem (h : Headed front p ts ts') {t : Token} (ht : t ∈ ts) :
    p ≤ t.start ∧ p ≤ t.stop := by
  induction h with
  | front => cases ht
  | text escaped hstop =>
    obtain rfl := List.mem_singleton.mp ht
    exact ⟨Nat.le_refl p, hstop⟩
  | cons u hstart hstop h ih =>
    rcases List.mem_cons.mp ht with rfl | ht
    · exact ⟨hstart, hstop⟩
    · exact ih ht

/-- The first token of the line behind the front, and the tokens behind it. -/
lemma Headed.exists_reverse (h : Headed front p ts ts') :
    ∃ rest escaped stop, p ≤ stop ∧
      ts'.reverse = ⟨.text escaped, 0, front.size + stop⟩ :: rest.map (Token.behind front) ∧
      ((ts.reverse = rest ∧ stop = p) ∨ ts.reverse = ⟨.text escaped, p, stop⟩ :: rest) := by
  induction h with
  | front => exact ⟨[], false, p, Nat.le_refl p, rfl, .inl ⟨rfl, rfl⟩⟩
  | @text escaped stop hstop => exact ⟨[], escaped, stop, hstop, rfl, .inr rfl⟩
  | @cons ts ts' t _ _ h ih =>
    obtain ⟨rest, escaped, stop, hstop, hts', hts⟩ := ih
    refine ⟨rest ++ [t], escaped, stop, hstop, ?_, ?_⟩
    · rw [List.reverse_cons, hts', List.map_append]
      rfl
    · rw [List.reverse_cons]
      rcases hts with ⟨rfl, hstop⟩ | hts
      · exact .inl ⟨rfl, hstop⟩
      · exact .inr (by rw [hts]; rfl)

end Tokens

section Delimiters

variable {mode mode' : PipeMode} {mark prev : Char} {n i start : Nat}

lemma getElem?_before_behind (front s : Source) (hi : 0 < i) :
    (front ++ s)[front.size + i - 1]? = s[i - 1]? := by
  rw [Nat.add_sub_assoc hi, getElem?_behind]

/-- Whether marks can open a span is not a matter of what is in front of the blank before. -/
lemma canOpen_behind (hmode : mode ≠ .cell) (hmode' : mode' ≠ .cell) (hp : 0 < p)
    (hprev : s[p - 1]? = some prev) (hblank : Text.isBlank prev = true)
    (hstart : start < front.size + p) (hi : p ≤ i) :
    canOpen (front ++ s) mode' mark start n (front.size + i) = canOpen s mode mark p n i := by
  have hne : front.size + i ≠ start := by omega
  simp only [canOpen, Nat.add_assoc, getElem?_behind, hmode, hmode', if_neg hne, decide_false,
    Bool.false_and, Bool.false_eq_true, if_false, getElem?_before_behind front s (by omega : 0 < i)]
  cases s[i + n]? with
  | none => rfl
  | some next =>
    dsimp only
    by_cases hip : i = p
    · subst hip
      simp [hprev, hblank]
    · rw [if_neg hip]

lemma canClose_behind (hmode : mode ≠ .cell) (hmode' : mode' ≠ .cell) (hp : 0 < p)
    (hprev : s[p - 1]? = some prev) (hblank : Text.isBlank prev = true)
    (hstart : start < front.size + p) (hi : p ≤ i) :
    canClose (front ++ s) mode' mark start n (front.size + i) = canClose s mode mark p n i := by
  have hne : front.size + i ≠ start := by omega
  simp only [canClose, Nat.add_assoc, getElem?_behind, hmode, hmode', if_neg hne, decide_false,
    Bool.false_and, Bool.false_eq_true, if_false, getElem?_before_behind front s (by omega : 0 < i)]
  by_cases hip : i = p
  · subst hip
    simp [hprev, hblank]
  · rw [if_neg hip]

end Delimiters

section Steps

variable {l l' : LineScan} {i : Nat}

/-- Two lines at the same place, one of them behind a front: either all in them is plain text so
far, or the same tokens have been cut off behind the front. -/
structure Follows (front : Source) (p i : Nat) (l l' : LineScan) : Prop where
  braces : l'.braces = l.braces
  escaped : l'.escaped = l.escaped
  reached : p ≤ i
  pending : l.pending ≤ i
  tokens : (l.tokens = [] ∧ l'.tokens = [] ∧ l.pending = p ∧ l'.pending = 0 ∧ l.escaped = false) ∨
    (p < l.pending ∧ l'.pending = front.size + l.pending ∧ Headed front p l.tokens l'.tokens)

/-- The same step on both lines. -/
structure FollowsStep (front : Source) (p : Nat) (r r' : LineScan × Nat) : Prop where
  next : r'.2 = front.size + r.2
  lines : Follows front p r.2 r.1 r'.1

lemma Follows.plain (h : Follows front p i l l') {next : Nat} (hi : i ≤ next) :
    FollowsStep front p (l, next) (l', front.size + next) :=
  ⟨rfl, ⟨h.braces, h.escaped, Nat.le_trans h.reached hi, Nat.le_trans h.pending hi, h.tokens⟩⟩

lemma Follows.flush (hfront : 0 < front.size) (h : Follows front p i l l') {stop : Nat}
    (hstop : p ≤ stop) :
    Headed front p (l.flush stop).tokens (l'.flush (front.size + stop)).tokens := by
  have hescaped := h.escaped
  rcases h.tokens with ⟨hts, hts', hpending, hpending', hplain⟩ | ⟨hp, hpending', hts⟩
  · rw [hplain] at hescaped
    simp only [LineScan.flush, hts, hts', hpending, hpending', hescaped, hplain]
    have hfirst : addText 0 (front.size + stop) false [] = [⟨.text false, 0, front.size + stop⟩] :=
      addText_nil (by omega) false
    rw [hfirst]
    rcases Nat.lt_or_eq_of_le hstop with hlt | rfl
    · rw [addText_nil hlt]
      exact .text false hstop
    · rw [addText_of_le (Nat.le_refl _)]
      exact .front
  · simp only [LineScan.flush, hpending', hescaped]
    exact hts.addText hp l.escaped

/-- A mark ends the text before it on both lines. -/
lemma Follows.mark (hfront : 0 < front.size) (h : Follows front p i l l') (kind : TokenKind)
    {stop : Nat} (hstop : i < stop) :
    FollowsStep front p (l.mark kind i stop, stop)
      (l'.mark kind (front.size + i) (front.size + stop), front.size + stop) := by
  have hreached := h.reached
  refine ⟨rfl, ⟨h.braces, rfl, by dsimp only; omega, Nat.le_refl _, .inr ⟨?_, rfl, ?_⟩⟩⟩
  · exact Nat.lt_of_le_of_lt hreached hstop
  · exact .cons ⟨kind, i, stop⟩ hreached (by dsimp only; omega) (h.flush hfront hreached)

/-- So does a backslash, behind which the next text begins. -/
lemma Follows.escape (hfront : 0 < front.size) (h : Follows front p i l l') {pending next : Nat}
    (hpending : i < pending) (hnext : pending ≤ next) :
    FollowsStep front p ({ l.flush i with pending := pending, escaped := true }, next)
      ({ l'.flush (front.size + i) with pending := front.size + pending, escaped := true },
        front.size + next) := by
  have hreached := h.reached
  exact ⟨rfl, ⟨h.braces, rfl, by dsimp only; omega, hnext,
    .inr ⟨Nat.lt_of_le_of_lt hreached hpending, rfl, h.flush hfront hreached⟩⟩⟩

lemma followsStep_scanBackslash (hfront : 0 < front.size) (h : Follows front p i l l')
    {mode mode' : PipeMode} (hmode : mode ≠ .cell) (hmode' : mode' ≠ .cell) :
    FollowsStep front p (scanBackslash s mode l i)
      (scanBackslash (front ++ s) mode' l' (front.size + i)) := by
  simp only [scanBackslash, isEscape_behind, Nat.add_assoc, Source.hasAt_behind, hmode, hmode',
    decide_false, Bool.false_and, Bool.false_eq_true, if_false, Source.skipWhile_behind]
  split
  · split
    · have hskip := Source.le_skipWhile (s := s) (p := (· == '\x60')) (i := i + 1)
      have hreached := h.reached
      refine ⟨rfl, ⟨h.braces, rfl, by dsimp only; omega, Nat.le_refl _, .inr ⟨?_, rfl, ?_⟩⟩⟩
      · dsimp only
        omega
      · exact .cons ⟨.backticks true, i + 1, _⟩ (by dsimp only; omega) (by dsimp only; omega)
          (h.flush hfront hreached)
    · exact h.escape hfront (Nat.lt_succ_self i) (Nat.le_succ _)
  · exact h.plain (Nat.le_succ i)

variable {rules rules' : LineRules} {c prev : Char}

/-- The rules for a line and for the same line behind a front that ends with a blank. -/
structure SameRules (front s : Source) (p : Nat) (rules rules' : LineRules) : Prop where
  dialect : rules'.dialect = rules.dialect
  mode : rules.mode ≠ .cell
  mode' : rules'.mode ≠ .cell
  start : rules.start = p
  start' : rules'.start < front.size + p
  pos : 0 < p
  blank : ∃ c, s[p - 1]? = some c ∧ isInlineBlank c = true

lemma isBlank_of_isInlineBlank {c : Char} (h : isInlineBlank c = true) : Text.isBlank c = true := by
  simp only [isInlineBlank, Bool.or_eq_true, beq_iff_eq] at h
  rcases h with ((rfl | rfl) | rfl) | rfl <;> decide

/-- A run of marks, cut off the text if it can open or close a span. -/
def scanRun (s : Source) (rules : LineRules) (l : LineScan) (i : Nat) (c : Char) :
    LineScan × Nat :=
  let n := s.runLength c i
  let opens := canOpen s rules.mode c rules.start n i
  let closes := canClose s rules.mode c rules.start n i
  if (opens || closes) && (c != '~' || n ≤ 2) then
    (l.mark (.delimiters c opens closes) i (i + n), i + n)
  else (l, i + n)

lemma followsStep_delimiters (hfront : 0 < front.size) (hrules : SameRules front s p rules rules')
    (h : Follows front p i l l') (hc : s[i]? = some c) (plain : Bool) :
    FollowsStep front p (if plain = true then (l, i + 1) else scanRun s rules l i c)
      (if plain = true then (l', front.size + i + 1)
        else scanRun (front ++ s) rules' l' (front.size + i) c) := by
  obtain ⟨prev, hprev, hblank⟩ := hrules.blank
  have hprev' := isBlank_of_isInlineBlank hblank
  have hrun := Source.runLength_pos hc
  cases plain with
  | true => exact h.plain (Nat.le_succ i)
  | false =>
    simp only [scanRun, hrules.start, Source.runLength_behind, Nat.add_assoc,
      canOpen_behind hrules.mode hrules.mode' hrules.pos hprev hprev' hrules.start' h.reached,
      canClose_behind hrules.mode hrules.mode' hrules.pos hprev hprev' hrules.start' h.reached]
    simp only [Bool.false_eq_true, if_false]
    split
    · exact h.mark hfront _ (by omega)
    · exact h.plain (Nat.le_add_right ..)

/-- A dollar sign: the blank at the end of the front closes nothing, as the start of a line. -/
lemma followsStep_dollar (hfront : 0 < front.size) (hrules : SameRules front s p rules rules')
    (h : Follows front p i l l') :
    FollowsStep front p
      (({ l with braces := l.braces.dollar.2 } : LineScan).mark
        (.dollar (s[i + 1]?.any (!isAsciiBlank ·))
          (decide (rules.start < i) && s[i - 1]?.any (!isAsciiBlank ·)) l.braces.dollar.1)
        i (i + 1), i + 1)
      (({ l' with braces := l'.braces.dollar.2 } : LineScan).mark
        (.dollar ((front ++ s)[front.size + i + 1]?.any (!isAsciiBlank ·))
          (decide (rules'.start < front.size + i) &&
            (front ++ s)[front.size + i - 1]?.any (!isAsciiBlank ·)) l'.braces.dollar.1)
        (front.size + i) (front.size + i + 1), front.size + i + 1) := by
  have hreached := h.reached
  have hpos := hrules.pos
  have hstart := hrules.start'
  obtain ⟨prev, hprev, hblank⟩ := hrules.blank
  have hcloses : (decide (rules'.start < front.size + i) &&
        (front ++ s)[front.size + i - 1]?.any (!isAsciiBlank ·)) =
      (decide (rules.start < i) && s[i - 1]?.any (!isAsciiBlank ·)) := by
    rw [getElem?_before_behind front s (by omega), decide_eq_true (by omega), Bool.true_and,
      hrules.start]
    rcases Nat.lt_or_eq_of_le hreached with hlt | rfl
    · rw [decide_eq_true hlt, Bool.true_and]
    · simp [hprev, isAsciiBlank, hblank]
  have hbraces : Follows front p i { l with braces := l.braces.dollar.2 }
      { l' with braces := l'.braces.dollar.2 } :=
    ⟨congrArg (fun b => (Braces.dollar b).2) h.braces, h.escaped, hreached, h.pending, h.tokens⟩
  simp only [Nat.add_assoc, getElem?_behind, hcloses]
  rw [h.braces] at hbraces ⊢
  exact hbraces.mark hfront _ (Nat.lt_succ_self i)

lemma followsStep_scanChar (hfront : 0 < front.size) (hrules : SameRules front s p rules rules')
    (h : Follows front p i l l') (hc : s[i]? = some c) :
    FollowsStep front p (scanChar s rules l i c)
      (scanChar (front ++ s) rules' l' (front.size + i) c) := by
  have hi : 0 < i := Nat.lt_of_lt_of_le hrules.pos h.reached
  have hplain := h.plain (Nat.le_succ i)
  have hrun := Source.runLength_pos hc
  unfold scanChar
  simp only [hrules.dialect]
  split
  · exact followsStep_scanBackslash hfront h hrules.mode hrules.mode'
  · exact followsStep_delimiters hfront hrules h hc _
  · exact followsStep_delimiters hfront hrules h hc _
  · exact followsStep_delimiters hfront hrules h hc _
  · split
    · exact followsStep_dollar hfront hrules h
    · exact hplain
  · split
    · exact ⟨rfl, ⟨congrArg Braces.open h.braces, h.escaped, hplain.lines.reached,
        hplain.lines.pending, h.tokens⟩⟩
    · exact hplain
  · split
    · exact ⟨rfl, ⟨congrArg Braces.close h.braces, h.escaped, hplain.lines.reached,
        hplain.lines.pending, h.tokens⟩⟩
    · exact hplain
  · rw [Source.runLength_behind, Nat.add_assoc]
    exact h.mark hfront _ (by omega)
  · rw [Nat.add_assoc, Source.hasAt_behind]
    split
    · exact hplain
    · exact h.mark hfront _ (Nat.lt_succ_self i)
  · rw [Nat.add_assoc, Source.hasAt_behind]
    split
    · exact h.mark hfront _ (by omega)
    · exact hplain
  · exact h.mark hfront _ (Nat.lt_succ_self i)
  · exact h.mark hfront _ (Nat.lt_succ_self i)
  · rw [charReference?_behind]
    cases hreference : charReference? s i with
    | none => exact hplain
    | some r => exact h.mark hfront _ (lt_charReference hreference)
  · have hbefore : (front ++ s).hasAt (front.size + i - 1) '\\' = s.hasAt (i - 1) '\\' := by
      rw [Source.hasAt, getElem?_before_behind front s hi, Source.hasAt]
    rw [hbefore, decide_eq_true hi, decide_eq_true (by omega : 0 < front.size + i)]
    split
    · exact hplain
    · exact ⟨rfl, ⟨h.braces, h.escaped, hplain.lines.reached, hplain.lines.pending, h.tokens⟩⟩
  · exact hplain

end Steps

section Lines

variable {rules rules' : LineRules} {l l' : LineScan} {i k : Nat} {q : Char → Bool}

lemma skipBack_eq_of_not {low low' : Nat} (hk : s[k]?.any q = false) (hlow : low ≤ k)
    (hlow' : low' ≤ k) (hi : k < i) : s.skipBack q low i = s.skipBack q low' i := by
  unfold Source.skipBack
  induction i with
  | zero => rfl
  | succ i ih =>
    rw [Source.skipBackFuel, Source.skipBackFuel]
    rcases Nat.lt_or_eq_of_le (Nat.le_of_lt_succ hi) with hlt | rfl
    · rw [decide_eq_true (by omega), decide_eq_true (by omega), ih hlt]
    · simp [hk]

/-- The end of the line, the blanks before it cut off. -/
lemma Follows.cut (hfront : 0 < front.size) (h : Follows front p i l l')
    (hsolid : s[p]?.any isInlineBlank = false) (hi : p < i) :
    Headed front p (l.flush (max l.pending (s.skipBack isInlineBlank l.pending i))).tokens
      (l'.flush (max l'.pending
        ((front ++ s).skipBack isInlineBlank l'.pending (front.size + i)))).tokens := by
  have hstop : max l'.pending ((front ++ s).skipBack isInlineBlank l'.pending (front.size + i)) =
      front.size + max l.pending (s.skipBack isInlineBlank l.pending i) := by
    rcases h.tokens with ⟨-, -, hpending, hpending', -⟩ | ⟨hp, hpending', -⟩
    · have hsolid' : (front ++ s)[front.size + p]?.any isInlineBlank = false := by
        rwa [getElem?_behind]
      have hback := Source.lt_skipBack p hi hsolid
      rw [hpending, hpending', skipBack_eq_of_not hsolid' (Nat.zero_le _) (Nat.le_refl _)
        (by omega), Source.skipBack_behind isInlineBlank h.reached]
      omega
    · rw [hpending', Source.skipBack_behind isInlineBlank h.pending, Nat.add_max_add_left]
  rw [hstop]
  refine h.flush hfront ?_
  have hpending : p ≤ l.pending := by
    rcases h.tokens with ⟨-, -, hpending, -⟩ | ⟨hp, -⟩ <;> omega
  exact Nat.le_trans hpending (Nat.le_max_left ..)

/-- A source of one line. -/
def OneLine (s : Source) : Prop :=
  ∀ i : Nat, s[i]?.all (fun c => !(c == '\n' || c == '\r')) = true

lemma headed_scanLineFuel (hfront : 0 < front.size) (hrules : SameRules front s p rules rules')
    (hline : OneLine s) (hsolid : s[p]?.any isInlineBlank = false) (hsize : p < s.size)
    (fuel : Nat) (h : Follows front p i l l') (hfuel : s.size ≤ fuel + i) :
    Headed front p (scanLineFuel s rules fuel l i).1.tokens
      (scanLineFuel (front ++ s) rules' fuel l' (front.size + i)).1.tokens := by
  induction fuel generalizing l l' i with
  | zero => exact h.cut hfront hsolid (by omega)
  | succ fuel ih =>
    rw [scanLineFuel, scanLineFuel, getElem?_behind]
    cases hc : s[i]? with
    | none =>
      have hend := Array.getElem?_eq_none_iff.mp hc
      exact h.cut hfront hsolid (by omega)
    | some c =>
      have hbreak := hline i
      rw [hc, Option.all_some, Bool.not_eq_true'] at hbreak
      simp only [hbreak, hrules.mode, hrules.mode', decide_false, Bool.false_and,
        Bool.false_eq_true, if_false]
      have hstep := followsStep_scanChar hfront hrules h hc
      have hforward := (stepped_scanChar rules l hc).forward
      rw [hstep.next]
      exact ih hstep.lines (by omega)

end Lines

end Folio.Markdown
