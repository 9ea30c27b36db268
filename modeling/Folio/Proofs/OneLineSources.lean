import Folio.Proofs.RelocatedLines

/-!
# Sources of one line

A line of text that nothing is behind is scanned up to the end of the source, and no step goes
beyond that. Without marks in it the line is one token.
-/

namespace Folio.Markdown

variable {s : Source} {i j : Nat} {c : Char}

section Rules

/-- The rules for the text of a paragraph that begins where its source does. -/
def paragraphRules (dialect : Dialect) : LineRules :=
  ⟨dialect, if dialect.extended then .header else .plain, [], 0⟩

lemma paragraphRules_mode (dialect : Dialect) : (paragraphRules dialect).mode ≠ .cell := by
  unfold paragraphRules
  dsimp only
  split <;> simp

/-- The rules for the text of a heading. -/
def titleRules (dialect : Dialect) (start : Nat) : LineRules :=
  ⟨dialect, .plain, [], start⟩

lemma titleRules_mode (dialect : Dialect) (start : Nat) :
    (titleRules dialect start).mode ≠ .cell := by
  simp [titleRules]

end Rules

section Bounds

lemma lt_size_of_hasAt (h : s.hasAt i c = true) : i < s.size :=
  (Array.getElem?_eq_some_iff.mp (beq_iff_eq.mp h)).1

lemma skipWhile_le_size (q : Char → Bool) (hi : i ≤ s.size) : s.skipWhile q i ≤ s.size := by
  have hfuel (fuel : Nat) : s.skipWhileFuel q fuel i ≤ s.size := by
    induction fuel generalizing i with
    | zero => exact hi
    | succ fuel ih =>
      rw [Source.skipWhileFuel]
      split
      · next c hc =>
        have hlt := (Array.getElem?_eq_some_iff.mp hc).1
        split
        · exact ih hlt
        · exact hi
      · exact hi
  exact hfuel _

lemma add_runLength_le_size (c : Char) (hi : i ≤ s.size) : i + s.runLength c i ≤ s.size := by
  have hle := skipWhile_le_size (s := s) (· == c) hi
  have hback : i ≤ s.skipWhile (· == c) i := Source.le_skipWhile
  unfold Source.runLength
  omega

/-- A reference ends with a semicolon. -/
lemma exists_hasAt_of_charReference? {text : List Char} {stop : Nat}
    (h : charReference? s i = some (text, stop)) : ∃ e, stop = e + 1 ∧ s.hasAt e ';' = true := by
  unfold charReference? at h
  split at h
  · generalize (s.hasAt (i + 2) 'x' || s.hasAt (i + 2) 'X') = hexadecimal at h
    cases hexadecimal
    all_goals
      simp only [Bool.false_eq_true, if_true, if_false] at h
      split at h
      · next hstop =>
        cases h
        exact ⟨_, rfl, (Bool.and_eq_true_iff.mp hstop).2⟩
      · cases h
  · dsimp only at h
    split at h
    · next hstop =>
      obtain ⟨name, -, heq⟩ := Option.map_eq_some_iff.mp h
      cases heq
      exact ⟨_, rfl, hstop⟩
    · cases h

lemma charReference?_le_size {text : List Char} {stop : Nat}
    (h : charReference? s i = some (text, stop)) : stop ≤ s.size := by
  obtain ⟨e, rfl, hend⟩ := exists_hasAt_of_charReference? h
  exact lt_size_of_hasAt hend

lemma scanBackslash_le_size (mode : PipeMode) (l : LineScan) (hi : i < s.size) :
    (scanBackslash s mode l i).2 ≤ s.size := by
  unfold scanBackslash
  split
  · next hescape =>
    have hnext : i + 1 < s.size := by
      cases hc : s[i + 1]? with
      | none => simp [isEscape, hc] at hescape
      | some c => exact (Array.getElem?_eq_some_iff.mp hc).1
    dsimp only
    split
    · exact skipWhile_le_size _ (Nat.le_of_lt hnext)
    split
    · next htable =>
      simp only [isTablePipe, Bool.and_eq_true] at htable
      exact lt_size_of_hasAt htable.2.2
    · exact hnext
  · exact hi

lemma scanChar_le_size (rules : LineRules) (l : LineScan) (hc : s[i]? = some c) :
    (scanChar s rules l i c).2 ≤ s.size := by
  have hi : i < s.size := (Array.getElem?_eq_some_iff.mp hc).1
  have hrun (c : Char) := add_runLength_le_size (s := s) c (Nat.le_of_lt hi)
  unfold scanChar
  dsimp only
  split
  · exact scanBackslash_le_size _ l hi
  · repeat' split
    all_goals first | exact hi | exact hrun _
  · repeat' split
    all_goals first | exact hi | exact hrun _
  · repeat' split
    all_goals first | exact hi | exact hrun _
  · split <;> exact hi
  · split <;> exact hi
  · split <;> exact hi
  · exact hrun _
  · split <;> exact hi
  · split
    · next hbracket => exact lt_size_of_hasAt hbracket
    · exact hi
  · exact hi
  · exact hi
  · split
    · next hreference => exact charReference?_le_size hreference
    · exact hi
  · split <;> exact hi
  · exact hi

end Bounds

section Lines

variable {rules : LineRules} {l : LineScan}

/-- The line ends where the source does. -/
lemma scanLineFuel_oneLine (hline : OneLine s) (hmode : rules.mode ≠ .cell) (fuel : Nat)
    (hi : i ≤ s.size) (hfuel : s.size ≤ fuel + i) :
    (scanLineFuel s rules fuel l i).2 = (s.size, .cut) := by
  induction fuel generalizing l i with
  | zero => exact Prod.ext (by dsimp only [scanLineFuel]; omega) rfl
  | succ fuel ih =>
    rw [scanLineFuel]
    cases hc : s[i]? with
    | none =>
      have hend := Array.getElem?_eq_none_iff.mp hc
      exact Prod.ext (by dsimp only; omega) rfl
    | some c =>
      have hbreak := hline i
      rw [hc, Option.all_some, Bool.not_eq_true'] at hbreak
      simp only [hbreak, hmode, decide_false, Bool.false_and, Bool.false_eq_true, if_false]
      have hforward := (stepped_scanChar rules l hc).forward
      exact ih (scanChar_le_size rules l hc) (by omega)

/-- Nothing in a text without marks ends the piece at hand before the end of the line. -/
lemma scanLineFuel_unmarked (hline : OneLine s) (hmode : rules.mode ≠ .cell)
    (hmarks : ∀ k ≥ i, ∀ c ∈ s[k]?, c ∉ markChars) (fuel : Nat) (hi : i ≤ s.size)
    (hfuel : s.size ≤ fuel + i) :
    ∃ escaped, (scanLineFuel s rules fuel l i).1.tokens =
      addText l.pending (max l.pending (s.skipBack isInlineBlank l.pending s.size)) escaped
        l.tokens := by
  induction fuel generalizing l i with
  | zero =>
    obtain rfl : i = s.size := by omega
    exact ⟨l.escaped, rfl⟩
  | succ fuel ih =>
    rw [scanLineFuel]
    cases hc : s[i]? with
    | none =>
      have hend := Array.getElem?_eq_none_iff.mp hc
      obtain rfl : i = s.size := by omega
      exact ⟨l.escaped, rfl⟩
    | some c =>
      have hbreak := hline i
      rw [hc, Option.all_some, Bool.not_eq_true'] at hbreak
      simp only [hbreak, hmode, decide_false, Bool.false_and, Bool.false_eq_true, if_false]
      have hstep := stepped_scanChar rules l hc
      have hmark := hmarks i (Nat.le_refl i) c hc
      have hsize := scanChar_le_size rules l hc
      rcases hstep.tokens with ⟨htokens, hpending⟩ | ⟨hmark', -⟩
      · rw [hstep.one hmark] at hsize ⊢
        rw [← htokens, ← hpending]
        exact ih (fun k hk => hmarks k (by omega)) hsize (by omega)
      · exact absurd hmark' hmark

/-- The tokens of a line without marks, of which there is one if the line is not blank. -/
lemma scanLine_unmarked (hline : OneLine s) (hmode : rules.mode ≠ .cell)
    (hmarks : ∀ k ≥ rules.start, ∀ c ∈ s[k]?, c ∉ markChars) (hstart : rules.start ≤ s.size)
    (braces : Braces) :
    ∃ escaped, (scanLine s rules [] braces).1 =
      addText rules.start (max rules.start (s.skipBack isInlineBlank rules.start s.size)) escaped
        [] :=
  scanLineFuel_unmarked hline hmode hmarks _ hstart (by omega)

lemma scanLine_oneLine (rules : LineRules) (hline : OneLine s) (hmode : rules.mode ≠ .cell)
    (hstart : rules.start ≤ s.size) (tokens : List Token) (braces : Braces) :
    ∃ braces', scanLine s rules tokens braces =
      ((scanLine s rules tokens braces).1, braces', s.size, .cut) := by
  have hend := scanLineFuel_oneLine (l := ⟨tokens, braces, rules.start, false, 0, 0⟩) hline hmode
    (s.size - rules.start) hstart (by omega)
  refine ⟨(scanLine s rules tokens braces).2.1, ?_⟩
  exact Prod.ext rfl (Prod.ext rfl hend)

end Lines

section Blocks

/-- A line that opens with marks and a blank behind them, and with nothing behind it. -/
structure MarkerLine (s : Source) (n : Nat) : Prop where
  line : OneLine s
  pos : 0 < n
  marks : ∀ k < n, s[k]? = some '#'
  blank : ∃ c, s[n]? = some c ∧ isInlineBlank c = true

variable {st : BlockState} {n : Nat} {dialect : Dialect}

/-- A paragraph ends where the source does. -/
lemma paragraphFuel_of_cut (st : BlockState) {mode : PipeMode} {tokens ts : List Token}
    {braces braces' : Braces} (hprefixes : st.prefixes = [])
    (hscan : scanLine s (st.lineRules mode i) tokens braces = (ts, braces', s.size, .cut))
    (fuel : Nat) :
    paragraphFuel s st (fuel + 1) mode tokens braces i = .paragraph ts s.size := by
  have hcolumns : (Cursor.new s.size).skipColumns s 4 = (4, Cursor.new s.size) := by
    simp [Cursor.skipColumns, Cursor.new]
  have hpos : (Cursor.new s.size).pos = s.size := rfl
  have hunderline : underline? s s.size = none := by
    simp [underline?]
  have hends : endsParagraph s st true s.size = true := by
    simp [endsParagraph, interrupts, Source.lineEnd?]
  simp only [paragraphFuel, hscan, hprefixes, skipPrefixes, Cursor.skipExactly, hcolumns, hpos,
    hunderline, ite_self, List.length_nil, beq_self_eq_true, hends]
  rfl

/-- The tokens of a heading, latest first. -/
def headingTokens (dialect : Dialect) (s : Source) (start : Nat) : List Token :=
  cutClosing s start s.size (scanLine s (titleRules dialect start) [] Braces.none).1

namespace MarkerLine

lemma first (h : MarkerLine s n) : s[0]? = some '#' :=
  h.marks 0 h.pos

lemma lt_size (h : MarkerLine s n) : n < s.size := by
  obtain ⟨c, hc, -⟩ := h.blank
  exact (Array.getElem?_eq_some_iff.mp hc).1

lemma hasAt_zero (h : MarkerLine s n) (hc : c ≠ '#') : s.hasAt 0 c = false := by
  rw [Source.hasAt, h.first]
  simpa using Ne.symm hc

lemma runLength_zero (h : MarkerLine s n) : s.runLength '#' 0 = n := by
  obtain ⟨c, hc, hblank⟩ := h.blank
  have hmark : (c == '#') = false := by
    rw [beq_eq_false_iff_ne]
    rintro rfl
    cases hblank
  have hfrom (fuel i : Nat) (hi : i ≤ n) (hfuel : n < fuel + i) :
      s.skipWhileFuel (· == '#') fuel i = n := by
    induction fuel generalizing i with
    | zero => omega
    | succ fuel ih =>
      rw [Source.skipWhileFuel]
      rcases Nat.lt_or_eq_of_le hi with hlt | rfl
      · rw [h.marks i hlt]
        exact ih (i + 1) hlt (by omega)
      · rw [hc]
        simp only [hmark, Bool.false_eq_true, if_false]
  have hsize := h.lt_size
  exact hfrom (s.size - 0) 0 (Nat.zero_le n) (by omega)

lemma skipColumns_zero (h : MarkerLine s n) (columns : Nat) :
    (Cursor.new 0).skipColumns s columns = (columns, Cursor.new 0) := by
  cases columns with
  | zero => rfl
  | succ columns => simp [Cursor.skipColumns, Cursor.new, h.first]

lemma skipWhile_zero (h : MarkerLine s n) {q : Char → Bool} (hq : q '#' = false) :
    s.skipWhile q 0 = 0 := by
  have hfuel : s.size - 0 = (s.size - 1) + 1 := by
    have hsize := h.lt_size
    omega
  rw [Source.skipWhile, hfuel, Source.skipWhileFuel, h.first]
  simp only [hq, Bool.false_eq_true, if_false]

lemma lineEnd_zero (h : MarkerLine s n) : s.lineEnd? 0 = none := by
  rw [Source.lineEnd?, h.first]
  rfl

lemma blankLine_zero (h : MarkerLine s n) : s.blankLine? 0 = none := by
  rw [Source.blankLine?, Source.skipBlanks, h.skipWhile_zero (by decide), h.lineEnd_zero]

/-- No container begins with a mark of a heading. -/
lemma openContainersFuel_zero (h : MarkerLine s n) (st : BlockState) (fuel : Nat) :
    openContainersFuel s fuel st (Cursor.new 0) = (st, .block (Cursor.new 0)) := by
  cases fuel with
  | zero => rfl
  | succ fuel =>
    have hfootnote : footnoteLabel? s false (Cursor.new 0).pos = none := by
      simp [footnoteLabel?, Cursor.new, h.hasAt_zero]
    have hitem : listMarker? s 0 (Cursor.new 0) = none := by
      simp [listMarker?, itemSign?, itemNumber?, Cursor.new, h.first, h.skipWhile_zero]
    have hquote : (Cursor.new 0).quoteMarker? s = none := by
      simp [Cursor.quoteMarker?, Cursor.new, h.hasAt_zero]
    simp only [openContainersFuel, Cursor.skipUpTo, h.skipColumns_zero, hfootnote, hitem, hquote,
      ite_self, Nat.sub_self]

/-- The one block of the source is the one that begins with the marks. -/
lemma readBlocks_eq (h : MarkerLine s n) {b : Block}
    (hleaf : leafBlock s (.initial dialect) (Cursor.new 0) =
      ((BlockState.initial dialect).add b, s.size)) :
    readBlocks dialect s = (BlockState.initial dialect).add b := by
  have hsize := h.lt_size
  have hblock : block s (.initial dialect) 0 = ((BlockState.initial dialect).add b, s.size) := by
    have hopen := h.openContainersFuel_zero (.initial dialect) (s.size + 1 - 0)
    have hprefixes : skipPrefixes s (BlockState.initial dialect).prefixes (Cursor.new 0) =
        (0, Cursor.new 0) := rfl
    have hkept : BlockState.popTimes ((BlockState.initial dialect).containers.length -
        BlockState.keptCount (BlockState.initial dialect).containers 0)
          (.initial dialect) = .initial dialect := rfl
    simp only [block, hprefixes, hkept, hopen]
    exact hleaf
  obtain ⟨fuel, hfuel⟩ := Nat.exists_eq_succ_of_ne_zero (by omega : 2 * s.size ≠ 0)
  have hrest : blocksFuel s fuel ((BlockState.initial dialect).add b) s.size =
      (BlockState.initial dialect).add b := by
    cases fuel with
    | zero => rfl
    | succ fuel => exact if_pos (Nat.le_refl _)
  rw [readBlocks, hfuel, blocksFuel, if_neg (by omega), hblock]
  dsimp only
  rw [hrest]
  rfl

/-- What a line with a blank behind its marks is read as, if nothing else begins with them. -/
lemma leafBlock_zero (h : MarkerLine s n) :
    leafBlock s (.initial dialect) (Cursor.new 0) =
      match headingLevel? s 0 with
      | some level => markedHeading s (.initial dialect) level 0
      | none => definitionsFuel s (s.size + 1 - 0) (.initial dialect) 0 := by
  have hrule : ruleLine? s 0 = none := by
    simp [ruleLine?, h.first]
  have hfence : fence? s 0 = none := by
    simp [fence?, h.first]
  have hpos : (Cursor.new 0).pos = 0 := rfl
  have hlist : (BlockState.initial dialect).finishList = .initial dialect := rfl
  simp only [leafBlock, hpos, h.blankLine_zero, hlist, Cursor.skipUpTo, h.skipColumns_zero,
    Nat.sub_self, hrule, hfence, h.hasAt_zero (by decide : '<' ≠ '#')]
  rfl

lemma headingLevel_zero (h : MarkerLine s n) :
    headingLevel? s 0 = if n ≤ 6 then some n else none := by
  obtain ⟨c, hc, hblank⟩ := h.blank
  have hbehind : s[0 + n]?.all isAsciiBlank = true := by
    simp [hc, isAsciiBlank, hblank]
  have hpos := h.pos
  unfold headingLevel?
  dsimp only
  rw [h.runLength_zero, hbehind]
  simp [Nat.one_le_iff_ne_zero, Nat.ne_of_gt hpos]

/-- Up to six marks make a heading, whose text begins behind the blanks. -/
theorem readBlocks_heading (h : MarkerLine s n) (hn : n ≤ 6) (dialect : Dialect) :
    readBlocks dialect s = (BlockState.initial dialect).add (.heading n none
      ⟨(headingTokens dialect s (s.skipBlanks n)).reverse, s.size, [], false⟩
      (trailingBlanks s (s.skipBlanks n) s.size (headingTokens dialect s (s.skipBlanks n)))) := by
  refine h.readBlocks_eq ?_
  rw [h.leafBlock_zero, h.headingLevel_zero, if_pos hn]
  obtain ⟨c, hc, hblank⟩ := h.blank
  have hend : s.lineEnd? n = none := by
    rw [Source.lineEnd?, hc]
    simp only [isInlineBlank, Bool.or_eq_true, beq_iff_eq] at hblank
    rcases hblank with ((rfl | rfl) | rfl) | rfl <;> rfl
  have hstart : s.skipBlanks n ≤ s.size := skipWhile_le_size _ (Nat.le_of_lt h.lt_size)
  obtain ⟨braces, hscan⟩ := scanLine_oneLine (titleRules dialect (s.skipBlanks n)) h.line
    (titleRules_mode dialect _) hstart [] Braces.none
  have hrules : BlockState.lineRules (.initial dialect) .plain (s.skipBlanks n) =
      titleRules dialect (s.skipBlanks n) := rfl
  simp only [markedHeading, Nat.zero_add, hend, hrules]
  rw [hscan]
  rfl

/-- More marks make a paragraph. -/
theorem readBlocks_paragraph (h : MarkerLine s n) (hn : 6 < n) (dialect : Dialect) :
    readBlocks dialect s = (BlockState.initial dialect).add (.paragraph false 0 none
      ⟨(scanLine s (paragraphRules dialect) [] Braces.none).1.reverse, s.size, [], false⟩) := by
  refine h.readBlocks_eq ?_
  rw [h.leafBlock_zero, h.headingLevel_zero, if_neg (by omega)]
  have hdefinition : definition? s (.initial dialect) 0 = none := by
    simp [definition?, h.hasAt_zero]
  obtain ⟨braces, hscan⟩ := scanLine_oneLine (paragraphRules dialect) h.line
    (paragraphRules_mode dialect) (Nat.zero_le _) [] Braces.none
  have hfuel : s.size + 1 - 0 = s.size + 1 := rfl
  have hparagraph := paragraphFuel_of_cut (.initial dialect) rfl hscan s.size
  simp only [hfuel, definitionsFuel, hdefinition, paragraphBlock]
  unfold BlockState.initial at hparagraph ⊢
  dsimp only
  rw [hparagraph]
  rfl

end MarkerLine

end Blocks

end Folio.Markdown
