import Folio.Proofs.BlockParagraphs

/-!
# Paragraphs that open with marks

A paragraph is read line by line, and only its first line decides about its first tokens. If that
line opens with marks, the first token goes on beyond them, or the next one shows what stands there,
or nothing comes behind it.
-/

namespace Folio.Markdown

section Cursors

variable {s : Source} {c d : Cursor}

lemma le_skipColumns (n : Nat) (c : Cursor) : c.pos ≤ (c.skipColumns s n).2.pos := by
  induction n generalizing c with
  | zero => exact Nat.le_refl _
  | succ n ih =>
    rw [Cursor.skipColumns]
    split
    · exact ih { c with spaces := c.spaces - 1 }
    split
    · exact Nat.le_of_succ_le (ih { c with pos := c.pos + 1 })
    · exact Nat.le_of_succ_le (ih ⟨c.pos + 1, c.pos + 1, _⟩)
    · exact Nat.le_refl _

lemma le_quoteMarker (h : c.quoteMarker? s = some d) : c.pos ≤ d.pos := by
  unfold Cursor.quoteMarker? at h
  split at h
  · cases h
    exact Nat.le_of_succ_le (le_skipColumns 1 { c with pos := c.pos + 1 })
  · cases h

lemma le_prefixSkip {p : LinePrefix} (h : p.skip? s c = some d) : c.pos ≤ d.pos := by
  cases p with
  | quote => exact Nat.le_trans (le_skipColumns 3 c) (le_quoteMarker h)
  | indent columns =>
    simp only [LinePrefix.skip?] at h
    split at h
    · cases h
      exact le_skipColumns columns c
    · cases h

lemma le_skipPrefixes (ps : List LinePrefix) (c : Cursor) :
    c.pos ≤ (skipPrefixes s ps c).2.pos := by
  induction ps generalizing c with
  | nil => exact Nat.le_refl _
  | cons p ps ih =>
    rw [skipPrefixes]
    split
    · next d hd => exact Nat.le_trans (le_prefixSkip hd) (ih d)
    · exact Nat.le_refl _

end Cursors

section Lines

variable {s : Source} {st : BlockState} {fuel : Nat} {mode : PipeMode} {tokens tokens' : List Token}
  {braces : Braces} {i next : Nat}

/-- The tokens of a paragraph that ends with a line. A backslash at the end breaks no line. -/
def endedTokens (lineEnd : LineEnd) (tokens : List Token) : List Token :=
  match lineEnd with
  | .broken ⟨.hardBreak true, b, _⟩ => addText b (b + 1) false tokens
  | _ => tokens

/-- The tokens of a paragraph that goes on behind a line. -/
def brokenTokens (lineEnd : LineEnd) (tokens : List Token) : List Token :=
  match lineEnd with
  | .broken t => t :: tokens
  | _ => tokens

/-- One line of a paragraph: either the paragraph ends with it, or it goes on in a line behind it
that is not blank. -/
lemma paragraphFuel_succ
    (h : paragraphFuel s st (fuel + 1) mode tokens braces i = .paragraph tokens' next) :
    ∃ ts braces' stop lineEnd,
      scanLine s (st.lineRules mode i) tokens braces = (ts, braces', stop, lineEnd) ∧
      (∀ columns, lineEnd ≠ .table columns) ∧
      ((tokens' = endedTokens lineEnd ts ∧ next = stop) ∨
        ∃ j, stop ≤ j ∧ s.lineEnd? j = none ∧
          paragraphFuel s st fuel .plain (brokenTokens lineEnd ts) braces' j =
            .paragraph tokens' next) := by
  rw [paragraphFuel] at h
  generalize scanLine s (st.lineRules mode i) tokens braces = line at h
  obtain ⟨ts, braces', stop, lineEnd⟩ := line
  refine ⟨ts, braces', stop, lineEnd, rfl, ?_⟩
  dsimp only at h
  split at h
  · cases h
  · next htable =>
    refine ⟨fun columns heq => htable columns heq, ?_⟩
    have hprefixes := le_skipPrefixes (s := s) st.prefixes (Cursor.new stop)
    have hindent := le_skipColumns (s := s) 4 (skipPrefixes s st.prefixes (Cursor.new stop)).2
    split at h
    · cases h
    split at h
    · cases h
      exact .inl ⟨rfl, rfl⟩
    split at h
    · cases h
      exact .inl ⟨rfl, rfl⟩
    · next hend =>
      refine .inr ⟨_, ?_, ?_, h⟩
      · exact Nat.le_trans hprefixes (Nat.le_trans hindent Source.le_skipWhile)
      · simpa [Cursor.atLineEnd] using hend

lemma TokenClosed.ended {P : List Token → Prop} (hP : TokenClosed P) {lineEnd : LineEnd}
    (h : P tokens) : P (endedTokens lineEnd tokens) := by
  unfold endedTokens
  split
  · exact hP.addText _ _ _ _ h
  · exact h

lemma TokenClosed.broken {P : List Token → Prop} (hP : TokenClosed P) {lineEnd : LineEnd}
    (h : P tokens) : P (brokenTokens lineEnd tokens) := by
  unfold brokenTokens
  split
  · exact hP.cons _ _ h
  · exact h

/-- Further lines of a paragraph keep what further tokens and text keep, and lie behind. -/
lemma TokenClosed.paragraphFuel {P : List Token → Prop} (hP : TokenClosed P) (hpre : P tokens)
    (h : paragraphFuel s st fuel mode tokens braces i = .paragraph tokens' next) :
    P tokens' ∧ i ≤ next := by
  induction fuel generalizing mode tokens braces i with
  | zero =>
    rw [Markdown.paragraphFuel] at h
    cases h
    exact ⟨hpre, Nat.le_refl _⟩
  | succ fuel ih =>
    obtain ⟨ts, braces', stop, lineEnd, hscan, htable, hrest⟩ := paragraphFuel_succ h
    have hts : P ts := by
      have hline : P (Markdown.scanLine s (st.lineRules mode i) tokens braces).1 :=
        hP.scanLine hpre braces
      rwa [hscan] at hline
    have hstop : i ≤ stop := by
      have hline := @le_scanLine s (st.lineRules mode i) tokens braces
      rw [hscan] at hline
      exact hline htable
    rcases hrest with ⟨rfl, rfl⟩ | ⟨j, hj, -, hlater⟩
    · exact ⟨hP.ended hts, hstop⟩
    · obtain ⟨htokens, hnext⟩ := ih (hP.broken hts) hlater
      exact ⟨htokens, by omega⟩

/-- The content of a paragraph that opens with `n` marks at `i`. -/
structure OpensMarked (s : Source) (i n : Nat) (tokens : List Token) (next : Nat) : Prop where
  forward : i + n ≤ next
  begun : Begun s i n next tokens

lemma Settled.opensMarked {n : Nat} {ts : List Token} {j stop : Nat}
    (hts : Settled s i n stop ts) (hstop : i + n ≤ stop) (hj : stop ≤ j)
    (hlater : paragraphFuel s st fuel mode ts braces j = .paragraph tokens' next) :
    OpensMarked s i n tokens' next := by
  obtain ⟨htokens, hnext⟩ := (settled_closed s i n stop).paragraphFuel hts hlater
  exact ⟨by omega, .inl (htokens.mono (by omega))⟩

/-- The first tokens of a paragraph that opens with a marked line. -/
theorem opensMarked_paragraphFuel {n : Nat} (hline : MarkedLine s i n) (hmode : mode ≠ .cell)
    (h : paragraphFuel s st (fuel + 1) mode [] braces i = .paragraph tokens' next) :
    OpensMarked s i n tokens' next := by
  obtain ⟨ts, braces', stop, lineEnd, hscan, htable, hrest⟩ := paragraphFuel_succ h
  have houtcome : LineOutcome s i n stop ts lineEnd := by
    have hscanned := @scanLine_outcome s (st.lineRules mode i) n hline hmode braces
    rw [hscan] at hscanned
    exact hscanned
  cases houtcome with
  | table columns => exact absurd rfl (htable columns)
  | @broken t hstop ht hts hended =>
    rcases hrest with ⟨rfl, rfl⟩ | ⟨j, hj, -, hlater⟩
    · refine ⟨hstop, ?_⟩
      unfold endedTokens
      split
      · next heq =>
        cases heq
        exact hended rfl
      · exact hts
    · exact (hts.cons_break ht).opensMarked hstop hj hlater
  | cut hstop hts hsize =>
    rcases hrest with ⟨rfl, rfl⟩ | ⟨j, hj, hend, -⟩
    · exact ⟨hstop, hts⟩
    · rw [Source.lineEnd?, Array.getElem?_eq_none (by omega)] at hend
      cases hend

/-- All paragraphs of a source that open with marks open that way. -/
theorem opensMarked_readBlocks (dialect : Dialect) (s : Source) :
    EveryParagraphIn (fun start content => ∀ n, MarkedLine s start n →
      OpensMarked s start n content.tokens.reverse content.stop) (readBlocks dialect s).blocks := by
  refine everyParagraph_readBlocks dialect fun st mode i tokens next hmode h n hline => ?_
  have hsize : i < s.size := by
    have hfirst := hline.marks 0 hline.pos
    exact (Array.getElem?_eq_some_iff.mp hfirst).1
  have hfuel : s.size + 1 - i = s.size - i + 1 := by omega
  rw [hfuel] at h
  rw [List.reverse_reverse]
  exact opensMarked_paragraphFuel hline hmode h

end Lines

end Folio.Markdown
