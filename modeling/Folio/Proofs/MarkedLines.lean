import Folio.Proofs.ClosingSequences
import Folio.Proofs.TrailingTexts

/-!
# Lines with marks

A line that opens with marks and a blank is a heading if there are up to six marks, and else a
paragraph. The pieces of its text are the same both times, apart from the marks and the blanks in
front of the title, which are text of a paragraph, and from its end, where a heading has no closing
sequence and may keep blanks.
-/

namespace Folio.Markdown

/-- Marks, a space, and what is behind it. -/
def marked (n : Nat) (cs : List Char) : List Char :=
  List.replicate n '#' ++ ' ' :: cs

def leadingBlanks (t : List Char) : List Char :=
  t.takeWhile isInlineBlank

/-- The title of a heading whose line goes on like this behind its marker. -/
def titleOf (t : List Char) : List Char :=
  t.dropWhile isInlineBlank

/-- Text on one line. -/
def Unbroken (t : List Char) : Prop :=
  ∀ c ∈ t, c ≠ '\n' ∧ c ≠ '\r'

section Lines

variable {n : Nat} {t : List Char}

lemma marked_append (n : Nat) (xs ys : List Char) : marked n (xs ++ ys) = marked n xs ++ ys := by
  rw [marked, marked, List.append_assoc, List.cons_append]

lemma marked_titleOf (n : Nat) (t : List Char) :
    marked n (leadingBlanks t) ++ titleOf t = marked n t := by
  rw [← marked_append, leadingBlanks, titleOf, List.takeWhile_append_dropWhile]

lemma length_marked (n : Nat) (cs : List Char) : (marked n cs).length = n + (1 + cs.length) := by
  rw [marked, List.length_append, List.length_replicate, List.length_cons, Nat.add_comm 1]

lemma marked_add (k n : Nat) (t : List Char) :
    (List.replicate k '#').toArray ++ (marked n t).toArray = (marked (k + n) t).toArray := by
  rw [List.append_toArray, marked, marked, ← List.append_assoc, List.replicate_append_replicate]

lemma isInlineBlank_of_mem_leadingBlanks {c : Char} (hc : c ∈ leadingBlanks t) :
    isInlineBlank c = true :=
  List.all_eq_true.mp List.all_takeWhile c hc

lemma eq_or_isInlineBlank_of_mem_marked {c : Char} (hc : c ∈ marked n (leadingBlanks t)) :
    c = '#' ∨ isInlineBlank c = true := by
  rcases List.mem_append.mp hc with hmark | hblank
  · exact .inl (List.eq_of_mem_replicate hmark)
  · rcases List.mem_cons.mp hblank with rfl | hmem
    · exact .inr (by decide)
    · exact .inr (isInlineBlank_of_mem_leadingBlanks hmem)

lemma isInlineBlank_getLast_marked {c : Char}
    (hc : (marked n (leadingBlanks t)).getLast? = some c) : isInlineBlank c = true := by
  rw [marked, List.getLast?_append_of_ne_nil _ (List.cons_ne_nil _ _)] at hc
  rcases List.mem_cons.mp (List.mem_of_getLast? hc) with rfl | hmem
  · decide
  · exact isInlineBlank_of_mem_leadingBlanks hmem

lemma getElem?_marked_of_lt {i : Nat} (hi : i < (marked n (leadingBlanks t)).length) :
    (marked n t).toArray[i]? = (marked n (leadingBlanks t))[i]? := by
  rw [List.getElem?_toArray, ← marked_titleOf, List.getElem?_append_left hi]

lemma oneLine_marked (ht : Unbroken t) : OneLine (marked n t).toArray := by
  intro i
  cases hc : (marked n t).toArray[i]? with
  | none => rfl
  | some c =>
    rw [List.getElem?_toArray] at hc
    rw [Option.all_some, Bool.not_eq_true', Bool.or_eq_false_iff, beq_eq_false_iff_ne,
      beq_eq_false_iff_ne]
    rcases List.mem_append.mp (List.mem_of_getElem? hc) with hmark | hrest
    · rw [List.eq_of_mem_replicate hmark]
      decide
    · rcases List.mem_cons.mp hrest with rfl | hmem
      · decide
      · exact ht c hmem

lemma markerLine (hn : 0 < n) (ht : Unbroken t) : MarkerLine (marked n t).toArray n where
  line := oneLine_marked ht
  pos := hn
  marks k hk := by
    rw [List.getElem?_toArray, marked, List.getElem?_append_left (by simpa using hk),
      List.getElem?_replicate, if_pos hk]
  blank := by
    refine ⟨' ', ?_, by decide⟩
    rw [List.getElem?_toArray, marked, List.getElem?_append_right (by simp)]
    simp

lemma drop_title (n : Nat) (t : List Char) :
    (marked n t).toArray.toList.drop (marked n (leadingBlanks t)).length = titleOf t := by
  rw [← marked_titleOf n t, List.drop_left]

lemma size_marked (n : Nat) (t : List Char) :
    (marked n t).toArray.size = (marked n (leadingBlanks t)).length + (titleOf t).length := by
  rw [List.size_toArray, ← List.length_append, marked_titleOf]

/-- The title begins behind the blanks. -/
lemma skipBlanks_marked (n : Nat) (t : List Char) :
    Source.skipBlanks (marked n t).toArray n = (marked n (leadingBlanks t)).length := by
  have hdrop : (marked n t).toArray.toList.drop n = ' ' :: t := by
    rw [marked, List.drop_left' (by simp)]
  rw [Source.skipBlanks, skipWhile_eq, hdrop, List.takeWhile_cons_of_pos (by decide),
    length_marked, List.length_cons, Nat.add_comm 1]
  rfl

lemma titleAt (ht : Unbroken t) (hne : titleOf t ≠ []) :
    TitleAt (marked n t).toArray (marked n (leadingBlanks t)).length (titleOf t) where
  line := oneLine_marked ht
  drop := drop_title n t
  size := size_marked n t
  solid := by
    obtain ⟨c, cs, hcs⟩ := List.exists_cons_of_ne_nil hne
    have hhead := List.head?_dropWhile_not isInlineBlank t
    rw [← titleOf, hcs] at hhead
    exact ⟨c, by rw [hcs]; rfl, hhead⟩

end Lines

section Scans

variable {s : Source} {rules : LineRules} {l : LineScan} {i k n : Nat} {t : List Char}

/-- Marks and blanks are plain text. -/
lemma scanLineFuel_plain (hmode : rules.mode ≠ .cell) (fuel : Nat)
    (hplain : ∀ j < k, ∃ c, s[i + j]? = some c ∧ (c = '#' ∨ isInlineBlank c = true)) :
    scanLineFuel s rules (k + fuel) l i = scanLineFuel s rules fuel l (i + k) := by
  induction k generalizing i with
  | zero => rw [Nat.zero_add, Nat.add_zero]
  | succ k ih =>
    obtain ⟨c, hc, hkind⟩ := hplain 0 (Nat.succ_pos k)
    rw [Nat.add_zero] at hc
    have hstep : scanChar s rules l i c = (l, i + 1) ∧ (c == '\n' || c == '\r') = false := by
      rcases hkind with rfl | hblank
      · exact ⟨rfl, rfl⟩
      · simp only [isInlineBlank, Bool.or_eq_true, beq_iff_eq] at hblank
        rcases hblank with ((rfl | rfl) | rfl) | rfl <;> exact ⟨rfl, rfl⟩
    have hrest := @ih (i + 1) fun j hj => by
      rw [Nat.add_assoc, Nat.add_comm 1]
      exact hplain (j + 1) (Nat.succ_lt_succ hj)
    rw [Nat.add_right_comm, scanLineFuel, hc]
    simp only [hstep, hmode, decide_false, Bool.false_and, Bool.false_eq_true, if_false]
    rw [hrest, Nat.add_assoc, Nat.add_comm 1]

lemma sameRules_marked (dialect : Dialect) (front : Source) (n : Nat) (t : List Char) :
    SameRules front (marked n t).toArray (marked n (leadingBlanks t)).length
      (titleRules dialect (marked n (leadingBlanks t)).length) (paragraphRules dialect) := by
  have hpos : 0 < (marked n (leadingBlanks t)).length := by
    rw [length_marked]
    omega
  obtain ⟨b, hb⟩ := Option.ne_none_iff_exists'.mp
    (mt List.getLast?_eq_none_iff.mp (List.ne_nil_of_length_pos hpos))
  refine ⟨rfl, titleRules_mode dialect _, paragraphRules_mode dialect, rfl,
    Nat.add_pos_right _ hpos, hpos, b, ?_, isInlineBlank_getLast_marked hb⟩
  rw [getElem?_marked_of_lt (by omega), ← List.getLast?_eq_getElem?, hb]

/-- The tokens of a paragraph: nothing but plain text stands in front of the title. -/
lemma scanLine_marked (dialect : Dialect) (n : Nat) (t : List Char) :
    (scanLine (marked n t).toArray (paragraphRules dialect) [] .none).1 =
      (scanLineFuel (marked n t).toArray (paragraphRules dialect) (titleOf t).length
        ⟨[], .none, 0, false, 0, 0⟩ (marked n (leadingBlanks t)).length).1.tokens := by
  have hplain : ∀ j < (marked n (leadingBlanks t)).length,
      ∃ c, (marked n t).toArray[0 + j]? = some c ∧ (c = '#' ∨ isInlineBlank c = true) := by
    intro j hj
    rw [Nat.zero_add, getElem?_marked_of_lt hj, List.getElem?_eq_getElem hj]
    exact ⟨_, rfl, eq_or_isInlineBlank_of_mem_marked (List.getElem_mem hj)⟩
  have hskip := scanLineFuel_plain (l := ⟨[], .none, 0, false, 0, 0⟩)
    (paragraphRules_mode dialect) (titleOf t).length hplain
  rw [Nat.zero_add, ← size_marked] at hskip
  rw [← hskip]
  rfl

/-- The tokens of a line with more marks are those of its title, behind the marks. -/
lemma headed_scanLine (dialect : Dialect) (ht : Unbroken t) (hne : titleOf t ≠ []) (hk : 0 < k) :
    Headed (List.replicate k '#').toArray (marked n (leadingBlanks t)).length
      (scanLine (marked n t).toArray (titleRules dialect (marked n (leadingBlanks t)).length) []
        .none).1
      (scanLine (marked (k + n) t).toArray (paragraphRules dialect) [] .none).1 := by
  have htitle := titleAt (n := n) ht hne
  have hfront : (List.replicate k '#').toArray.size = k := by
    rw [List.size_toArray, List.length_replicate]
  have hlength : (List.replicate k '#').toArray.size + (marked n (leadingBlanks t)).length =
      (marked (k + n) (leadingBlanks t)).length := by
    rw [hfront, length_marked, length_marked, Nat.add_assoc]
  have hstart : Follows (List.replicate k '#').toArray (marked n (leadingBlanks t)).length
      (marked n (leadingBlanks t)).length
      ⟨[], .none, (marked n (leadingBlanks t)).length, false, 0, 0⟩ ⟨[], .none, 0, false, 0, 0⟩ :=
    ⟨rfl, rfl, Nat.le_refl _, Nat.le_refl _, .inl ⟨rfl, rfl, rfl, rfl, rfl⟩⟩
  have hfuel : (marked n t).toArray.size ≤
      (titleOf t).length + (marked n (leadingBlanks t)).length := by
    rw [size_marked, Nat.add_comm]
  have hscan := headed_scanLineFuel (hfront.symm ▸ hk) (sameRules_marked dialect _ n t)
    htitle.line htitle.solid_start htitle.start_lt (titleOf t).length hstart hfuel
  rw [marked_add, hlength, ← scanLine_marked] at hscan
  have hsize : (marked n t).toArray.size - (marked n (leadingBlanks t)).length =
      (titleOf t).length := by
    rw [size_marked, Nat.add_sub_cancel_left]
  rw [← hsize] at hscan
  exact hscan

end Scans

section Pieces

variable {n k : Nat} {t w : List Char}

/-- The context of a line that nothing was defined before. -/
def lineContext (dialect : Dialect) (s : Source) : TextContext :=
  ⟨s, [], false, dialect, ⟨[], []⟩⟩

/-- The pieces of the text of a heading that begins at `start` and goes on up to the end. -/
def titlePieces (dialect : Dialect) (s : Source) (start : Nat) : List Inline :=
  let tokens := headingTokens dialect s start
  addTrailing (trailingBlanks s start s.size tokens)
    ((lineContext dialect s).meaning tokens.reverse)

/-- The pieces of that text if nothing is cut off its end. -/
def wholePieces (dialect : Dialect) (s : Source) (start : Nat) : List Inline :=
  (lineContext dialect s).meaning (scanLine s (titleRules dialect start) [] .none).1.reverse

/-- The pieces of the text of a heading. -/
def headingPieces (dialect : Dialect) (n : Nat) (t : List Char) : List Inline :=
  titlePieces dialect (marked n t).toArray (marked n (leadingBlanks t)).length

/-- The pieces of that text with everything up to the end of the line. -/
def linePieces (dialect : Dialect) (n : Nat) (t : List Char) : List Inline :=
  wholePieces dialect (marked n t).toArray (marked n (leadingBlanks t)).length

/-- The pieces of the text of a paragraph. -/
def paragraphPieces (dialect : Dialect) (n : Nat) (t : List Char) : List Inline :=
  let s := (marked n t).toArray
  (lineContext dialect s).meaning (scanLine s (paragraphRules dialect) [] .none).1.reverse

lemma pieces_eq_meaning (dialect : Dialect) (s : Source) (tokens : List Token) :
    Reading.pieces ⟨s, dialect, ⟨[], []⟩⟩ ⟨tokens, s.size, [], false⟩ =
      (lineContext dialect s).meaning tokens := by
  rw [Reading.pieces, Array.extract_size]
  rfl

/-- The events of a source that is one block. -/
lemma events_of_readBlocks {dialect : Dialect} {source : List Char} {b : Block}
    (h : readBlocks dialect source.toArray = (BlockState.initial dialect).add b) :
    events dialect source = b.events ⟨source.toArray, dialect, ⟨[], []⟩⟩ := by
  rw [events, h]
  exact List.append_nil _

lemma events_heading (dialect : Dialect) (ht : Unbroken t) (hpos : 0 < n) (hn : n ≤ 6) :
    events dialect (marked n t) = .start (.heading (UInt8.ofNat n)) 0 ::
      (Inline.eventsOf (headingPieces dialect n t) ++ [.stop]) := by
  have hread := (markerLine hpos ht).readBlocks_heading hn dialect
  rw [skipBlanks_marked] at hread
  rw [events_of_readBlocks hread, Block.events, pieces_eq_meaning, headingPieces,
    titlePieces]
  simp only [taskEvents, Option.map_none, Option.toList_none, List.nil_append]

lemma events_paragraph (dialect : Dialect) (ht : Unbroken t) (hn : 6 < n) :
    events dialect (marked n t) = .start .paragraph 0 ::
      (Inline.eventsOf (paragraphPieces dialect n t) ++ [.stop]) := by
  have hread := (markerLine (by omega) ht).readBlocks_paragraph hn dialect
  have hoffset : Source.byteOffset (marked n t).toArray 0 = 0 := by
    simp [Source.byteOffset]
  rw [events_of_readBlocks hread, Block.events, Reading.content, pieces_eq_meaning, hoffset,
    paragraphPieces]
  simp only [taskEvents, Option.map_none, Option.toList_none, List.nil_append]

/-- The pieces of a paragraph with more marks are those of the line, behind the marks and the
blanks. -/
theorem paragraphPieces_cases (dialect : Dialect) (ht : Unbroken t) (hne : titleOf t ≠ [])
    (hk : 0 < k) :
    ∃ ps, (linePieces dialect n t = ps ∧
        paragraphPieces dialect (k + n) t = .text (marked (k + n) (leadingBlanks t)) :: ps) ∨
      ∃ value, linePieces dialect n t = .text value :: ps ∧
        paragraphPieces dialect (k + n) t =
          .text (marked (k + n) (leadingBlanks t) ++ value) :: ps := by
  have hpos : 0 < (marked n (leadingBlanks t)).length := by
    rw [length_marked]
    omega
  have hheaded := headed_scanLine (n := n) dialect ht hne hk
  have hprefixes : (lineContext dialect (marked n t).toArray).prefixes = [] := rfl
  have hbehind := meaning_behind hpos hprefixes hheaded
  have hctx : (lineContext dialect (marked n t).toArray).behind (List.replicate k '#').toArray =
      lineContext dialect (marked (k + n) t).toArray := by
    rw [← marked_add]
    rfl
  have hslice : Source.slice ((List.replicate k '#').toArray ++ (marked n t).toArray) 0
      ((List.replicate k '#').toArray.size + (marked n (leadingBlanks t)).length) =
        marked (k + n) (leadingBlanks t) := by
    have hlength : (List.replicate k '#').toArray.size + (marked n (leadingBlanks t)).length =
        (marked (k + n) (leadingBlanks t)).length := by
      rw [List.size_toArray, List.length_replicate, length_marked, length_marked, Nat.add_assoc]
    have hdrop : (marked (k + n) t).toArray.toList.drop 0 =
        marked (k + n) (leadingBlanks t) ++ titleOf t := (marked_titleOf (k + n) t).symm
    have hslice := slice_eq hdrop
    rwa [Nat.zero_add, ← hlength, ← marked_add] at hslice
  have hsource : (lineContext dialect (marked n t).toArray).source = (marked n t).toArray := rfl
  rw [hctx, hsource, hslice] at hbehind
  rw [linePieces, wholePieces, paragraphPieces]
  exact hbehind

/-- The blank in front of a title escapes nothing. -/
lemma isEscaped_marked (n : Nat) (t : List Char) :
    isEscaped (marked n t).toArray (marked n (leadingBlanks t)).length = false := by
  obtain ⟨i, hi⟩ : ∃ i, (marked n (leadingBlanks t)).length = i + 1 :=
    ⟨n + (leadingBlanks t).length, by rw [length_marked]; omega⟩
  have hne : marked n (leadingBlanks t) ≠ [] := List.ne_nil_of_length_pos (by omega)
  have hlast : (marked n (leadingBlanks t))[i]? =
      some ((marked n (leadingBlanks t)).getLast hne) := by
    rw [← List.getLast?_eq_some_getLast hne, List.getLast?_eq_getElem?, hi, Nat.add_sub_cancel]
  have hblank := isInlineBlank_getLast_marked (List.getLast?_eq_some_getLast hne)
  rw [hi]
  refine isEscaped_succ_of_ne ((getElem?_marked_of_lt (by omega)).trans hlast) ?_
  intro hslash
  rw [hslash] at hblank
  cases hblank

lemma addTrailing_cases (tail : List Char) (ps : List Inline) :
    addTrailing tail ps = ps ∨ tail ≠ [] ∧ addTrailing tail ps = ps ++ [.text tail] := by
  unfold addTrailing
  split
  · exact .inl rfl
  · next hne =>
    split
    · exact .inr ⟨by simpa using hne, rfl⟩
    · exact .inl rfl

lemma trailingBlanks_cases (s : Source) (start : Nat) (tokens : List Token) :
    trailingBlanks s start s.size tokens = [] ∨ ∃ u ∈ tokens.head?,
      trailingBlanks s start s.size tokens = s.slice u.stop (headingLimit s start s.size) := by
  unfold trailingBlanks
  split
  · exact .inl rfl
  · next u ts =>
    split
    · exact .inl rfl
    · exact .inl rfl
    · exact .inr ⟨u, rfl, rfl⟩

section Endings

variable {s : Source} {start : Nat} {cs : List Char}

/-- A line whose last token is plain text has an ending as text behind what it means without. -/
lemma meaning_ending {first : Nat} {tail : List Char} {ts : List Token} (dialect : Dialect)
    (h : TitleAt s start cs) (htrimmed : trimmedTitle cs = w ++ tail) (htail : IsEnding tail)
    (hne : tail ≠ []) (escaped : Bool) (hfirst : first ≤ start + w.length)
    (hbrackets : ∀ k ≥ first, s[k]? = some ']' → isEscaped s k = true)
    (hmeets : ∀ u ∈ ts.head?, Meets s first u) :
    TextBehind tail
      ((lineContext dialect s).meaning (⟨.text escaped, first, start + w.length⟩ :: ts).reverse)
      ((lineContext dialect s).meaning
        (⟨.text escaped, first, start + (trimmedTitle cs).length⟩ :: ts).reverse) := by
  have hforward : start + w.length < start + (trimmedTitle cs).length := by
    rw [htrimmed, List.length_append]
    have hpos := List.length_pos_of_ne_nil hne
    omega
  have hend : PlainEnd (lineContext dialect s) first (start + w.length)
      (start + (trimmedTitle cs).length) :=
    ⟨h.line, rfl, h.endsWithMarks htrimmed htail, hforward, hbrackets⟩
  have hmeets' : ∀ u ∈ ts.reverse.getLast?, Meets s first u := by
    rwa [List.getLast?_reverse]
  have hlonger := meaning_longer hend escaped hfirst hmeets'
  have hsource : (lineContext dialect s).source = s := rfl
  rw [hsource, h.slice_ending htrimmed] at hlonger
  rw [List.reverse_cons, List.reverse_cons]
  exact hlonger

/-- The last token of a title ends where its blanks begin. -/
lemma stop_of_head_title (h : TitleAt s start cs) {dialect : Dialect} {u : Token}
    (hu : u ∈ (scanLine s (titleRules dialect start) [] .none).1.head?) :
    u.stop = start + (cs.rdropWhile isInlineBlank).length :=
  (stop_of_head_scanLine h.line (titleRules_mode dialect start) h.start_lt h.solid_start .none
    hu).trans h.skipBack_blanks

/-- If no closing sequence is cut off, a heading has all pieces of its text, and the blanks behind
it at most. -/
lemma titlePieces_of_unclosed (dialect : Dialect) (h : TitleAt s start cs)
    (hslash : isEscaped s start = false) (hclosing : closing? cs = none) :
    titlePieces dialect s start = wholePieces dialect s start ∨
      (trimmedTitle cs).rtakeWhile isInlineBlank ≠ [] ∧
        TextBehind ((trimmedTitle cs).rtakeWhile isInlineBlank) (wholePieces dialect s start)
          (titlePieces dialect s start) := by
  have htrimmed := trimmedTitle_eq_append cs
  have hending : IsEnding ((trimmedTitle cs).rtakeWhile isInlineBlank) :=
    isEnding_of_blanks fun c hc => List.mem_rtakeWhile_imp hc
  generalize (trimmedTitle cs).rtakeWhile isInlineBlank = tail at htrimmed hending ⊢
  have hbody : start + (cs.rdropWhile isInlineBlank).length ≤ s.size := by
    rw [h.size]
    exact Nat.add_le_add_left (List.rdropWhile_prefix _ _).length_le _
  rcases lastToken_scanLine h.line (titleRules_mode dialect start)
    (h.endsWithMarks htrimmed hending) hbody (Nat.le_add_right _ _) hslash with
    ⟨escaped, first, stop, ts, hscan, hfirst, hbrackets, hmeets⟩ | ⟨htext, -⟩
  · obtain rfl := stop_of_head_title h (u := ⟨.text escaped, first, stop⟩) (by rw [hscan]; rfl)
    have hpieces : titlePieces dialect s start = (lineContext dialect s).meaning
        (⟨.text escaped, first, start + (trimmedTitle cs).length⟩ :: ts).reverse := by
      rw [titlePieces, headingTokens, hscan, h.cutClosing_of_unclosed hclosing]
      rfl
    rw [hpieces, wholePieces, hscan]
    by_cases hnil : tail = []
    · rw [hnil, List.append_nil] at htrimmed
      exact .inl (by rw [htrimmed])
    · exact .inr ⟨hnil, meaning_ending dialect h htrimmed hending hnil escaped hfirst hbrackets
        hmeets⟩
  · have htokens : headingTokens dialect s start =
        (scanLine s (titleRules dialect start) [] .none).1 :=
      h.cutClosing_of_not_text hclosing fun u hu e hkind =>
        absurd (stop_of_head_title h hu) (Nat.ne_of_lt (htext u hu e hkind))
    rw [titlePieces, htokens, ← wholePieces]
    refine (addTrailing_cases _ _).imp id fun ⟨hne, hshown⟩ => ?_
    rw [hshown]
    obtain ⟨u, hu, htrailing⟩ := (trailingBlanks_cases _ _ _).resolve_left hne
    rw [stop_of_head_title h hu, h.headingLimit_eq, h.slice_ending htrimmed] at htrailing
    rw [htrailing] at hne ⊢
    exact ⟨hne, .inl rfl⟩

/-- If a closing sequence is cut off behind a title, its line has it as text behind the pieces of
the heading. -/
lemma wholePieces_of_closed (dialect : Dialect) (h : TitleAt s start cs)
    (hslash : isEscaped s start = false) (hclosing : closing? cs = some w) (hw : w ≠ []) :
    ∃ i j, TextBehind (closer i j) (titlePieces dialect s start)
      (wholePieces dialect s start) := by
  obtain ⟨i, j, htrimmed⟩ := trimmedTitle_of_closing? hclosing hw
  refine ⟨i, j, ?_⟩
  have hending := isEnding_closer i j
  have hlast := h.getElem?_closing hclosing
  have hpos := List.length_pos_of_ne_nil (closer_ne_nil i j)
  have hlength : (trimmedTitle cs).length = w.length + (closer i j).length := by
    rw [htrimmed, List.length_append]
  have hbody := (Array.getElem?_eq_some_iff.mp hlast).1
  -- The mark at the end is behind the last token but for plain text.
  obtain ⟨escaped, first, stop, ts, hscan, hfirst, hbrackets, hmeets⟩ :=
    (lastToken_scanLine h.line (titleRules_mode dialect start) (h.endsWithMarks htrimmed hending)
      (by omega) (Nat.le_add_right _ _) hslash).resolve_right fun ⟨_, hblanks⟩ =>
        absurd (hblanks _ (by omega) '#' hlast) (by decide)
  have hstop : stop = start + (trimmedTitle cs).length := by
    have hback := h.skipBack_trimmed (q := isInlineBlank) (by decide) fun c hc => by
      rw [getLast?_of_closing? hclosing] at hc
      rw [← Option.some.inj hc]
      decide
    rw [← hback]
    exact stop_of_head_scanLine h.line (titleRules_mode dialect start) h.start_lt h.solid_start
      .none (t := ⟨.text escaped, first, stop⟩) (by rw [hscan]; rfl)
  have htokens : headingTokens dialect s start =
      ⟨.text escaped, first, start + w.length⟩ :: ts := by
    rw [headingTokens, hscan, h.cutClosing_of_closed hclosing, if_neg hw]
  rw [titlePieces, wholePieces, htokens, hscan, hstop]
  exact meaning_ending dialect h htrimmed hending (closer_ne_nil i j) escaped hfirst hbrackets
    hmeets

end Endings

/-- If no closing sequence is cut off the end of a title, the heading has all pieces of its line,
and the blanks behind it at most. -/
theorem headingPieces_of_unclosed (dialect : Dialect) (ht : Unbroken t) (hne : titleOf t ≠ [])
    (hclosing : closing? (titleOf t) = none) :
    headingPieces dialect n t = linePieces dialect n t ∨
      (trimmedTitle (titleOf t)).rtakeWhile isInlineBlank ≠ [] ∧
        TextBehind ((trimmedTitle (titleOf t)).rtakeWhile isInlineBlank) (linePieces dialect n t)
          (headingPieces dialect n t) :=
  titlePieces_of_unclosed dialect (titleAt ht hne) (isEscaped_marked n t) hclosing

/-- If a closing sequence is cut off behind a title, the line has it as text behind the pieces of
the heading. -/
theorem linePieces_of_closed (dialect : Dialect) (ht : Unbroken t)
    (hclosing : closing? (titleOf t) = some w) (hw : w ≠ []) :
    ∃ i j, TextBehind (closer i j) (headingPieces dialect n t) (linePieces dialect n t) :=
  wholePieces_of_closed dialect (titleAt ht (ne_nil_of_closing? hclosing)) (isEscaped_marked n t)
    hclosing hw

lemma meaning_text (ctx : TextContext) (escaped : Bool) (i j : Nat) :
    ctx.meaning [⟨.text escaped, i, j⟩] = [.text (ctx.source.slice i j)] := rfl

lemma not_mem_markChars_of_isInlineBlank {c : Char} (hc : isInlineBlank c = true) :
    c ∉ markChars := by
  simp only [isInlineBlank, Bool.or_eq_true, beq_iff_eq] at hc
  rcases hc with ((rfl | rfl) | rfl) | rfl <;> decide

lemma not_mem_markChars_marked (hplain : ∀ c ∈ t, c ∉ markChars) :
    ∀ c ∈ marked n t, c ∉ markChars := by
  intro c hc
  rcases List.mem_append.mp hc with hmark | hrest
  · rw [List.eq_of_mem_replicate hmark]
    decide
  · rcases List.mem_cons.mp hrest with rfl | hmem
    · decide
    · exact hplain c hmem

lemma not_mem_markChars_of_getElem? (hplain : ∀ c ∈ t, c ∉ markChars) {k : Nat} :
    ∀ c ∈ (marked n t).toArray[k]?, c ∉ markChars := by
  intro c hc
  rw [List.getElem?_toArray] at hc
  exact not_mem_markChars_marked hplain c (List.mem_of_getElem? hc)

lemma rdropWhile_marked_ne_nil (hn : 0 < n) : (marked n t).rdropWhile isInlineBlank ≠ [] := by
  intro hnil
  have hmem : '#' ∈ marked n t :=
    List.mem_append_left _ (List.mem_replicate.mpr ⟨by omega, rfl⟩)
  exact absurd (List.rdropWhile_eq_nil_iff.mp hnil '#' hmem) (by decide)

/-- A paragraph of nothing but plain text. -/
lemma paragraphPieces_of_plain (dialect : Dialect) (ht : Unbroken t) (hn : 0 < n)
    (hplain : ∀ c ∈ t, c ∉ markChars) :
    paragraphPieces dialect n t = [.text ((marked n t).rdropWhile isInlineBlank)] := by
  obtain ⟨escaped, hscan⟩ := scanLine_unmarked (oneLine_marked ht) (paragraphRules_mode dialect)
    (fun _ _ => not_mem_markChars_of_getElem? hplain) (Nat.zero_le _) .none
  have hdrop : (marked n t).toArray.toList.drop 0 = marked n t ++ [] := (List.append_nil _).symm
  have hback : Source.skipBack (marked n t).toArray isInlineBlank 0 (marked n t).toArray.size =
      ((marked n t).rdropWhile isInlineBlank).length := by
    have hback := skipBack_eq (q := isInlineBlank) hdrop
    rwa [Nat.zero_add, Nat.zero_add] at hback
  have hpos := List.length_pos_of_ne_nil (rdropWhile_marked_ne_nil (t := t) hn)
  have hstart : (paragraphRules dialect).start = 0 := rfl
  rw [hstart, hback, Nat.zero_max, addText_nil hpos] at hscan
  have hslice : Source.slice (marked n t).toArray 0
      ((marked n t).rdropWhile isInlineBlank).length = (marked n t).rdropWhile isInlineBlank := by
    have hdrop : (marked n t).toArray.toList.drop 0 = (marked n t).rdropWhile isInlineBlank ++
        (marked n t).rtakeWhile isInlineBlank := List.rdropWhile_append_rtakeWhile.symm
    have hslice := slice_eq hdrop
    rwa [Nat.zero_add] at hslice
  rw [paragraphPieces, hscan, List.reverse_singleton, meaning_text]
  exact congrArg (fun value => [Inline.text value]) hslice

section Blanks

variable (ht : Unbroken t) (hnil : titleOf t = [])

include ht hnil

/-- A line with nothing but blanks behind the marks is a heading without a text. -/
theorem headingPieces_of_blank (dialect : Dialect) (n : Nat) : headingPieces dialect n t = [] := by
  have hsize := size_marked n t
  rw [hnil, List.length_nil, Nat.add_zero] at hsize
  have hmode := titleRules_mode dialect (marked n (leadingBlanks t)).length
  have hmarks : ∀ k ≥ (marked n (leadingBlanks t)).length, ∀ c ∈ (marked n t).toArray[k]?,
      c ∉ markChars := by
    intro k hk c hc
    rw [Array.getElem?_eq_none (hsize ▸ hk)] at hc
    cases hc
  obtain ⟨escaped, hscan⟩ := scanLine_unmarked (oneLine_marked ht) hmode hmarks
    (Nat.le_of_eq hsize.symm) .none
  rw [addText_of_le] at hscan
  · rw [headingPieces, titlePieces, headingTokens, hscan]
    rfl
  · have hback := Source.skipBack_le (s := (marked n t).toArray) (p := isInlineBlank)
      (marked n (leadingBlanks t)).length (marked n t).toArray.size
    rw [Nat.max_le]
    exact ⟨Nat.le_refl _, Nat.le_trans hback (Nat.le_of_eq hsize)⟩

/-- The text of a paragraph is all marks then. -/
theorem paragraphPieces_of_blank (dialect : Dialect) (hn : 0 < n) :
    paragraphPieces dialect n t = [.text (List.replicate n '#')] := by
  have hblank : ∀ c ∈ t, isInlineBlank c = true := List.dropWhile_eq_nil_iff.mp hnil
  have hplain : ∀ c ∈ t, c ∉ markChars := fun c hc =>
    not_mem_markChars_of_isInlineBlank (hblank c hc)
  rw [paragraphPieces_of_plain dialect ht hn hplain, marked, rdropWhile_eq_of_append]
  · exact List.forall_mem_cons.mpr ⟨by decide, hblank⟩
  · intro c hc
    rw [List.eq_of_mem_replicate (List.mem_of_getLast? hc)]
    decide

end Blanks

section Marks

variable (ht : Unbroken t) (hclosing : closing? (titleOf t) = some [])

include hclosing

/-- If a closing sequence is all there is of a title, it begins with a mark. -/
lemma trimmedTitle_of_marks : ∃ j, trimmedTitle (titleOf t) = List.replicate (j + 1) '#' := by
  obtain ⟨i, j, htrimmed, -⟩ := exists_of_closing? hclosing
  cases i with
  | zero => exact ⟨j, htrimmed⟩
  | succ i =>
    have hhead := List.head?_dropWhile_not isInlineBlank t
    rw [← titleOf, TitleAt.split (titleOf t), htrimmed] at hhead
    cases hhead

lemma not_mem_markChars_of_marks : ∀ c ∈ t, c ∉ markChars := by
  obtain ⟨j, htrimmed⟩ := trimmedTitle_of_marks hclosing
  intro c hc
  rw [← List.takeWhile_append_dropWhile (p := isInlineBlank) (l := t)] at hc
  rcases List.mem_append.mp hc with hblank | htitle
  · exact not_mem_markChars_of_isInlineBlank (isInlineBlank_of_mem_leadingBlanks hblank)
  · rw [← titleOf, TitleAt.split (titleOf t), htrimmed] at htitle
    rcases List.mem_append.mp htitle with hmark | hspace
    · rw [List.eq_of_mem_replicate hmark]
      decide
    · rw [beq_iff_eq.mp (List.mem_rtakeWhile_imp (p := (· == ' ')) hspace)]
      decide

include ht

/-- A heading with nothing but a closing sequence has no text. -/
theorem headingPieces_of_marks (dialect : Dialect) (n : Nat) : headingPieces dialect n t = [] := by
  have htitle := titleAt (n := n) ht (ne_nil_of_closing? hclosing)
  have hmode := titleRules_mode dialect (marked n (leadingBlanks t)).length
  have hplain := not_mem_markChars_of_marks hclosing
  obtain ⟨escaped, hscan⟩ := scanLine_unmarked htitle.line hmode
    (fun _ _ => not_mem_markChars_of_getElem? hplain) (Nat.le_of_lt htitle.start_lt) .none
  have hback := htitle.skipBack_trimmed (q := isInlineBlank) (by decide) fun c hc => by
    rw [getLast?_of_closing? hclosing] at hc
    rw [← Option.some.inj hc]
    decide
  have hpos := List.length_pos_of_ne_nil htitle.trimmed_ne_nil
  have hstart : (titleRules dialect (marked n (leadingBlanks t)).length).start =
      (marked n (leadingBlanks t)).length := rfl
  rw [hstart, hback, Nat.max_eq_right (Nat.le_add_right _ _), addText_nil (by omega)] at hscan
  rw [headingPieces, titlePieces, headingTokens, hscan, htitle.cutClosing_of_closed hclosing,
    if_pos rfl]
  rfl

/-- The text of a paragraph keeps the closing sequence. -/
theorem paragraphPieces_of_marks (dialect : Dialect) (hn : 0 < n) :
    ∃ j, paragraphPieces dialect n t =
      [.text (marked n (leadingBlanks t) ++ List.replicate (j + 1) '#')] := by
  obtain ⟨j, htrimmed⟩ := trimmedTitle_of_marks hclosing
  refine ⟨j, ?_⟩
  have hsplit : marked n t = marked n (leadingBlanks t) ++ List.replicate (j + 1) '#' ++
      (titleOf t).rtakeWhile (· == ' ') := by
    rw [← htrimmed, List.append_assoc, ← TitleAt.split (titleOf t), marked_titleOf]
  rw [paragraphPieces_of_plain dialect ht hn (not_mem_markChars_of_marks hclosing), hsplit,
    rdropWhile_eq_of_append]
  · intro c hc
    rw [beq_iff_eq.mp (List.mem_rtakeWhile_imp (p := (· == ' ')) hc)]
    decide
  · intro c hc
    rw [List.getLast?_append_of_ne_nil _ (by simp)] at hc
    rw [List.eq_of_mem_replicate (List.mem_of_getLast? hc)]
    decide

end Marks

end Pieces

end Folio.Markdown
