import Folio.Proofs.OneLineSources
import Mathlib.Data.List.DropRight

/-!
# The last token of a line

A step within a line goes on with the piece of plain text at hand, or it ends the piece. What is at
hand after each step tells where the last token of the line begins and ends, also if the line ends
with marks of a heading.
-/

namespace Folio.Markdown

section Skips

variable {s : Source} {q : Char → Bool} {i k low : Nat} {c : Char} {cs more : List Char}

lemma drop_toList_eq_cons (hc : s[i]? = some c) : s.toList.drop i = c :: s.toList.drop (i + 1) := by
  obtain ⟨hi, rfl⟩ := Array.getElem?_eq_some_iff.mp hc
  exact List.drop_eq_getElem_cons (by simpa using hi)

lemma skipWhile_eq (s : Source) (q : Char → Bool) (i : Nat) :
    s.skipWhile q i = i + ((s.toList.drop i).takeWhile q).length := by
  have hfuel (fuel i : Nat) (hfuel : s.size ≤ fuel + i) :
      s.skipWhileFuel q fuel i = i + ((s.toList.drop i).takeWhile q).length := by
    induction fuel generalizing i with
    | zero =>
      rw [List.drop_of_length_le (by simpa using hfuel)]
      rfl
    | succ fuel ih =>
      rw [Source.skipWhileFuel]
      cases hc : s[i]? with
      | none =>
        have hend := Array.getElem?_eq_none_iff.mp hc
        rw [List.drop_of_length_le (by simpa using hend)]
        rfl
      | some c =>
        rw [drop_toList_eq_cons hc]
        cases hq : q c with
        | true =>
          rw [List.takeWhile_cons_of_pos hq, List.length_cons]
          simp only [hq, if_true]
          rw [ih (i + 1) (by omega)]
          omega
        | false =>
          rw [List.takeWhile_cons_of_neg (by simp [hq])]
          simp [hq]
  exact hfuel _ i (by omega)

lemma any_of_lt_skipWhile (hi : i ≤ k) (hk : k < s.skipWhile q i) : s[k]?.any q = true := by
  rw [skipWhile_eq] at hk
  have hlt : k - i < ((s.toList.drop i).takeWhile q).length := by omega
  have hget : s[k]? = ((s.toList.drop i).takeWhile q)[k - i]? := by
    obtain ⟨rest, hrest⟩ := List.takeWhile_prefix q (l := s.toList.drop i)
    rw [← List.getElem?_append_left hlt, hrest, List.getElem?_drop, Nat.add_sub_cancel' hi,
      Array.getElem?_toList]
  rw [hget, List.getElem?_eq_getElem hlt, Option.any_some]
  exact List.all_eq_true.mp List.all_takeWhile _ (List.getElem_mem hlt)

/-- What stands between two positions. -/
lemma slice_eq (h : s.toList.drop i = cs ++ more) : s.slice i (i + cs.length) = cs := by
  rw [Source.slice, Array.toList_extract, List.extract_eq_take_drop, h, Nat.add_sub_cancel_left,
    List.take_left]

/-- Skipping back over the characters that stand between two positions. -/
lemma skipBack_eq (h : s.toList.drop low = cs ++ more) :
    s.skipBack q low (low + cs.length) = low + (cs.rdropWhile q).length := by
  unfold Source.skipBack
  induction cs using List.reverseRecOn generalizing more with
  | nil =>
    cases low with
    | zero => rfl
    | succ low =>
      rw [List.length_nil, Nat.add_zero, Source.skipBackFuel,
        decide_eq_false (Nat.not_succ_le_self low)]
      rfl
  | append_singleton cs c ih =>
    rw [List.append_assoc] at h
    have hc : s[low + cs.length]? = some c := by
      rw [← Array.getElem?_toList, ← List.getElem?_drop, h]
      simp
    rw [List.length_append, List.length_singleton, ← Nat.add_assoc, Source.skipBackFuel, hc,
      List.rdropWhile_concat, decide_eq_true (Nat.le_add_right _ _), Bool.true_and,
      Option.any_some]
    split
    · exact ih h
    · rw [List.length_append, List.length_singleton, Nat.add_assoc]

/-- A character that is not skipped bounds what is skipped, from wherever. -/
lemma skipBack_eq_max {m : Nat} (hlow : low < m) (hm : m ≤ i) (hk : s[m - 1]?.any q = false) :
    s.skipBack q low i = max m (s.skipBack q m i) := by
  unfold Source.skipBack
  induction i with
  | zero => omega
  | succ i ih =>
    rw [Source.skipBackFuel, Source.skipBackFuel]
    rcases Nat.lt_or_eq_of_le hm with hlt | rfl
    · rw [decide_eq_true (by omega), decide_eq_true (by omega)]
      split
      · exact ih (by omega)
      · omega
    · rw [Nat.add_sub_cancel] at hk
      simp [hk]

lemma of_mem_getLast?_rdropWhile {cs : List Char} (hc : c ∈ (cs.rdropWhile q).getLast?) :
    q c = false := by
  have hne : cs.rdropWhile q ≠ [] := by
    intro hnil
    rw [hnil] at hc
    cases hc
  rw [List.getLast?_eq_some_getLast hne] at hc
  cases hc
  exact Bool.eq_false_iff.mpr (List.rdropWhile_last_not q cs hne)

lemma rdropWhile_eq_of_append {xs ys : List Char} (hys : ∀ c ∈ ys, q c = true)
    (hxs : ∀ c ∈ xs.getLast?, q c = false) : (xs ++ ys).rdropWhile q = xs := by
  induction ys using List.reverseRecOn with
  | nil =>
    rw [List.append_nil, List.rdropWhile_eq_self_iff]
    intro hne
    rw [hxs _ (List.getLast?_eq_some_getLast hne)]
    exact Bool.false_ne_true
  | append_singleton ys c ih =>
    rw [← List.append_assoc, List.rdropWhile_concat_pos _ _ _ (hys c (by simp))]
    exact ih fun d hd => hys d (List.mem_append_left _ hd)

end Skips

section Steps

variable {s : Source} {rules : LineRules} {l : LineScan} {i k : Nat} {c : Char}

/-- The characters that a token ends with, unless it is plain text. -/
def tokenEnds : List Char :=
  ['*', '_', '~', '$', '\x60', '<', '[', ']', ';']

lemma isInlineBlank_of_mem_tokenEnds : ∀ c ∈ tokenEnds, isInlineBlank c = false := by
  simp [tokenEnds, isInlineBlank]

/-- What a step within a line leaves at hand: the piece goes on, or a token ends where the next step
begins, or a piece begins behind a backslash. -/
inductive Passed (s : Source) (l : LineScan) (i : Nat) (c : Char) : LineScan × Nat → Prop where
  | plain {l' : LineScan} (htokens : l'.tokens = l.tokens) (hpending : l'.pending = l.pending)
    (hc : c ≠ ']') (hslash : c = '\\' → isEscape s i = false) : Passed s l i c (l', i + 1)
  | run {next : Nat} (hc : c ∈ tokenEnds) (hne : c ≠ ']') (hnext : i < next)
    (hrun : ∀ k, i ≤ k → k < next → s[k]? = some c) : Passed s l i c (l, next)
  | token {l' : LineScan} {t : Token} (htokens : l'.tokens = t :: (l.flush i).tokens)
    (hkind : ∀ e, t.kind ≠ .text e) (hpending : l'.pending = t.stop) (hforward : i < t.stop)
    (hlast : ∃ d ∈ tokenEnds, s[t.stop - 1]? = some d) : Passed s l i c (l', t.stop)
  | escape {l' : LineScan} (hescape : isEscape s i = true)
    (htokens : l'.tokens = (l.flush i).tokens) (hpending : l'.pending = i + 1) :
    Passed s l i c (l', i + 2)

lemma getElem?_of_lt_run (hi : i ≤ k) (hk : k < i + s.runLength c i) : s[k]? = some c := by
  have hrun : s[k]?.any (· == c) = true := by
    refine any_of_lt_skipWhile hi ?_
    unfold Source.runLength at hk
    omega
  obtain ⟨d, hd, hdc⟩ := (Option.any_eq_true _ _).mp hrun
  rw [hd, beq_iff_eq.mp hdc]

lemma Passed.within {l' : LineScan} (htokens : l'.tokens = l.tokens)
    (hpending : l'.pending = l.pending) (hc : c ∉ ['\\', ']']) : Passed s l i c (l', i + 1) := by
  rw [List.mem_pair, not_or] at hc
  exact .plain htokens hpending hc.2 fun h => absurd h hc.1

lemma Passed.mark {kind : TokenKind} {l' : LineScan} {stop : Nat} {d : Char}
    (hkind : ∀ e, kind ≠ .text e) (hforward : i < stop) (hd : d ∈ tokenEnds)
    (hlast : s[stop - 1]? = some d) (htokens : l'.tokens = (l.mark kind i stop).tokens)
    (hpending : l'.pending = stop) : Passed s l i c (l', stop) :=
  .token (t := ⟨kind, i, stop⟩) htokens hkind hpending hforward ⟨d, hd, hlast⟩

/-- One character that is a token. -/
lemma Passed.mark_one {kind : TokenKind} {l' : LineScan} (hkind : ∀ e, kind ≠ .text e)
    (hc : s[i]? = some c) (hmem : c ∈ tokenEnds)
    (htokens : l'.tokens = (l.mark kind i (i + 1)).tokens) (hpending : l'.pending = i + 1) :
    Passed s l i c (l', i + 1) :=
  .mark hkind (Nat.lt_succ_self i) hmem hc htokens hpending

/-- A run of one character that is a token. -/
lemma Passed.mark_run {kind : TokenKind} (hkind : ∀ e, kind ≠ .text e) (hc : s[i]? = some c)
    (hmem : c ∈ tokenEnds) :
    Passed s l i c (l.mark kind i (i + s.runLength c i), i + s.runLength c i) := by
  have hpos := Source.runLength_pos hc
  have hlast := getElem?_of_lt_run (s := s) (c := c) (i := i) (k := i + s.runLength c i - 1)
    (by omega) (by omega)
  exact .mark hkind (by omega) hmem hlast rfl rfl

lemma passed_scanBackslash {mode : PipeMode} (hmode : mode ≠ .cell) :
    Passed s l i '\\' (scanBackslash s mode l i) := by
  unfold scanBackslash
  simp only [hmode, decide_false, Bool.false_and, Bool.false_eq_true, if_false]
  split
  · next hescape =>
    split
    · next htick =>
      have htick := beq_iff_eq.mp htick
      have hpos := Source.runLength_pos htick
      have hstop : i + 1 + s.runLength '\x60' (i + 1) = s.skipWhile (· == '\x60') (i + 1) :=
        Nat.add_sub_cancel' Source.le_skipWhile
      have hlast := getElem?_of_lt_run (s := s) (c := '\x60') (i := i + 1)
        (k := i + 1 + s.runLength '\x60' (i + 1) - 1) (by omega) (by omega)
      rw [hstop] at hlast
      exact .token (t := ⟨.backticks true, i + 1, s.skipWhile (· == '\x60') (i + 1)⟩) rfl (by simp)
        rfl (by dsimp only; omega) ⟨'\x60', by decide, hlast⟩
    · exact .escape hescape rfl rfl
  · next hescape => exact .plain rfl rfl (by decide) fun _ => Bool.eq_false_iff.mpr hescape

lemma passed_scanChar (hmode : rules.mode ≠ .cell) (l : LineScan) (hc : s[i]? = some c) :
    Passed s l i c (scanChar s rules l i c) := by
  have hpos := Source.runLength_pos hc
  -- The three delimiters share one branch.
  have hdelimiters {plain taken opens closes : Bool} (hmem : c ∈ tokenEnds) (hne : c ≠ ']')
      (hslash : c ≠ '\\') : Passed s l i c (if plain = true then (l, i + 1) else
        if taken = true then
          (l.mark (.delimiters c opens closes) i (i + s.runLength c i), i + s.runLength c i)
        else (l, i + s.runLength c i)) := by
    split
    · exact .within rfl rfl (by simp [hne, hslash])
    split
    · exact .mark_run (by simp) hc hmem
    · exact .run hmem hne (by omega) fun k hi hk => getElem?_of_lt_run hi hk
  unfold scanChar
  dsimp only
  split
  · exact passed_scanBackslash hmode
  · exact hdelimiters (by decide) (by decide) (by decide)
  · exact hdelimiters (by decide) (by decide) (by decide)
  · exact hdelimiters (by decide) (by decide) (by decide)
  · split
    · exact .mark_one (by simp) hc (by decide) rfl rfl
    · exact .within rfl rfl (by decide)
  · split <;> exact .within rfl rfl (by decide)
  · split <;> exact .within rfl rfl (by decide)
  · exact .mark_run (by simp) hc (by decide)
  · split
    · exact .within rfl rfl (by decide)
    · exact .mark_one (by simp) hc (by decide) rfl rfl
  · split
    · next hbracket =>
      exact .mark (by simp) (by omega) (d := '[') (by decide) (beq_iff_eq.mp hbracket) rfl rfl
    · exact .within rfl rfl (by decide)
  · exact .mark_one (by simp) hc (by decide) rfl rfl
  · exact .mark_one (by simp) hc (by decide) rfl rfl
  · split
    · next hreference =>
      obtain ⟨e, rfl, hend⟩ := exists_hasAt_of_charReference? hreference
      exact .mark (by simp) (lt_charReference hreference) (d := ';') (by decide)
        (beq_iff_eq.mp hend) rfl rfl
    · exact .within rfl rfl (by decide)
  · split <;> exact .within rfl rfl (by decide)
  · next hslash _ _ _ _ _ _ _ _ _ _ hclose _ _ =>
    refine .within rfl rfl ?_
    rw [List.mem_pair, not_or]
    exact ⟨hslash, hclose⟩

end Steps

section LastTokens

variable {s : Source} {rules : LineRules} {l : LineScan} {i low stop : Nat} {c : Char}
  {ts : List Token}

/-- Where the latest token ends: at the piece at hand, behind a character that is no blank, unless
that piece is sure to become a token, for it begins with such a character. -/
inductive Reaches (s : Source) (low : Nat) (l : LineScan) : Prop where
  | piece (hlow : low ≤ l.pending) (hlt : l.pending < s.size)
    (hsolid : s[l.pending]?.any isInlineBlank = false)
  | token (t : Token) (hmem : l.tokens.head? = some t) (hstop : t.stop = l.pending)
    (hlow : low < l.pending) (hle : l.pending ≤ s.size)
    (hsolid : s[l.pending - 1]?.any isInlineBlank = false)

lemma stop_of_head_addText {start : Nat} (h : start < stop) (escaped : Bool) (ts : List Token)
    {t : Token} (ht : (addText start stop escaped ts).head? = some t) : t.stop = stop := by
  unfold addText at ht
  rw [if_pos h] at ht
  split at ht
  · split at ht <;> cases ht <;> rfl
  · cases ht
    rfl

lemma Reaches.congr {l' : LineScan} (h : Reaches s low l) (htokens : l'.tokens = l.tokens)
    (hpending : l'.pending = l.pending) : Reaches s low l' := by
  cases h with
  | piece hlow hlt hsolid => exact .piece (hpending ▸ hlow) (hpending ▸ hlt) (hpending ▸ hsolid)
  | token t hmem hstop hlow hle hsolid =>
    exact .token t (htokens ▸ hmem) (hpending ▸ hstop) (hpending ▸ hlow) (hpending ▸ hle)
      (hpending ▸ hsolid)

/-- A step keeps this. -/
lemma Reaches.passed (h : Reaches s low l) (hi : low ≤ i) {r : LineScan × Nat}
    (hstep : Passed s l i c r) : Reaches s low r.1 := by
  cases hstep with
  | plain htokens hpending => exact h.congr htokens hpending
  | run => exact h
  | @token l' t htokens hkind hpending hforward hlast =>
    obtain ⟨d, hd, hlast⟩ := hlast
    have hsize := (Array.getElem?_eq_some_iff.mp hlast).1
    refine .token t (by rw [htokens]; rfl) hpending.symm ?_ ?_ ?_ <;> dsimp only <;> rw [hpending]
    · exact Nat.lt_of_le_of_lt hi hforward
    · omega
    · rw [hlast, Option.any_some, isInlineBlank_of_mem_tokenEnds d hd]
  | @escape l' hescape htokens hpending =>
    obtain ⟨d, hd, hpunctuation⟩ := (Option.any_eq_true _ _).mp (Bool.and_eq_true_iff.mp hescape).2
    have hlt := (Array.getElem?_eq_some_iff.mp hd).1
    refine .piece ?_ ?_ ?_ <;> dsimp only <;> rw [hpending]
    · exact Nat.le_succ_of_le hi
    · exact hlt
    rw [hd, Option.any_some, ← Bool.not_eq_true]
    intro hblank
    simp only [isInlineBlank, Bool.or_eq_true, beq_iff_eq] at hblank
    rcases hblank with ((rfl | rfl) | rfl) | rfl <;> exact absurd hpunctuation (by decide)

/-- The latest token of a line ends where its last character is that is no blank. -/
lemma Reaches.flush (h : Reaches s low l) {t : Token}
    (ht : (l.flush (max l.pending (s.skipBack isInlineBlank l.pending s.size))).tokens.head? =
      some t) : t.stop = s.skipBack isInlineBlank low s.size := by
  cases h with
  | piece hlow hlt hsolid =>
    have hback := Source.lt_skipBack l.pending hlt hsolid
    rw [stop_of_head_addText (by omega) _ _ ht, Nat.max_eq_right (Nat.le_of_lt hback),
      skipBack_eq_of_not hsolid (Nat.le_refl _) hlow hlt]
  | token u hmem hstop hlow hle hsolid =>
    rw [skipBack_eq_max hlow hle hsolid]
    rcases Nat.lt_or_ge l.pending (s.skipBack isInlineBlank l.pending s.size) with hlt | hge
    · exact stop_of_head_addText (by omega) _ _ ht
    · rw [Nat.max_eq_left hge] at ht ⊢
      rw [LineScan.flush, addText_of_le (Nat.le_refl _), hmem] at ht
      rw [← Option.some.inj ht, hstop]

lemma stop_of_head_scanLineFuel (hline : OneLine s) (hmode : rules.mode ≠ .cell)
    (h : Reaches s low l) (hlow : low ≤ i) (hi : i ≤ s.size) (fuel : Nat)
    (hfuel : s.size ≤ fuel + i) {t : Token}
    (ht : (scanLineFuel s rules fuel l i).1.tokens.head? = some t) :
    t.stop = s.skipBack isInlineBlank low s.size := by
  induction fuel generalizing l i with
  | zero =>
    obtain rfl : i = s.size := by omega
    exact h.flush ht
  | succ fuel ih =>
    rw [scanLineFuel] at ht
    cases hc : s[i]? with
    | none =>
      have hend := Array.getElem?_eq_none_iff.mp hc
      obtain rfl : i = s.size := by omega
      rw [hc] at ht
      exact h.flush ht
    | some c =>
      have hbreak := hline i
      rw [hc, Option.all_some, Bool.not_eq_true'] at hbreak
      simp only [hc, hbreak, hmode, decide_false, Bool.false_and, Bool.false_eq_true,
        if_false] at ht
      have hforward := (stepped_scanChar rules l hc).forward
      exact ih (h.passed hlow (passed_scanChar hmode l hc)) (by omega)
        (scanChar_le_size rules l hc) (by omega) ht

lemma stop_of_head_scanLine (hline : OneLine s) (hmode : rules.mode ≠ .cell)
    (hstart : rules.start < s.size) (hsolid : s[rules.start]?.any isInlineBlank = false)
    (braces : Braces) {t : Token} (ht : (scanLine s rules [] braces).1.head? = some t) :
    t.stop = s.skipBack isInlineBlank rules.start s.size := by
  have hreaches : Reaches s rules.start ⟨[], braces, rules.start, false, 0, 0⟩ :=
    .piece (Nat.le_refl _) hstart hsolid
  have hfuel : s.size ≤ s.size - rules.start + rules.start := by omega
  exact stop_of_head_scanLineFuel hline hmode hreaches (Nat.le_refl _) (Nat.le_of_lt hstart) _
    hfuel ht

end LastTokens

section AtHand

variable {s : Source} {rules : LineRules} {l : LineScan} {i m : Nat} {c : Char}

/-- Whether the backslashes right before a position leave one that takes its meaning away. -/
def isEscaped (s : Source) : Nat → Bool
  | 0 => false
  | k + 1 => s.hasAt k '\\' && !isEscaped s k

lemma isEscaped_succ_of_ne (hc : s[i]? = some c) (hne : c ≠ '\\') :
    isEscaped s (i + 1) = false := by
  rw [isEscaped, Source.hasAt, hc, Bool.and_eq_false_iff]
  exact .inl (by simpa using hne)

lemma isEscaped_of_mem_tokenEnds (hi : 0 < i) (hc : s[i - 1]? = some c) (hmem : c ∈ tokenEnds) :
    isEscaped s i = false := by
  obtain ⟨k, rfl⟩ := Nat.exists_eq_succ_of_ne_zero (Nat.ne_of_gt hi)
  refine isEscaped_succ_of_ne hc ?_
  rintro rfl
  exact absurd hmem (by decide)

/-- A backslash that escapes nothing is not followed by another one. -/
lemma isEscaped_succ_of_not_escape (hc : s[i]? = some c)
    (hslash : c = '\\' → isEscape s i = false) (hnext : s.hasAt (i + 1) '\\' = true) :
    isEscaped s (i + 1) = false := by
  refine isEscaped_succ_of_ne hc ?_
  rintro rfl
  have hescape : isEscape s i = true := by
    rw [isEscape, Source.hasAt, hc, beq_iff_eq.mp hnext]
    rfl
  rw [hslash rfl] at hescape
  cases hescape

lemma isEscaped_add_two (hslash : s.hasAt i '\\' = true) (hi : isEscaped s i = false) :
    isEscaped s (i + 1) = true ∧ isEscaped s (i + 2) = false := by
  have hnext : isEscaped s (i + 1) = true := by
    rw [isEscaped, hslash, hi]
    rfl
  refine ⟨hnext, ?_⟩
  rw [isEscaped, hnext, Bool.not_true, Bool.and_false]

/-- A token ends where the next one begins, or a backslash stands between the two. -/
def Meets (s : Source) (start : Nat) (t : Token) : Prop :=
  t.stop = start ∨ t.stop + 1 = start ∧ s.hasAt t.stop '\\' = true

/-- The piece at hand when a line has been read up to `i`. It begins where the latest token ends, or
behind a backslash, and all closing brackets in it are escaped. -/
structure AtHand (s : Source) (l : LineScan) (i : Nat) : Prop where
  forward : l.pending ≤ i
  apart : ∀ t ∈ l.tokens.head?, ((∀ e, t.kind ≠ .text e) ∧ t.stop = l.pending) ∨
    (t.stop + 1 = l.pending ∧ s.hasAt t.stop '\\' = true ∧ l.pending < i)
  brackets : ∀ k, l.pending ≤ k → k < i → s[k]? = some ']' → isEscaped s k = true
  slash : s.hasAt i '\\' = true → isEscaped s i = false

lemma AtHand.plain {l' : LineScan} {next : Nat} (h : AtHand s l i)
    (htokens : l'.tokens = l.tokens) (hpending : l'.pending = l.pending) (hi : i ≤ next)
    (hrun : ∀ k, i ≤ k → k < next → s[k]? = some c) (hc : c ≠ ']')
    (hslash : s.hasAt next '\\' = true → isEscaped s next = false) : AtHand s l' next := by
  refine ⟨by rw [hpending]; exact Nat.le_trans h.forward hi, ?_, fun k hk hlt hbracket => ?_,
    hslash⟩
  · rw [htokens, hpending]
    exact fun t ht => (h.apart t ht).imp id fun ⟨hstop, hat, hlt⟩ => ⟨hstop, hat, by omega⟩
  · rcases Nat.lt_or_ge k i with hki | hki
    · exact h.brackets k (hpending ▸ hk) hki hbracket
    · rw [hrun k hki hlt] at hbracket
      exact absurd (Option.some.inj hbracket) hc

lemma AtHand.escape (h : AtHand s l i) {l' : LineScan} (hescape : isEscape s i = true)
    (htokens : l'.tokens = (l.flush i).tokens) (hpending : l'.pending = i + 1) :
    AtHand s l' (i + 2) := by
  have hslash := (Bool.and_eq_true_iff.mp hescape).1
  obtain ⟨hnext, hlater⟩ := isEscaped_add_two hslash (h.slash hslash)
  refine ⟨by omega, ?_, fun k hk hlt _ => ?_, fun _ => hlater⟩
  · rw [htokens, hpending]
    intro u hu
    suffices hstop : u.stop = i from .inr ⟨by rw [hstop], by rw [hstop, hslash], Nat.lt_succ_self _⟩
    rcases Nat.lt_or_ge l.pending i with hlt | hge
    · exact stop_of_head_addText hlt _ _ hu
    · have hflush : (l.flush i).tokens = l.tokens := addText_of_le hge _
      have hforward := h.forward
      rw [hflush] at hu
      rcases h.apart u hu with ⟨-, hstop⟩ | ⟨-, -, hlt⟩ <;> omega
  · obtain rfl : k = i + 1 := by omega
    exact hnext

/-- A step keeps this. -/
lemma AtHand.passed (h : AtHand s l i) (hc : s[i]? = some c) {r : LineScan × Nat}
    (hstep : Passed s l i c r) : AtHand s r.1 r.2 := by
  cases hstep with
  | @plain l' htokens hpending hbracket hslash =>
    refine h.plain htokens hpending (Nat.le_succ i) (fun k hk hlt => ?_) hbracket
      (isEscaped_succ_of_not_escape hc hslash)
    obtain rfl : k = i := by omega
    exact hc
  | run hmem hbracket hnext hrun =>
    refine h.plain rfl rfl (Nat.le_of_lt hnext) hrun hbracket fun _ => ?_
    exact isEscaped_of_mem_tokenEnds (Nat.zero_lt_of_lt hnext) (hrun _ (by omega) (by omega)) hmem
  | @token l' t htokens hkind hpending hforward hlast =>
    obtain ⟨d, hd, hlast⟩ := hlast
    refine ⟨Nat.le_of_eq hpending, ?_, fun k hk hlt _ => ?_, fun _ => ?_⟩
    · rw [htokens]
      rintro u ⟨⟩
      exact .inl ⟨hkind, hpending.symm⟩
    · dsimp only at hk hlt
      omega
    · exact isEscaped_of_mem_tokenEnds (Nat.zero_lt_of_lt hforward) hlast hd
  | escape hescape htokens hpending => exact h.escape hescape htokens hpending

/-- The piece at hand becomes a token of its own. -/
lemma AtHand.addText (h : AtHand s l i) {stop : Nat} (hstop : l.pending < stop) (escaped : Bool) :
    addText l.pending stop escaped l.tokens = ⟨.text escaped, l.pending, stop⟩ :: l.tokens := by
  cases htokens : l.tokens with
  | nil => exact addText_nil hstop escaped
  | cons t ts =>
    rcases h.apart t (by rw [htokens]; rfl) with ⟨hkind, -⟩ | ⟨hbefore, -, -⟩
    · exact addText_of_not_text hstop escaped hkind
    · obtain ⟨kind, b, e⟩ := t
      cases kind with
      | text escaped' =>
        dsimp only at hbefore
        rw [addText_of_stop_ne (by omega), if_pos hstop]
      | _ => exact addText_of_not_text hstop escaped (by simp)

/-- From `m` on nothing but blanks and marks of a heading is in a source, a blank first. -/
structure EndsWithMarks (s : Source) (m : Nat) : Prop where
  first : ∀ c ∈ s[m]?, isInlineBlank c = true
  later : ∀ k ≥ m, ∀ c ∈ s[k]?, isInlineBlank c = true ∨ c = '#'

lemma EndsWithMarks.lt_of_ne {d : Char} (h : EndsWithMarks s m) (hd : s[i]? = some d)
    (hblank : isInlineBlank d = false) (hmark : d ≠ '#') : i < m := by
  by_contra hge
  rcases h.later i (Nat.le_of_not_lt hge) d hd with hd | hd
  · rw [hd] at hblank
    cases hblank
  · exact hmark hd

lemma EndsWithMarks.lt_of_tokenEnd {d : Char} (h : EndsWithMarks s m) (hd : s[i]? = some d)
    (hmem : d ∈ tokenEnds) : i < m := by
  refine h.lt_of_ne hd (isInlineBlank_of_mem_tokenEnds d hmem) ?_
  rintro rfl
  exact absurd hmem (by decide)

lemma isInlineBlank_cases {d : Char} (h : isInlineBlank d = true) :
    d = ' ' ∨ d = '\t' ∨ d = '\x0b' ∨ d = '\x0c' := by
  simpa [isInlineBlank, or_assoc] using h

lemma EndsWithMarks.not_mem_markChars {d : Char} (h : EndsWithMarks s m) (hk : m ≤ k)
    (hd : d ∈ s[k]?) : d ∉ markChars := by
  rcases h.later k hk d hd with hblank | rfl
  · rcases isInlineBlank_cases hblank with rfl | rfl | rfl | rfl <;> decide
  · decide

/-- No step goes beyond the start of such an end. -/
lemma Passed.le (hends : EndsWithMarks s m) (hi : i < m) {r : LineScan × Nat}
    (hstep : Passed s l i c r) : r.2 ≤ m := by
  cases hstep with
  | plain => exact hi
  | @run next hc hne hnext hrun =>
    have hlt := hends.lt_of_tokenEnd (hrun (next - 1) (by omega) (by omega)) hc
    dsimp only
    omega
  | @token l' t htokens hkind hpending hforward hlast =>
    obtain ⟨d, hd, hlast⟩ := hlast
    have hlt := hends.lt_of_tokenEnd hlast hd
    dsimp only
    omega
  | escape hescape =>
    have hne : i + 1 ≠ m := by
      rintro rfl
      obtain ⟨d, hd, hpunctuation⟩ :=
        (Option.any_eq_true _ _).mp (Bool.and_eq_true_iff.mp hescape).2
      rcases isInlineBlank_cases (hends.first d hd) with rfl | rfl | rfl | rfl <;>
        exact absurd hpunctuation (by decide)
    dsimp only
    omega

/-- A line that ends this way is cut as it stands up to there, and what is at hand then goes on up
to the last character that is no blank. -/
lemma exists_atHand_scanLineFuel (hline : OneLine s) (hmode : rules.mode ≠ .cell)
    (hends : EndsWithMarks s m) (hm : m ≤ s.size) (h : AtHand s l i) (hi : i ≤ m) (fuel : Nat)
    (hfuel : s.size ≤ fuel + i) :
    ∃ l' escaped, AtHand s l' m ∧ (scanLineFuel s rules fuel l i).1.tokens =
      addText l'.pending (max l'.pending (s.skipBack isInlineBlank l'.pending s.size)) escaped
        l'.tokens := by
  induction fuel generalizing l i with
  | zero =>
    obtain rfl : i = m := by omega
    exact ⟨l, l.escaped, h, by rw [show i = s.size by omega]; rfl⟩
  | succ fuel ih =>
    rcases Nat.lt_or_eq_of_le hi with hlt | rfl
    · have hc := Array.getElem?_eq_getElem (Nat.lt_of_lt_of_le hlt hm)
      generalize s[i] = c at hc
      have hbreak := hline i
      rw [hc, Option.all_some, Bool.not_eq_true'] at hbreak
      have hstep := passed_scanChar hmode l hc
      have hforward := (stepped_scanChar rules l hc).forward
      rw [scanLineFuel, hc]
      simp only [hbreak, hmode, decide_false, Bool.false_and, Bool.false_eq_true, if_false]
      exact ih (h.passed hc hstep) (hstep.le hends hlt) (by omega)
    · obtain ⟨escaped, htokens⟩ := scanLineFuel_unmarked (l := l) hline hmode
        (fun k hk c hc => hends.not_mem_markChars hk hc) (fuel + 1) hm hfuel
      exact ⟨l, escaped, h, htokens⟩

/-- The last token of a line that ends this way is plain text that begins in front of the end, and
all closing brackets in it are escaped, or else there are only blanks behind it. -/
lemma lastToken_scanLine (hline : OneLine s) (hmode : rules.mode ≠ .cell)
    (hends : EndsWithMarks s m) (hm : m ≤ s.size) (hstart : rules.start ≤ m)
    (hslash : isEscaped s rules.start = false) :
    (∃ escaped start stop ts, (scanLine s rules [] .none).1 = ⟨.text escaped, start, stop⟩ :: ts ∧
      start ≤ m ∧ (∀ j ≥ start, s[j]? = some ']' → isEscaped s j = true) ∧
      ∀ t ∈ ts.head?, Meets s start t) ∨
    (∀ t ∈ (scanLine s rules [] .none).1.head?, ∀ e, t.kind = .text e → t.stop < m) ∧
      ∀ k ≥ m, ∀ c ∈ s[k]?, isInlineBlank c = true := by
  have hhand : AtHand s ⟨[], .none, rules.start, false, 0, 0⟩ rules.start :=
    ⟨Nat.le_refl _, fun t ht => (by cases ht), fun j hj hlt _ => absurd hlt (Nat.not_lt.mpr hj),
      fun _ => hslash⟩
  have hfuel : s.size ≤ s.size - rules.start + rules.start := by omega
  obtain ⟨l, escaped, h, htokens⟩ :=
    exists_atHand_scanLineFuel hline hmode hends hm hhand hstart _ hfuel
  change (scanLine s rules [] .none).1 = _ at htokens
  have hforward := h.forward
  rcases Nat.lt_or_ge l.pending (s.skipBack isInlineBlank l.pending s.size) with hlt | hge
  · rw [h.addText (by omega)] at htokens
    refine .inl ⟨_, _, _, _, htokens, hforward, fun j hj hbracket => ?_, fun t ht => ?_⟩
    · exact h.brackets j hj (hends.lt_of_ne hbracket (by decide) (by decide)) hbracket
    · refine (h.apart t ht).imp And.right ?_
      rintro ⟨hstop, hat, -⟩
      exact ⟨hstop, hat⟩
  · rw [addText_of_le (by omega)] at htokens
    refine .inr ⟨fun t ht e hkind => ?_, fun k hk c hc => ?_⟩
    · rw [htokens] at ht
      rcases h.apart t ht with ⟨hnot, -⟩ | ⟨hstop, -, hlt⟩
      · exact absurd hkind (hnot e)
      · omega
    · by_contra hsolid
      have hstop : s[k]?.any isInlineBlank = false := by
        rwa [hc, Option.any_some, Bool.eq_false_iff]
      have hback := Source.lt_skipBack l.pending (Array.getElem?_eq_some_iff.mp hc).1 hstop
      omega

end AtHand

end Folio.Markdown
