import Folio.Proofs.LastTokens
import Folio.Proofs.LeadingTexts

/-!
# Text behind running text

Where running text ends with plain text, more plain text behind it is one more piece behind its
pieces, or a longer last piece. No link, no code and no markup reaches into it if nothing in it can
end one.
-/

namespace Folio.Markdown

variable {s : Source} {i m stop : Nat} {c : Char}

section Labels

variable {onLine : Nat → Option Nat} {inTable : Bool} {fuel : Nat}

lemma OneLine.ne_break (hline : OneLine s) (hc : s[i]? = some c) :
    (c == '\n' || c == '\r') = false := by
  have hbreak := hline i
  rwa [hc, Option.all_some, Bool.not_eq_true'] at hbreak

lemma isEscaped_of_labelBlanksFuel (hline : OneLine s) (hi : isEscaped s i = false)
    {broken : Bool} {width : Nat} {r : Nat × Nat}
    (h : labelBlanksFuel s onLine fuel broken width i = some r) :
    i ≤ r.1 ∧ isEscaped s r.1 = false := by
  induction fuel generalizing broken width i with
  | zero => cases h
  | succ fuel ih =>
    rw [labelBlanksFuel] at h
    split at h
    · cases h
      exact ⟨Nat.le_refl i, hi⟩
    · next c hc =>
      simp only [hline.ne_break hc, Bool.false_eq_true, if_false] at h
      split at h
      · next hblank =>
        have hne : c ≠ '\\' := by
          rintro rfl
          exact absurd hblank (by decide)
        obtain ⟨hle, hnext⟩ := ih (isEscaped_succ_of_ne hc hne) h
        exact ⟨Nat.le_of_succ_le hle, hnext⟩
      · cases h
        exact ⟨Nat.le_refl i, hi⟩

/-- A label ends at a closing bracket that is not escaped. -/
lemma closing_of_labelFuel (hline : OneLine s) (hi : isEscaped s i = false) {l : LabelScan}
    {r : List Char × Nat} (h : labelFuel s onLine inTable fuel l i = some r) :
    ∃ k, r.2 = k + 1 ∧ i ≤ k ∧ s[k]? = some ']' ∧ isEscaped s k = false := by
  induction fuel generalizing l i with
  | zero => cases h
  | succ fuel ih =>
    have hlater {l : LabelScan} {next : Nat} (hle : i ≤ next) (hnext : isEscaped s next = false)
        (h : labelFuel s onLine inTable fuel l next = some r) :
        ∃ k, r.2 = k + 1 ∧ i ≤ k ∧ s[k]? = some ']' ∧ isEscaped s k = false := by
      obtain ⟨k, hk, hik, hclosing⟩ := ih hnext h
      exact ⟨k, hk, Nat.le_trans hle hik, hclosing⟩
    rw [labelFuel] at h
    split at h
    · cases h
    split at h
    · cases h
    · cases h
    · next hbracket =>
      split at h
      · cases h
        exact ⟨i, rfl, Nat.le_refl i, hbracket, hi⟩
      · cases h
    · next hslash =>
      split at h
      · next htable =>
        simp only [isTablePipe, Bool.and_eq_true] at htable
        exact hlater (by omega)
          (isEscaped_succ_of_ne (beq_iff_eq.mp htable.2.2) (by decide)) h
      split at h
      · cases h
      · have hat : s.hasAt i '\\' = true := by
          rw [Source.hasAt, hslash]
          rfl
        exact hlater (by omega) (isEscaped_add_two hat hi).2 h
    · next c _ _ hslash hc =>
      have hnext := isEscaped_succ_of_ne hc hslash
      split at h
      · split at h
        · cases h
        · next hblanks =>
          obtain ⟨hle, hnext⟩ := isEscaped_of_labelBlanksFuel hline hi hblanks
          exact hlater hle hnext h
      · exact hlater (Nat.le_succ i) hnext h

/-- The label of a reference lies behind its opening bracket. -/
lemma closing_of_reference {ctx : TextContext} (hline : OneLine ctx.source) {ts : List Token}
    {label : List Char} (h : ctx.reference ts = .full label stop) :
    ∃ t ∈ ts.head?, ∃ k, stop = k + 1 ∧ t.start < k ∧ ctx.source[k]? = some ']' ∧
      isEscaped ctx.source k = false := by
  unfold TextContext.reference at h
  split at h
  · cases h
  next t ts =>
  split at h
  · cases h
  split at h
  · cases h
  split at h
  · next hlabel =>
    cases h
    refine ⟨t, rfl, ?_⟩
    unfold TextContext.label? at hlabel
    dsimp only at hlabel
    split at hlabel
    · cases hlabel
    next hopen =>
    split at hlabel
    · cases hlabel
    · obtain ⟨r, hr, heq⟩ := Option.map_eq_some_iff.mp hlabel
      cases heq
      have hopen : ctx.source[t.start]? = some '[' := by
        simpa [Source.hasAt] using hopen
      obtain ⟨k, hk, hle, hclosing⟩ :=
        closing_of_labelFuel hline (isEscaped_succ_of_ne hopen (by decide)) hr
      exact ⟨k, hk, hle, hclosing⟩
  · cases h

end Labels

section Ends

/-- The target of a link ends with a parenthesis. -/
lemma getElem?_of_target? {ctx : TextContext} {ts : List Token} {r : Definition × Nat}
    (h : ctx.target? ts i = some r) : ∃ k, r.2 = k + 1 ∧ ctx.source[k]? = some ')' := by
  unfold TextContext.target? at h
  dsimp only at h
  split at h
  · cases h
  · obtain ⟨⟨destination, j⟩, -, h⟩ := Option.bind_eq_some_iff.mp h
    obtain ⟨hclose, heq⟩ := Option.ite_none_right_eq_some.mp h
    cases heq
    exact ⟨_, rfl, beq_iff_eq.mp hclose⟩

lemma getElem?_of_findFuel (cs : List Char) {fuel : Nat}
    (h : findFuel s (cs ++ [c]) fuel i = some stop) : ∃ k, stop = k + 1 ∧ s[k]? = some c := by
  have hstarts {cs : List Char} {i : Nat} (h : s.startsWith i (cs ++ [c]) = true) :
      s[i + cs.length]? = some c := by
    induction cs generalizing i with
    | nil =>
      rw [List.nil_append, Source.startsWith, Bool.and_eq_true] at h
      exact beq_iff_eq.mp h.1
    | cons d cs ih =>
      rw [List.cons_append, Source.startsWith, Bool.and_eq_true] at h
      rw [List.length_cons, Nat.add_comm cs.length, ← Nat.add_assoc]
      exact ih h.2
  induction fuel generalizing i with
  | zero => cases h
  | succ fuel ih =>
    rw [findFuel] at h
    split at h
    · next hfound =>
      cases h
      exact ⟨i + cs.length, by simp [Nat.add_assoc], hstarts hfound⟩
    split at h
    · exact ih h
    · cases h

lemma getElem?_of_declaration? (h : declaration? s i = some stop) :
    ∃ k, stop = k + 1 ∧ s[k]? = some '>' := by
  unfold declaration? at h
  split at h
  · exact getElem?_of_findFuel ['-', '-'] h
  split at h
  · dsimp only at h
    split at h
    · next hclose =>
      cases h
      exact ⟨_, rfl, beq_iff_eq.mp (Bool.and_eq_true_iff.mp hclose).2⟩
    · cases h
  split at h
  · exact getElem?_of_findFuel [] h
  · cases h

/-- Raw markup ends with an angle bracket. -/
lemma getElem?_of_inlineHtml? {prefixes : List LinePrefix} {r : List Char × Nat}
    (h : inlineHtml? s prefixes i = some r) : ∃ k, r.2 = k + 1 ∧ s[k]? = some '>' := by
  unfold inlineHtml? at h
  split at h
  · obtain ⟨stop, hstop, rfl⟩ := Option.map_eq_some_iff.mp h
    exact getElem?_of_declaration? hstop
  split at h
  · obtain ⟨stop, hstop, rfl⟩ := Option.map_eq_some_iff.mp h
    exact getElem?_of_findFuel ['?'] hstop
  · unfold tag? at h
    dsimp only at h
    generalize s.hasAt (i + 1) '/' = closing at h
    -- The tag that has been read up to its end, if it has.
    have hend {t? : Option TagScan} (h : (t?.bind fun t =>
        let pos := s.skipBlanks t.pos
        let pos := if !closing && s.hasAt pos '/' then pos + 1 else pos
        if s.hasAt pos '>' then some (t.kept ++ s.slice t.mark (pos + 1), pos + 1) else none) =
          some r) : ∃ k, r.2 = k + 1 ∧ s[k]? = some '>' := by
      obtain ⟨t, -, h⟩ := Option.bind_eq_some_iff.mp h
      obtain ⟨hclose, heq⟩ := Option.ite_none_right_eq_some.mp h
      cases heq
      exact ⟨_, rfl, beq_iff_eq.mp hclose⟩
    cases closing with
    | true | false =>
      simp only [if_true, if_false, Bool.false_eq_true] at h
      split at h
      · cases h
      · exact hend h

end Ends

section Suffixes

variable {us vs ts : List Token} {t last : Token} {n : Nat}

lemma closingBackticks?_append (hlast : ∀ e, last.kind ≠ .backticks e) :
    closingBackticks? n (us ++ [last]) =
      (closingBackticks? n us).map fun r => (r.1, r.2 ++ [last]) := by
  induction us with
  | nil =>
    obtain ⟨kind, b, e⟩ := last
    cases kind with
    | backticks e => exact absurd rfl (hlast e)
    | _ => rfl
  | cons u us ih =>
    rw [List.cons_append, closingBackticks?, closingBackticks?, ih]
    split
    · split <;> rfl
    · rfl

lemma closingDollar?_append (hlast : ∀ p q g, last.kind ≠ .dollar p q g) :
    closingDollar? n (us ++ [last]) =
      (closingDollar? n us).map fun r => (r.1, r.2.1, r.2.2 ++ [last]) := by
  induction us with
  | nil =>
    obtain ⟨kind, b, e⟩ := last
    cases kind with
    | dollar p q g => exact absurd rfl (hlast p q g)
    | _ => rfl
  | cons u us ih =>
    rw [List.cons_append, closingDollar?, closingDollar?, ih]
    split
    · split <;> rfl
    · rfl

lemma isDoubled_append (hlast : ∀ p q g, last.kind ≠ .dollar p q g) :
    isDoubled t (us ++ [last]) = isDoubled t us := by
  cases us with
  | nil =>
    obtain ⟨kind, b, e⟩ := last
    cases kind with
    | dollar p q g => exact absurd rfl (hlast p q g)
    | _ => rfl
  | cons u us =>
    obtain ⟨kind, b, e⟩ := u
    cases kind <;> rfl

lemma drop_one_append (h : isDoubled t us = true) :
    (us ++ [last]).drop 1 = us.drop 1 ++ [last] := by
  cases us with
  | nil => cases h
  | cons u us => rfl

/-- A formula ends in front of plain text. -/
lemma math?_append (hlast : ∀ p q g, last.kind ≠ .dollar p q g) (prefixes : List LinePrefix)
    (inTable : Bool) :
    math? s prefixes inTable n t (us ++ [last]) =
      (math? s prefixes inTable n t us).map fun r => (r.1, r.2 ++ [last]) := by
  simp only [math?, isDoubled_append hlast]
  split
  · next hdoubled =>
    rw [drop_one_append hdoubled, closingDollar?_append hlast]
    cases closingDollar? n (us.drop 1) with
    | none => rfl
    | some r =>
      simp only [Option.map_some, Option.bind_eq_bind, Option.bind_some, isDoubled_append hlast]
      split
      · next hclosing => rw [drop_one_append hclosing]; rfl
      · rfl
  · rw [closingDollar?_append hlast]
    cases closingDollar? n us with
    | none => rfl
    | some r =>
      simp only [Option.map_some, Option.bind_eq_bind, Option.bind_some]
      split <;> rfl

end Suffixes

section Contexts

variable {ctx : TextContext} {ts ts' : List Token}

/-- On one line the title of a link is read off the source. -/
lemma titleFuel_congr (hline : OneLine ctx.source) (ts ts' : List Token) (opener closer : Char)
    (fuel i : Nat) :
    ctx.titleFuel opener closer ts fuel i = ctx.titleFuel opener closer ts' fuel i := by
  induction fuel generalizing i with
  | zero => rfl
  | succ fuel ih =>
    simp only [TextContext.titleFuel, ih]
    cases hc : ctx.source[i]? with
    | none => rfl
    | some c => simp only [hline.ne_break hc, Bool.false_eq_true, if_false]

lemma target?_congr (hline : OneLine ctx.source) (ts ts' : List Token) (i : Nat) :
    ctx.target? ts i = ctx.target? ts' i := by
  have htitle (i : Nat) : ctx.title? ts i = ctx.title? ts' i := by
    simp only [TextContext.title?, titleFuel_congr hline ts ts']
  simp only [TextContext.target?, htitle]

lemma reference_congr (us : List Token) (kind : TokenKind) (start : Nat) (stop stop' : Nat) :
    ctx.reference (us ++ [⟨kind, start, stop⟩]) = ctx.reference (us ++ [⟨kind, start, stop'⟩]) := by
  cases us with
  | nil => rfl
  | cons u us => rfl

lemma closeByText_eq_none (hreferences : ctx.references = ⟨[], []⟩) (form : LinkForm) (o : Bracket)
    (outer : List Bracket) (closing : Token) (after rest : List Token) (b : BracketScan) :
    ctx.closeByText form o outer closing after rest b = none := by
  unfold TextContext.closeByText
  split
  · rfl
  split
  · rfl
  split
  · rw [hreferences]
    rfl
  · rw [TextContext.definition?, hreferences]
    rfl

end Contexts

section Steps

variable {ctx : TextContext} {start : Nat} {us vs ts ts' rest : List Token} {t : Token}
  {b : BracketScan} {n : Nat}

/-- The text of a line ends with plain text, from `start` on. What it has from `m` on ends nothing,
and up to there no bracket in it closes anything. -/
structure PlainEnd (ctx : TextContext) (start m stop : Nat) : Prop where
  line : OneLine ctx.source
  references : ctx.references = ⟨[], []⟩
  ends : EndsWithMarks ctx.source m
  forward : m < stop
  brackets : ∀ k ≥ start, ctx.source[k]? = some ']' → isEscaped ctx.source k = true

/-- The tokens that are left of a text that ends at `m`, and of one that goes on up to `stop`. -/
inductive Longer (s : Source) (start m stop : Nat) : List Token → List Token → Prop where
  | last (us : List Token) (escaped : Bool) {first : Nat} (hfirst : start ≤ first) (hle : first ≤ m)
    (hmeets : ∀ u ∈ us.getLast?, Meets s start u) :
    Longer s start m stop (us ++ [⟨.text escaped, first, m⟩]) (us ++ [⟨.text escaped, first, stop⟩])
  | behind (escaped : Bool) : Longer s start m stop [] [⟨.text escaped, m, stop⟩]

/-- The same pieces, with at most `n` tokens left. -/
structure Abreast (s : Source) (start m stop n : Nat) (r r' : BracketScan × List Token) : Prop where
  pieces : r.1 = r'.1
  tokens : Longer s start m stop r.2 r'.2
  length : r'.2.length ≤ n

lemma getLast?_of_suffix {u : Token} (h : vs <:+ us) (hu : u ∈ vs.getLast?) : u ∈ us.getLast? := by
  obtain ⟨ws, rfl⟩ := h
  rw [List.getLast?_append, Option.mem_def.mp hu, Option.some_or]
  rfl

/-- The tokens behind the end of a link. -/
lemma Longer.tokensFrom (h : PlainEnd ctx start m stop) (escaped : Bool) {first next : Nat}
    (hfirst : start ≤ first) (hle : first ≤ m)
    (hmeets : ∀ u ∈ us.getLast?, Meets ctx.source start u) (hnext : next ≤ m) :
    Longer ctx.source start m stop (tokensFrom next (us ++ [⟨.text escaped, first, m⟩]))
        (tokensFrom next (us ++ [⟨.text escaped, first, stop⟩])) ∧
      (tokensFrom next (us ++ [⟨.text escaped, first, stop⟩])).length ≤ us.length + 1 := by
  have hforward := h.forward
  have hsuffix : us.dropWhile (·.stop ≤ next) <:+ us := List.dropWhile_suffix _
  have hkept (t : Token) (ht : next < t.stop) : [t].dropWhile (·.stop ≤ next) = [t] :=
    List.dropWhile_cons_of_neg (by simpa using ht)
  rw [Markdown.tokensFrom, Markdown.tokensFrom, List.dropWhile_append, List.dropWhile_append]
  cases hdrop : us.dropWhile (·.stop ≤ next) with
  | nil =>
    rw [List.isEmpty_nil, if_pos rfl, if_pos rfl,
      hkept ⟨.text escaped, first, stop⟩ (by dsimp only; omega)]
    refine ⟨?_, by simp⟩
    rcases Nat.lt_or_eq_of_le hnext with hlt | rfl
    · rw [hkept ⟨.text escaped, first, m⟩ hlt]
      exact .last [] escaped (Nat.le_trans hfirst (Nat.le_max_left ..))
        (Nat.max_le.mpr ⟨hle, hnext⟩) (by simp)
    · have hdropped : [(⟨.text escaped, first, next⟩ : Token)].dropWhile (·.stop ≤ next) = [] :=
        List.dropWhile_cons_of_pos (by simp)
      rw [hdropped]
      dsimp only
      rw [Nat.max_eq_right hle]
      exact .behind escaped
  | cons v vs =>
    rw [hdrop] at hsuffix
    rw [List.isEmpty_cons, if_neg Bool.false_ne_true, if_neg Bool.false_ne_true, List.cons_append,
      List.cons_append]
    dsimp only
    have hlength := hsuffix.length_le
    refine ⟨?_, by simpa using hlength⟩
    refine .last ({ v with start := max v.start next } :: vs) escaped hfirst hle fun u hu => ?_
    cases vs with
    | nil =>
      cases hu
      have hv := hmeets v (getLast?_of_suffix hsuffix rfl)
      exact hv
    | cons w vs => exact hmeets u (getLast?_of_suffix hsuffix hu)

/-- Tokens are taken one by one, or some of them together. -/
lemma Abreast.of_suffix (h : vs <:+ us) {escaped : Bool} {first : Nat} (hfirst : start ≤ first)
    (hle : first ≤ m) (hmeets : ∀ u ∈ us.getLast?, Meets s start u) :
    Abreast s start m stop (us.length + 1) (b, vs ++ [⟨.text escaped, first, m⟩])
      (b, vs ++ [⟨.text escaped, first, stop⟩]) := by
  refine ⟨rfl, .last vs escaped hfirst hle fun u hu => hmeets u (getLast?_of_suffix h hu), ?_⟩
  have hlength := h.length_le
  simpa using hlength

section Tokens

variable {escaped : Bool} {first : Nat} (hfirst : start ≤ first) (hle : first ≤ m)
  (hmeets : ∀ u ∈ us.getLast?, Meets ctx.source start u)

include hfirst hle hmeets

/-- No token is taken together with this one. -/
lemma Abreast.kept : Abreast ctx.source start m stop (us.length + 1)
    (b, us ++ [⟨.text escaped, first, m⟩]) (b, us ++ [⟨.text escaped, first, stop⟩]) :=
  .of_suffix List.suffix_rfl hfirst hle hmeets

lemma abreast_backticks (e : Bool) (t : Token) (b : BracketScan) :
    Abreast ctx.source start m stop (us.length + 1)
      (ctx.backticks e t (us ++ [⟨.text escaped, first, m⟩]) b)
      (ctx.backticks e t (us ++ [⟨.text escaped, first, stop⟩]) b) := by
  unfold TextContext.backticks
  dsimp only
  generalize (if e = true then t.stop - t.start - 1 else t.stop - t.start) = count
  rw [closingBackticks?_append (by simp), closingBackticks?_append (by simp)]
  by_cases hcount : count = 0
  · rw [if_pos hcount, if_pos hcount]
    exact .kept hfirst hle hmeets
  · rw [if_neg hcount, if_neg hcount]
    cases hclosing : closingBackticks? count us with
    | none => exact .kept hfirst hle hmeets
    | some r => exact .of_suffix (Inside.closingBackticks_suffix hclosing) hfirst hle hmeets

/-- The closing bracket of a label that nothing is known of is text. -/
lemma Abreast.closing {k : Nat} {closing : Token} {after : List Token}
    (hdrop : us.dropWhile (·.stop ≤ k) = closing :: after) :
    Abreast ctx.source start m stop (us.length + 1)
      (b, (us ++ [⟨.text escaped, first, m⟩] : List Token).takeWhile (·.stop ≤ k) ++
        { closing with kind := .closeBracket false } ::
          (after ++ [⟨.text escaped, first, m⟩]))
      (b, (us ++ [⟨.text escaped, first, stop⟩] : List Token).takeWhile (·.stop ≤ k) ++
        { closing with kind := .closeBracket false } ::
          (after ++ [⟨.text escaped, first, stop⟩])) := by
  have hus : us.takeWhile (·.stop ≤ k) ++ closing :: after = us := by
    rw [← hdrop, List.takeWhile_append_dropWhile]
  have hsuffix : closing :: after <:+ us := ⟨_, hus⟩
  have htake (last : Token) :
      (us ++ [last]).takeWhile (·.stop ≤ k) = us.takeWhile (·.stop ≤ k) := by
    rw [List.takeWhile_append, if_neg]
    intro heq
    have hlength := congrArg List.length hus
    rw [List.length_append, List.length_cons] at hlength
    omega
  have hlength : (us.takeWhile (·.stop ≤ k) ++
      { closing with kind := .closeBracket false } :: after).length = us.length := by
    conv_rhs => rw [← hus]
    rw [List.length_append, List.length_append, List.length_cons, List.length_cons]
  rw [htake, htake, ← hlength, ← List.cons_append, ← List.cons_append, ← List.append_assoc,
    ← List.append_assoc]
  refine .kept hfirst hle fun u hu => ?_
  rw [List.getLast?_append_of_ne_nil _ (List.cons_ne_nil _ _)] at hu
  cases after with
  | nil =>
    cases hu
    have hlast := hmeets closing (getLast?_of_suffix hsuffix rfl)
    exact hlast
  | cons v vs => exact hmeets u (getLast?_of_suffix hsuffix hu)

variable (h : PlainEnd ctx start m stop)

include h

/-- What ends at a character that is not in the end of the text. -/
lemma Abreast.tokensFrom {d : Char} {k : Nat} (hd : ctx.source[k]? = some d)
    (hblank : isInlineBlank d = false) (hmark : d ≠ '#') :
    Abreast ctx.source start m stop (us.length + 1)
      (b, Markdown.tokensFrom (k + 1) (us ++ [⟨.text escaped, first, m⟩]))
      (b, Markdown.tokensFrom (k + 1) (us ++ [⟨.text escaped, first, stop⟩])) := by
  have hk := h.ends.lt_of_ne hd hblank hmark
  obtain ⟨hlonger, hlength⟩ := Longer.tokensFrom h escaped hfirst hle hmeets hk
  exact ⟨rfl, hlonger, hlength⟩

lemma abreast_angle (t : Token) (b : BracketScan) :
    Abreast ctx.source start m stop (us.length + 1)
      (ctx.angle t (us ++ [⟨.text escaped, first, m⟩]) b)
      (ctx.angle t (us ++ [⟨.text escaped, first, stop⟩]) b) := by
  obtain ⟨next, next', rest, rest', hlists, hlists', hstart⟩ : ∃ next next' rest rest',
      us ++ [⟨.text escaped, first, m⟩] = next :: rest ∧
        us ++ [⟨.text escaped, first, stop⟩] = next' :: rest' ∧ next'.start = next.start := by
    cases us with
    | nil => exact ⟨_, _, [], [], rfl, rfl, rfl⟩
    | cons u us => exact ⟨u, u, _, _, rfl, rfl, rfl⟩
  -- Only where the next token begins is looked at.
  simp only [hlists, hlists', TextContext.angle, hstart]
  rw [← hlists, ← hlists']
  cases hlink : TextContext.autolink? ctx.source next.start with
  | some r =>
    obtain ⟨form, url, e⟩ := r
    obtain ⟨k, rfl, hk⟩ := TextContext.getElem?_of_autolink? hlink
    exact .tokensFrom hfirst hle hmeets h hk (by decide) (by decide)
  | none =>
    dsimp only
    cases hhtml : inlineHtml? ctx.source ctx.prefixes (next.start - 1) with
    | some r =>
      obtain ⟨text, e⟩ := r
      obtain ⟨k, rfl, hk⟩ := getElem?_of_inlineHtml? hhtml
      exact .tokensFrom hfirst hle hmeets h hk (by decide) (by decide)
    | none => exact .kept hfirst hle hmeets

end Tokens

/-- The label of a reference ends at a token in front of the end of the text. -/
lemma exists_closing_of_reference (h : PlainEnd ctx start m stop) {escaped : Bool} {first e : Nat}
    (hfirst : start ≤ first) (hmeets : ∀ u ∈ us.getLast?, Meets ctx.source start u)
    {label : List Char}
    (href : ctx.reference (us ++ [⟨.text escaped, first, m⟩]) = .full label e) :
    ∃ closing after, us.dropWhile (·.stop ≤ e - 1) = closing :: after := by
  obtain ⟨head, hhead, k, rfl, hlt, hclosing, hescaped⟩ := closing_of_reference h.line href
  rw [Nat.add_sub_cancel]
  -- From `start` on there is no such bracket, so that the tokens end in front of it.
  have hk : k < start := by
    by_contra hge
    rw [h.brackets k (Nat.le_of_not_lt hge) hclosing] at hescaped
    cases hescaped
  cases hdrop : us.dropWhile (·.stop ≤ k) with
  | cons closing after => exact ⟨closing, after, rfl⟩
  | nil =>
    have hall := List.dropWhile_eq_nil_iff.mp hdrop
    cases hus : us.getLast? with
    | none =>
      rw [List.getLast?_eq_none_iff.mp hus] at hhead
      cases hhead
      dsimp only at hlt
      omega
    | some u =>
      have hstop := of_decide_eq_true (hall u (List.mem_of_getLast? hus))
      rcases hmeets u hus with hmeet | ⟨hmeet, hslash⟩
      · omega
      · obtain rfl : u.stop = k := by omega
        rw [Source.hasAt, hclosing] at hslash
        cases hslash

section Tokens

variable {escaped : Bool} {first : Nat} (hfirst : start ≤ first) (hle : first ≤ m)
  (hmeets : ∀ u ∈ us.getLast?, Meets ctx.source start u) (h : PlainEnd ctx start m stop)

include hfirst hle hmeets h

lemma abreast_closeBracket (refers : Bool) (t : Token) (b : BracketScan) :
    Abreast ctx.source start m stop (us.length + 1)
      (ctx.closeBracket refers t (us ++ [⟨.text escaped, first, m⟩]) b)
      (ctx.closeBracket refers t (us ++ [⟨.text escaped, first, stop⟩]) b) := by
  have hkept (b : BracketScan) : Abreast ctx.source start m stop (us.length + 1)
      (b, us ++ [⟨.text escaped, first, m⟩]) (b, us ++ [⟨.text escaped, first, stop⟩]) :=
    .kept hfirst hle hmeets
  unfold TextContext.closeBracket
  simp only [closeByText_eq_none h.references, Option.getD_none, ite_self,
    target?_congr h.line (us ++ [⟨.text escaped, first, stop⟩])
      (us ++ [⟨.text escaped, first, m⟩]), reference_congr us (.text escaped) first stop m]
  cases b.brackets with
  | nil => exact hkept _
  | cons o outer =>
    dsimp only
    split
    · exact hkept _
    cases htarget : ctx.target? (us ++ [⟨.text escaped, first, m⟩]) t.stop with
    | some r =>
      obtain ⟨d, e⟩ := r
      obtain ⟨k, rfl, hk⟩ := getElem?_of_target? htarget
      exact .tokensFrom hfirst hle hmeets h hk (by decide) (by decide)
    | none =>
      dsimp only
      cases href : ctx.reference (us ++ [⟨.text escaped, first, m⟩]) with
      | collapsed => exact hkept _
      | shortcut => exact hkept _
      | full label e =>
        have hdefinition : ctx.definition? label = none := by
          rw [TextContext.definition?, h.references]
          rfl
        obtain ⟨closing, after, hdrop⟩ := exists_closing_of_reference h hfirst hmeets href
        simp only [List.dropWhile_append, hdrop, List.isEmpty_cons, Bool.false_eq_true, if_false,
          List.cons_append, hdefinition]
        exact .closing hfirst hle hmeets hdrop

variable (escaped) in
/-- A step in front of the end keeps two texts abreast. -/
lemma abreast_takeToken (t : Token) (b : BracketScan) :
    Abreast ctx.source start m stop (us.length + 1)
      (ctx.takeToken t (us ++ [⟨.text escaped, first, m⟩]) b)
      (ctx.takeToken t (us ++ [⟨.text escaped, first, stop⟩]) b) := by
  have hkept (b : BracketScan) : Abreast ctx.source start m stop (us.length + 1)
      (b, us ++ [⟨.text escaped, first, m⟩]) (b, us ++ [⟨.text escaped, first, stop⟩]) :=
    .kept hfirst hle hmeets
  unfold TextContext.takeToken
  dsimp only
  cases t.kind with
  | backticks e => exact abreast_backticks hfirst hle hmeets e t b
  | angle => exact abreast_angle hfirst hle hmeets h t b
  | closeBracket refers => exact abreast_closeBracket hfirst hle hmeets h refers t b
  | dollar canOpen canClose group =>
    dsimp only
    rw [math?_append (by simp), math?_append (by simp)]
    cases canOpen with
    | false => exact hkept _
    | true =>
      rw [if_pos rfl, if_pos rfl]
      cases hmath : math? ctx.source ctx.prefixes ctx.inTable group t us with
      | none => exact hkept _
      | some r => exact .of_suffix (Inside.math_suffix hmath) hfirst hle hmeets
  | _ => exact hkept _

end Tokens

/-- The text of a line that goes on with plain text has one more piece, or a longer last one. -/
lemma takeTokensFuel_longer (h : PlainEnd ctx start m stop)
    (hlonger : Longer ctx.source start m stop ts ts') (fuel : Nat) (hfuel : ts'.length ≤ fuel)
    (b : BracketScan) :
    ctx.takeTokensFuel fuel ts' b =
        (ctx.takeTokensFuel fuel ts b).add (.text (ctx.source.slice m stop)) ∨
      ∃ (b' : BracketScan) (value : List Char),
        ctx.takeTokensFuel fuel ts b = b'.add (.text value) ∧
        ctx.takeTokensFuel fuel ts' b = b'.add (.text (value ++ ctx.source.slice m stop)) := by
  induction fuel generalizing ts ts' b with
  | zero => cases hlonger <;> simp at hfuel
  | succ fuel ih =>
    cases hlonger with
    | behind escaped =>
      left
      cases fuel <;> rfl
    | @last us escaped first hfirst hle hmeets =>
      cases us with
      | nil =>
        refine .inr ⟨b, ctx.source.slice first m, by cases fuel <;> rfl, ?_⟩
        rw [slice_append_slice hle (Nat.le_of_lt h.forward)]
        cases fuel <;> rfl
      | cons u us =>
        have hlast : ∀ v ∈ us.getLast?, Meets ctx.source start v := by
          intro v hv
          exact hmeets v (getLast?_of_suffix (List.suffix_cons u us) hv)
        obtain ⟨hpieces, htokens, hlength⟩ :=
          abreast_takeToken escaped hfirst hle hlast h u b
        simp only [List.cons_append, TextContext.takeTokensFuel, hpieces]
        simp only [List.cons_append, List.length_cons, List.length_append] at hfuel
        exact ih htokens (by omega) _

lemma forgetAll_add (p : Inline) (b : BracketScan) :
    (b.add p).forgetAll.pieces = p :: b.forgetAll.pieces := by
  simp only [BracketScan.forgetAll, BracketScan.add, List.foldl_append_eq_append, List.cons_append]

/-- A piece of text behind others is one behind what they stand for. -/
lemma emphasize_append_text (ps : List Inline) (value : List Char) :
    emphasize (ps ++ [.text value]) = emphasize ps ++ [.text value] := by
  have hfrom (e : EmphasisScan) :
      emphasizeFrom e (ps ++ [.text value]) = (emphasizeFrom e ps).add (.text value) := by
    induction ps generalizing e with
    | nil => exact emphasizeFrom.eq_3 _ _ _ (by simp)
    | cons p ps ih =>
      have hpiece
          (hp : ∀ mark count canOpen canClose, p ≠ .delimiters mark count canOpen canClose) :
          emphasizeFrom e (p :: (ps ++ [.text value])) =
            (emphasizeFrom e (p :: ps)).add (.text value) := by
        rw [emphasizeFrom.eq_3 _ _ _ hp, emphasizeFrom.eq_3 _ _ _ hp, ih]
      cases p with
      | delimiters mark count canOpen canClose =>
        rw [List.cons_append, emphasizeFrom, emphasizeFrom, ih]
      | _ => exact hpiece (by simp)
  rw [emphasize, hfrom, emphasize]
  simp only [EmphasisScan.finish, EmphasisScan.add, List.foldl_append_eq_append, List.cons_append,
    List.reverse_cons]

/-- A text behind pieces is one more piece, or a longer last one. -/
def TextBehind (tail : List Char) (ps qs : List Inline) : Prop :=
  qs = ps ++ [.text tail] ∨
    ∃ front value, ps = front ++ [.text value] ∧ qs = front ++ [.text (value ++ tail)]

/-- Running text that goes on with plain text means the same, with this text behind it. -/
theorem meaning_longer (h : PlainEnd ctx start m stop) (escaped : Bool)
    (hle : start ≤ m) (hmeets : ∀ u ∈ us.getLast?, Meets ctx.source start u) :
    TextBehind (ctx.source.slice m stop) (ctx.meaning (us ++ [⟨.text escaped, start, m⟩]))
      (ctx.meaning (us ++ [⟨.text escaped, start, stop⟩])) := by
  have hlonger : Longer ctx.source start m stop (us ++ [⟨.text escaped, start, m⟩])
      (us ++ [⟨.text escaped, start, stop⟩]) :=
    .last us escaped (Nat.le_refl start) hle hmeets
  have hrun := takeTokensFuel_longer h hlonger (us.length + 1) (by simp) .empty
  have htake (last : Token) : ctx.takeTokens (us ++ [last]) =
      (ctx.takeTokensFuel (us.length + 1) (us ++ [last]) .empty).forgetAll.pieces.reverse := by
    rw [TextContext.takeTokens, List.length_append, List.length_singleton]
  simp only [TextContext.meaning, htake]
  rcases hrun with hrun | ⟨b, value, hshort, hlong⟩
  · left
    rw [hrun, forgetAll_add, List.reverse_cons, emphasize_append_text]
  · right
    refine ⟨emphasize b.forgetAll.pieces.reverse, value, ?_, ?_⟩
    · rw [hshort, forgetAll_add, List.reverse_cons, emphasize_append_text]
    · rw [hlong, forgetAll_add, List.reverse_cons, emphasize_append_text]

end Steps

end Folio.Markdown
