import Folio.Proofs.RelocatedPieces

/-!
# Reading tokens behind a front

The position right before a bracket and the one before a token are looked at in the source. None of
them is at its start, and a step keeps this, so that all tokens are read alike behind a front.
-/

namespace Folio.Markdown

section Runs

/-- No bracket that is open ends at the start of the source, and no token that is left stands
there: what is looked at right before them is in the source. -/
structure Inside (r : BracketScan × List Token) : Prop where
  brackets : ∀ o ∈ r.1.brackets, 0 < o.stop
  tokens : ∀ t ∈ r.2, 0 < t.start ∧ 0 < t.stop

namespace Inside

variable {ctx : TextContext} {b b' : BracketScan} {t : Token} {rest ts : List Token}

lemma of_subset (h : Inside (b, rest)) (hb : ∀ o ∈ b'.brackets, o ∈ b.brackets)
    (hts : ∀ t ∈ ts, t ∈ rest) : Inside (b', ts) :=
  ⟨fun o ho => h.brackets o (hb o ho), fun t ht => h.tokens t (hts t ht)⟩

lemma add (h : Inside (b, rest)) (p : Inline) : Inside (b.add p, rest) :=
  ⟨h.brackets, h.tokens⟩

lemma of_suffix (h : Inside (b, rest)) (hts : ts <:+ rest) : Inside (b, ts) :=
  h.of_subset (fun _ ho => ho) fun _ ht => hts.mem ht

lemma tokensFrom (h : Inside (b, rest)) (stop : Nat) : Inside (b, tokensFrom stop rest) := by
  refine ⟨h.brackets, ?_⟩
  have hsuffix : rest.dropWhile (·.stop ≤ stop) <:+ rest := List.dropWhile_suffix _
  unfold Markdown.tokensFrom
  cases hdrop : rest.dropWhile (·.stop ≤ stop) with
  | nil => exact List.forall_mem_nil _
  | cons t ts =>
    rw [hdrop] at hsuffix
    have hlater := (h.of_suffix hsuffix).tokens
    obtain ⟨ht, hts⟩ := List.forall_mem_cons.mp hlater
    exact List.forall_mem_cons.mpr ⟨⟨Nat.lt_of_lt_of_le ht.1 (Nat.le_max_left ..), ht.2⟩, hts⟩

lemma forget (h : Inside (b, rest)) : Inside (b.forget, rest) := by
  refine h.of_subset ?_ fun _ ht => ht
  unfold BracketScan.forget
  split
  · exact fun _ ho => ho
  · next o os hb =>
    rw [hb]
    exact fun _ ho => List.mem_cons_of_mem o ho

lemma close (h : Inside (b, rest)) {o : Bracket} {outer : List Bracket}
    (hb : b.brackets = o :: outer) (form : LinkForm) (d : Definition) :
    Inside (b.close o outer form d, rest) := by
  have houter : ∀ o ∈ outer, 0 < o.stop := fun p hp =>
    h.brackets p (hb ▸ List.mem_cons_of_mem o hp)
  refine ⟨?_, h.tokens⟩
  unfold BracketScan.close
  dsimp only
  split
  · exact houter
  · exact List.forall_mem_map.mpr houter

lemma closeByText (h : Inside (b, rest)) {o : Bracket} {outer : List Bracket}
    (hb : b.brackets = o :: outer) {form : LinkForm} {closing : Token} {after : List Token}
    (hafter : after <:+ rest) {r : BracketScan × List Token}
    (hr : ctx.closeByText form o outer closing after rest b = some r) : Inside r := by
  unfold TextContext.closeByText at hr
  split at hr
  · cases hr
  split at hr
  · cases hr
  split at hr
  · split at hr
    · cases hr
      exact ⟨List.forall_mem_nil _, h.tokens⟩
    · cases hr
  · obtain ⟨d, -, rfl⟩ := Option.map_eq_some_iff.mp hr
    exact (h.of_suffix hafter).close hb form d

lemma closeBracket (h : Inside (b, rest)) (refers : Bool) :
    Inside (ctx.closeBracket refers t rest b) := by
  have htext : Inside (b.forget.add (.text [']']), rest) := h.forget.add _
  unfold TextContext.closeBracket
  dsimp only
  split
  · exact htext
  next o outer hb =>
  have hbyText (form : LinkForm) {after : List Token} (hafter : after <:+ rest) :
      Inside ((ctx.closeByText form o outer t after rest b).getD
        (b.forget.add (.text [']']), rest)) := by
    cases hr : ctx.closeByText form o outer t after rest b with
    | none => exact htext
    | some r => exact h.closeByText hb hafter hr
  split
  · exact htext
  split
  · next stop _ => exact (h.tokensFrom stop).close hb _ _
  split
  · next stop _ =>
    have hsuffix : rest.dropWhile (·.stop ≤ stop - 1) <:+ rest := List.dropWhile_suffix _
    split
    · exact htext
    next closing after hdrop =>
    rw [hdrop] at hsuffix
    split
    · exact (h.of_suffix ((List.suffix_cons closing after).trans hsuffix)).close hb _ _
    · refine ⟨htext.brackets, List.forall_mem_append.mpr ⟨fun t ht =>
        h.tokens t (List.takeWhile_subset _ ht), ?_⟩⟩
      obtain ⟨hclosing, hlater⟩ := List.forall_mem_cons.mp (h.of_suffix hsuffix).tokens
      exact List.forall_mem_cons.mpr ⟨hclosing, hlater⟩
  · split
    · exact htext
    · exact hbyText _ (List.drop_suffix ..)
  · split
    · exact htext
    · exact hbyText _ List.suffix_rfl

lemma angle (h : Inside (b, rest)) : Inside (ctx.angle t rest b) := by
  unfold TextContext.angle
  dsimp only
  split
  · exact h.add _
  split
  · next stop _ => exact (h.tokensFrom stop).add _
  split
  · next stop _ => exact (h.tokensFrom stop).add _
  · exact h.add _

lemma closingBackticks_suffix {n : Nat} {closer : Token} {after : List Token}
    (h : closingBackticks? n ts = some (closer, after)) : after <:+ ts := by
  induction ts with
  | nil => cases h
  | cons t ts ih =>
    have hlater (h : closingBackticks? n ts = some (closer, after)) : after <:+ t :: ts :=
      (ih h).trans (List.suffix_cons t ts)
    rw [closingBackticks?] at h
    split at h
    · split at h
      · cases h
        exact List.suffix_cons ..
      · exact hlater h
    · exact hlater h

lemma closingDollar_suffix {group : Nat} {closer : Token} {canClose : Bool} {after : List Token}
    (h : closingDollar? group ts = some (closer, canClose, after)) : after <:+ ts := by
  induction ts with
  | nil => cases h
  | cons t ts ih =>
    have hlater (h : closingDollar? group ts = some (closer, canClose, after)) :
        after <:+ t :: ts :=
      (ih h).trans (List.suffix_cons t ts)
    rw [closingDollar?] at h
    split at h
    · split at h
      · cases h
        exact List.suffix_cons ..
      · exact hlater h
    · exact hlater h

lemma math_suffix {s : Source} {inTable : Bool} {prefixes : List LinePrefix} {group : Nat}
    {p : Inline} {after : List Token}
    (h : math? s prefixes inTable group t rest = some (p, after)) : after <:+ rest := by
  unfold math? at h
  dsimp only at h
  split at h
  · obtain ⟨⟨closer, canClose, ts⟩, hcloser, hmath⟩ := Option.bind_eq_some_iff.mp h
    split at hmath
    · cases hmath
      exact (List.drop_suffix 1 ts).trans
        ((closingDollar_suffix hcloser).trans (List.drop_suffix 1 rest))
    · cases hmath
  · obtain ⟨⟨closer, canClose, ts⟩, hcloser, hmath⟩ := Option.bind_eq_some_iff.mp h
    split at hmath
    · cases hmath
      exact closingDollar_suffix hcloser
    · cases hmath

lemma backticks (h : Inside (b, rest)) (escaped : Bool) :
    Inside (ctx.backticks escaped t rest b) := by
  unfold TextContext.backticks
  dsimp only
  generalize (if escaped then t.stop - t.start - 1 else t.stop - t.start) = count
  cases hclosing : if count = 0 then none else closingBackticks? count rest with
  | none => exact h.add _
  | some r =>
    obtain ⟨closer, after⟩ := r
    split at hclosing
    · cases hclosing
    · have hafter := h.of_suffix (closingBackticks_suffix hclosing)
      dsimp only
      split
      · exact (hafter.add _).add _
      · exact hafter.add _

lemma takeToken (h : Inside (b, t :: rest)) : Inside (ctx.takeToken t rest b) := by
  obtain ⟨ht, htokens⟩ := List.forall_mem_cons.mp h.tokens
  have hrest : Inside (b, rest) := ⟨h.brackets, htokens⟩
  have hopen (image : Bool) : Inside (b.openBracket image t, rest) :=
    ⟨List.forall_mem_cons.mpr ⟨ht.2, h.brackets⟩, htokens⟩
  unfold TextContext.takeToken
  dsimp only
  split
  · exact hrest.add _
  · exact hrest.add _
  · exact hrest.add _
  · split
    · next p after hmath =>
      split at hmath
      · exact (hrest.of_suffix (math_suffix hmath)).add p
      · cases hmath
    · exact hrest.add _
  · exact hrest.backticks _
  · exact hrest.angle
  · exact hopen false
  · exact hopen true
  · exact hrest.closeBracket _
  · exact hrest.add _
  · exact hrest.add _

end Inside

variable {ctx : TextContext}

/-- Tokens are read the same behind a front, with pieces in front of all others. -/
theorem takeTokensFuel_behind (hctx : ctx.prefixes = []) (front : Source) (old : List Inline)
    (fuel : Nat) {ts : List Token} {b : BracketScan} (h : Inside (b, ts)) :
    (ctx.behind front).takeTokensFuel fuel (ts.map (Token.behind front)) (b.onto front old) =
      (ctx.takeTokensFuel fuel ts b).onto front old := by
  induction fuel generalizing ts b with
  | zero => rfl
  | succ fuel ih =>
    cases ts with
    | nil => rfl
    | cons t rest =>
      have hstep := TextContext.takeToken_behind (t := t) (b := b) hctx front old
        (fun next hnext => (h.tokens next (List.mem_cons_of_mem t hnext)).1) h.brackets
      rw [List.map_cons, TextContext.takeTokensFuel, hstep, TextContext.takeTokensFuel]
      exact ih h.takeToken

end Runs

end Folio.Markdown
