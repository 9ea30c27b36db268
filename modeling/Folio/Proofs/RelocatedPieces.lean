import Folio.Markdown.Events
import Folio.Proofs.RelocatedScans

/-!
# Running text behind a front

The tokens of a text are read into the same pieces wherever the text stands in the source, and
whatever pieces there are in front of it. Lines end the text, so that no line has a prefix.
-/

namespace Folio.Markdown

variable {front : Source}

/-- The same token behind a front. -/
def Token.behind (front : Source) (t : Token) : Token :=
  ⟨t.kind, front.size + t.start, front.size + t.stop⟩

section RawSpans

variable {s : Source} {t : Token} {ts : List Token} {n : Nat}

@[simp]
lemma Token.behind_kind (front : Source) (t : Token) : (t.behind front).kind = t.kind := rfl

@[simp]
lemma Token.behind_start (front : Source) (t : Token) :
    (t.behind front).start = front.size + t.start := rfl

@[simp]
lemma Token.behind_stop (front : Source) (t : Token) :
    (t.behind front).stop = front.size + t.stop := rfl

lemma extract_behind (front s : Source) (start stop : Nat) :
    (front ++ s).extract (front.size + start) (front.size + stop) = s.extract start stop := by
  apply Array.toList_inj.mp
  exact Source.slice_behind

lemma closingBackticks?_behind :
    closingBackticks? n (ts.map (Token.behind front)) =
      (closingBackticks? n ts).map fun r => (r.1.behind front, r.2.map (Token.behind front)) := by
  induction ts with
  | nil => rfl
  | cons t ts ih =>
    simp only [List.map_cons, closingBackticks?, Token.behind_kind, Token.behind_start,
      Token.behind_stop, Nat.add_sub_add_left, ih]
    split
    · split <;> rfl
    · rfl

lemma isDoubled_behind :
    isDoubled (t.behind front) (ts.map (Token.behind front)) = isDoubled t ts := by
  match ts with
  | [] => rfl
  | ⟨kind, start, stop⟩ :: ts =>
    cases kind with
    | dollar =>
      rw [Bool.eq_iff_iff]
      simp [isDoubled, Token.behind]
    | _ => rfl

lemma closingDollar?_behind :
    closingDollar? n (ts.map (Token.behind front)) = (closingDollar? n ts).map fun r =>
      (r.1.behind front, r.2.1, r.2.2.map (Token.behind front)) := by
  induction ts with
  | nil => rfl
  | cons t ts ih =>
    simp only [List.map_cons, closingDollar?, Token.behind_kind, ih]
    split
    · split <;> rfl
    · rfl

lemma rawText_behind (inTable : Bool) (lineEnd : Char → Char) (start stop : Nat) :
    rawText (front ++ s) [] inTable lineEnd (front.size + start) (front.size + stop) =
      rawText s [] inTable lineEnd start stop := by
  rw [rawText, extract_behind, rawText]

lemma math?_behind (inTable : Bool) :
    math? (front ++ s) [] inTable n (t.behind front) (ts.map (Token.behind front)) =
      (math? s [] inTable n t ts).map fun r => (r.1, r.2.map (Token.behind front)) := by
  simp only [math?, isDoubled_behind, ← List.map_drop, closingDollar?_behind]
  split
  · cases closingDollar? n (ts.drop 1) with
    | none => rfl
    | some r =>
      simp only [Option.map_some, Option.bind_eq_bind, Option.bind_some, isDoubled_behind,
        Token.behind_start, Token.behind_stop, Nat.add_assoc, rawText_behind, ← List.map_drop]
      split <;> rfl
  · cases closingDollar? n ts with
    | none => rfl
    | some r =>
      simp only [Option.map_some, Option.bind_eq_bind, Option.bind_some, Token.behind_start,
        Token.behind_stop, rawText_behind, bne_iff_ne, Bool.and_eq_true, ne_eq, Nat.add_right_inj]
      split <;> rfl

lemma dropWhile_behind (stop : Nat) (ts : List Token) :
    (ts.map (Token.behind front)).dropWhile (·.stop ≤ front.size + stop) =
      (ts.dropWhile (·.stop ≤ stop)).map (Token.behind front) := by
  rw [List.dropWhile_map]
  simp only [Function.comp_def, Token.behind_stop, Nat.add_le_add_iff_left]

lemma takeWhile_behind (stop : Nat) (ts : List Token) :
    (ts.map (Token.behind front)).takeWhile (·.stop ≤ front.size + stop) =
      (ts.takeWhile (·.stop ≤ stop)).map (Token.behind front) := by
  rw [List.takeWhile_map]
  simp only [Function.comp_def, Token.behind_stop, Nat.add_le_add_iff_left]

lemma tokensFrom_behind (stop : Nat) :
    tokensFrom (front.size + stop) (ts.map (Token.behind front)) =
      (tokensFrom stop ts).map (Token.behind front) := by
  rw [tokensFrom, dropWhile_behind, tokensFrom]
  cases ts.dropWhile (·.stop ≤ stop) with
  | nil => rfl
  | cons t ts => simp [Token.behind, Nat.add_max_add_left]

end RawSpans

section Brackets

/-- The same bracket behind a front, with other pieces in front of it. -/
def Bracket.behind (front : Source) (before : List Inline) (o : Bracket) : Bracket :=
  ⟨o.image, o.enabled, front.size + o.start, front.size + o.stop, before⟩

@[simp]
lemma Bracket.behind_enabled (front : Source) (before : List Inline) (o : Bracket) :
    (o.behind front before).enabled = o.enabled := rfl

/-- The brackets behind a front, with pieces in front of everything: what is at hand where nothing
is open goes on behind these pieces. -/
def bracketsOnto (front : Source) (old : List Inline) : List Bracket → List Inline → BracketScan
  | [], pieces => ⟨[], pieces ++ old⟩
  | o :: os, pieces =>
    let outer := bracketsOnto front old os o.before
    ⟨o.behind front outer.pieces :: outer.brackets, pieces⟩

namespace BracketScan

def onto (front : Source) (old : List Inline) (b : BracketScan) : BracketScan :=
  bracketsOnto front old b.brackets b.pieces

variable {old : List Inline} {b : BracketScan} {o : Bracket} {outer : List Bracket}

/-- Pieces that come behind others do not matter to what is open. -/
lemma onto_append (os : List Bracket) (ps qs : List Inline) :
    (BracketScan.mk os (ps ++ qs)).onto front old =
      ⟨((BracketScan.mk os qs).onto front old).brackets,
        ps ++ ((BracketScan.mk os qs).onto front old).pieces⟩ := by
  cases os with
  | nil => exact congrArg (BracketScan.mk []) (List.append_assoc ..)
  | cons o os => rfl

lemma onto_cons (os : List Bracket) (p : Inline) (qs : List Inline) :
    (BracketScan.mk os (p :: qs)).onto front old =
      ⟨((BracketScan.mk os qs).onto front old).brackets,
        p :: ((BracketScan.mk os qs).onto front old).pieces⟩ :=
  onto_append os [p] qs

lemma onto_add (p : Inline) : (b.add p).onto front old = (b.onto front old).add p :=
  onto_cons b.brackets p b.pieces

lemma onto_of_brackets (front : Source) (old : List Inline) (h : b.brackets = o :: outer) :
    b.onto front old = ⟨o.behind front ((BracketScan.mk outer o.before).onto front old).pieces ::
      ((BracketScan.mk outer o.before).onto front old).brackets, b.pieces⟩ := by
  rw [onto, h]
  rfl

lemma brackets_onto (h : b.brackets = o :: outer) : (b.onto front old).brackets =
    o.behind front ((BracketScan.mk outer o.before).onto front old).pieces ::
      ((BracketScan.mk outer o.before).onto front old).brackets := by
  rw [onto_of_brackets front old h]

lemma onto_forget : b.forget.onto front old = (b.onto front old).forget := by
  obtain ⟨brackets, pieces⟩ := b
  cases brackets with
  | nil => rfl
  | cons o os =>
    refine (onto_append os pieces (o.text :: o.before)).trans ?_
    rw [onto_cons]
    rfl

lemma onto_forgetAll : b.forgetAll.onto front old = (b.onto front old).forgetAll := by
  obtain ⟨brackets, pieces⟩ := b
  induction brackets generalizing pieces with
  | nil => rfl
  | cons o os ih =>
    have hforget := ih (pieces ++ o.text :: o.before)
    rw [onto_append, onto_cons] at hforget
    exact hforget

/-- No link may be made around a link any more, whatever is in front. -/
lemma onto_map_enabled (os : List Bracket) (pieces : List Inline) :
    (BracketScan.mk (os.map fun o => { o with enabled := o.image && o.enabled }) pieces).onto
        front old =
      ⟨((BracketScan.mk os pieces).onto front old).brackets.map
          fun o => { o with enabled := o.image && o.enabled },
        ((BracketScan.mk os pieces).onto front old).pieces⟩ := by
  induction os generalizing pieces with
  | nil => rfl
  | cons o os ih =>
    refine (onto_of_brackets front old rfl).trans ?_
    rw [ih o.before]
    rfl

lemma onto_close (h : b.brackets = o :: outer) (form : LinkForm) (d : Definition) :
    (b.close o outer form d).onto front old = (b.onto front old).close
      (o.behind front ((BracketScan.mk outer o.before).onto front old).pieces)
      ((BracketScan.mk outer o.before).onto front old).brackets form d := by
  rw [onto_of_brackets front old h]
  unfold close Bracket.behind
  split
  · exact onto_cons outer _ o.before
  · rw [onto_cons]
    dsimp only
    rw [onto_map_enabled]

end BracketScan

end Brackets

section Contexts

/-- The same context behind a front. -/
def TextContext.behind (front : Source) (ctx : TextContext) : TextContext :=
  { ctx with source := front ++ ctx.source }

namespace TextContext

variable {ctx : TextContext} {i : Nat} {ts : List Token} {t : Token} {b : BracketScan}
  {old : List Inline}

lemma definition?_behind (text : List Char) :
    (ctx.behind front).definition? text = ctx.definition? text := rfl

lemma titleFuel_behind (opener closer : Char) (fuel : Nat) :
    (ctx.behind front).titleFuel opener closer (ts.map (Token.behind front)) fuel
        (front.size + i) =
      (ctx.titleFuel opener closer ts fuel i).map (Markdown.behind front) := by
  induction fuel generalizing i with
  | zero => rfl
  | succ fuel ih =>
    have hgo (taken : List Char) (next : Nat) :
        ((ctx.behind front).titleFuel opener closer (ts.map (Token.behind front)) fuel
            (front.size + next)).map (fun r => (taken ++ r.1, r.2)) =
          ((ctx.titleFuel opener closer ts fuel next).map fun r => (taken ++ r.1, r.2)).map
            (Markdown.behind front) := by
      rw [ih, Option.map_map, Option.map_map]
      rfl
    have hsource : (ctx.behind front).source = front ++ ctx.source := rfl
    have htable : (ctx.behind front).inTable = ctx.inTable := rfl
    simp only [titleFuel, hsource, htable, getElem?_behind, Nat.add_assoc, dropWhile_behind,
      charReference?_behind, isTablePipe_behind, isEscape_behind, hgo]
    cases ctx.source[i]? with
    | none => rfl
    | some c =>
      dsimp only
      split
      · rfl
      split
      · rfl
      split
      · cases ts.dropWhile (·.stop ≤ i + 1) with
        | nil => rfl
        | cons t ts =>
          simp only [List.map_cons, Token.behind_start, Nat.add_lt_add_iff_left, hgo]
          split <;> rfl
      split
      · cases charReference? ctx.source i with
        | none => rfl
        | some r => exact hgo r.1 r.2
      split
      · cases ctx.source[i + 3]? with
        | none => rfl
        | some d =>
          dsimp only
          split <;> rfl
      · split <;> rfl

lemma title?_behind : (ctx.behind front).title? (ts.map (Token.behind front)) (front.size + i) =
    (ctx.title? ts i).map (Markdown.behind front) := by
  have hsource : (ctx.behind front).source = front ++ ctx.source := rfl
  simp only [title?, hsource, getElem?_behind, size_behind, Nat.add_sub_add_left, Nat.add_assoc,
    titleFuel_behind]
  cases ctx.source[i]? with
  | none => rfl
  | some opener =>
    simp only [Option.bind_eq_bind, Option.bind_some]
    split <;> rfl

/-- A label ends behind its closing bracket. -/
lemma pos_of_labelFuel {s : Source} {onLine : Nat → Option Nat} {inTable : Bool} {fuel : Nat}
    {l : LabelScan} {r : List Char × Nat}
    (h : labelFuel s onLine inTable fuel l i = some r) : 0 < r.2 := by
  induction fuel generalizing l i with
  | zero => cases h
  | succ fuel ih =>
    rw [labelFuel] at h
    split at h
    · cases h
    split at h
    · cases h
    · cases h
    · split at h
      · cases h
        exact Nat.succ_pos i
      · cases h
    · split at h
      · exact ih h
      · split at h
        · cases h
        · exact ih h
    · split at h
      · split at h
        · cases h
        · exact ih h
      · exact ih h

lemma pos_of_label? {label : List Char} {stop : Nat}
    (h : ctx.label? i = some (.link label, stop)) : 0 < stop := by
  unfold label? at h
  dsimp only at h
  split at h
  · cases h
  split at h
  · cases h
  · obtain ⟨r, hr, heq⟩ := Option.map_eq_some_iff.mp h
    cases heq
    exact pos_of_labelFuel hr

lemma pos_of_reference {label : List Char} {stop : Nat}
    (h : ctx.reference ts = .full label stop) : 0 < stop := by
  unfold reference at h
  split at h
  · cases h
  split at h
  · cases h
  split at h
  · cases h
  split at h
  · next hlabel =>
    cases h
    exact pos_of_label? hlabel
  · cases h

variable (hctx : ctx.prefixes = [])

include hctx

lemma skipGap_behind :
    (ctx.behind front).skipGap (front.size + i) = front.size + ctx.skipGap i := by
  have hafter (s : Source) : afterPrefixes s ctx.prefixes = id := by
    rw [hctx]
    rfl
  simp only [skipGap, behind, hafter, Source.skipBlanks_behind, Source.lineEnd?_behind,
    Option.map_id, id_eq]
  cases ctx.source.lineEnd? (ctx.source.skipBlanks i) with
  | none => exact Source.skipBlanks_behind
  | some next => exact Source.skipBlanks_behind

lemma target?_behind : (ctx.behind front).target? (ts.map (Token.behind front)) (front.size + i) =
    (ctx.target? ts i).map (Markdown.behind front) := by
  have hsource : (ctx.behind front).source = front ++ ctx.source := rfl
  have htable : (ctx.behind front).inTable = ctx.inTable := rfl
  simp only [target?, hsource, htable, Source.hasAt_behind, Nat.add_assoc, skipGap_behind hctx,
    destination?_behind]
  split
  · rfl
  · cases destination? ctx.source (ctx.skipGap (i + 1)) with
    | none => rfl
    | some r =>
      simp only [Option.map_some, Option.bind_eq_bind, Option.bind_some, Markdown.behind,
        skipGap_behind hctx, title?_behind]
      cases ctx.title? ts (ctx.skipGap r.2) with
      | none =>
        simp only [Option.map_none, Source.hasAt_behind]
        split <;> rfl
      | some title =>
        simp only [Option.map_some, Markdown.behind, skipGap_behind hctx, Source.hasAt_behind]
        split <;> rfl

lemma label?_behind : (ctx.behind front).label? (front.size + i) =
    (ctx.label? i).map (Markdown.behind front) := by
  have hsource : (ctx.behind front).source = front ++ ctx.source := rfl
  have hprefixes : (ctx.behind front).prefixes = [] := hctx
  have htable : (ctx.behind front).inTable = ctx.inTable := rfl
  have hdialect : (ctx.behind front).dialect = ctx.dialect := rfl
  have hlink : Markdown.label? (front ++ ctx.source)
        (fun next => some (afterPrefixes (front ++ ctx.source) [] next)) ctx.inTable
        (front.size + (i + 1)) =
      (Markdown.label? ctx.source (fun next => some (afterPrefixes ctx.source [] next)) ctx.inTable
        (i + 1)).map (Markdown.behind front) :=
    Markdown.label?_behind (fun _ => rfl) _
  have hfootnote : Markdown.label? (front ++ ctx.source) onOneLine ctx.inTable
        (front.size + (i + 2)) =
      (Markdown.label? ctx.source onOneLine ctx.inTable (i + 2)).map (Markdown.behind front) :=
    Markdown.label?_behind (fun _ => rfl) _
  simp only [label?, hsource, hprefixes, htable, hdialect, hctx, Nat.add_assoc,
    Source.hasAt_behind, hlink, hfootnote]
  split
  · rfl
  generalize (ctx.dialect.extended && ctx.source.hasAt (i + 1) '^' &&
    !ctx.source.hasAt (i + 2) ']') = footnote
  have hlabel : Option.map (fun r => (Label.link r.1, r.2)) ((Markdown.label? ctx.source
        (fun next => some (afterPrefixes ctx.source [] next)) ctx.inTable (i + 1)).map
          (Markdown.behind front)) =
      (Option.map (fun r => (Label.link r.1, r.2)) (Markdown.label? ctx.source
        (fun next => some (afterPrefixes ctx.source [] next)) ctx.inTable (i + 1))).map
          (Markdown.behind front) := by
    rw [Option.map_map, Option.map_map]
    rfl
  cases footnote with
  | false => exact hlabel
  | true =>
    cases Markdown.label? ctx.source onOneLine ctx.inTable (i + 2) with
    | none => exact hlabel
    | some r => rfl

/-- The same reference behind a front. -/
def Reference.behind (front : Source) : Reference → Reference
  | .full label stop => .full label (front.size + stop)
  | .collapsed => .collapsed
  | .shortcut => .shortcut

lemma reference_behind : (ctx.behind front).reference (ts.map (Token.behind front)) =
    (ctx.reference ts).behind front := by
  have hsource : (ctx.behind front).source = front ++ ctx.source := rfl
  cases ts with
  | nil => rfl
  | cons t ts =>
    simp only [List.map_cons, reference, Token.behind_kind, Token.behind_start, hsource,
      Source.startsWith_behind, label?_behind hctx]
    split
    · rfl
    · split
      · rfl
      · cases ctx.label? t.start with
        | none => rfl
        | some r =>
          obtain ⟨label, stop⟩ := r
          cases label <;> rfl

/-- The same outcome of a step behind a front, with pieces in front of everything. -/
def stepOnto (front : Source) (old : List Inline) (r : BracketScan × List Token) :
    BracketScan × List Token :=
  (r.1.onto front old, r.2.map (Token.behind front))

lemma closeByText_behind (front : Source) (old : List Inline) {o : Bracket}
    {outer : List Bracket} (hb : b.brackets = o :: outer) (ho : 0 < o.stop) (form : LinkForm)
    (closing : Token) (after rest : List Token) :
    (ctx.behind front).closeByText form
        (o.behind front ((BracketScan.mk outer o.before).onto front old).pieces)
        ((BracketScan.mk outer o.before).onto front old).brackets (closing.behind front)
        (after.map (Token.behind front)) (rest.map (Token.behind front)) (b.onto front old) =
      (ctx.closeByText form o outer closing after rest b).map (stepOnto front old) := by
  have hreferences : (ctx.behind front).references = ctx.references := rfl
  have hstop : front.size + o.stop - 1 = front.size + (o.stop - 1) := by omega
  simp only [closeByText, Bracket.behind, hstop, label?_behind hctx, hreferences,
    definition?_behind]
  cases ctx.label? (o.stop - 1) with
  | none => rfl
  | some r =>
    obtain ⟨label, stop⟩ := r
    simp only [Option.map_some, Markdown.behind, Token.behind_stop, ne_eq, Nat.add_right_inj]
    split
    · rfl
    cases label with
    | footnote text =>
      dsimp only
      split
      · have hbefore : (BracketScan.mk outer (.footnote text ::
              if o.image then .text ['!'] :: o.before else o.before)).onto front old =
            ⟨((BracketScan.mk outer o.before).onto front old).brackets, .footnote text ::
              if o.image then .text ['!'] :: ((BracketScan.mk outer o.before).onto front old).pieces
              else ((BracketScan.mk outer o.before).onto front old).pieces⟩ := by
          cases o.image with
          | true => exact (BracketScan.onto_append outer [.footnote text, .text ['!']] o.before)
          | false => exact (BracketScan.onto_cons outer (.footnote text) o.before)
        rw [Option.map_some, stepOnto, BracketScan.onto_forgetAll, hbefore]
        rfl
      · rfl
    | link text =>
      dsimp only
      cases ctx.definition? text with
      | none => rfl
      | some d =>
        exact congrArg some (Prod.ext (BracketScan.onto_close hb form d).symm rfl)

lemma closeBracket_behind (front : Source) (old : List Inline)
    (hpos : ∀ o ∈ b.brackets, 0 < o.stop) (refers : Bool) (rest : List Token) :
    (ctx.behind front).closeBracket refers (t.behind front) (rest.map (Token.behind front))
        (b.onto front old) =
      stepOnto front old (ctx.closeBracket refers t rest b) := by
  have htext : ((b.onto front old).forget.add (.text [']']), rest.map (Token.behind front)) =
      stepOnto front old (b.forget.add (.text [']']), rest) := by
    rw [stepOnto, BracketScan.onto_add, BracketScan.onto_forget]
  cases hb : b.brackets with
  | nil =>
    have hnone : (b.onto front old).brackets = [] := by
      rw [BracketScan.onto, hb]
      rfl
    simp only [closeBracket, hb, hnone]
    exact htext
  | cons o outer =>
    have hclose (form : LinkForm) (d : Definition) (after : List Token) :
        ((b.onto front old).close
            (o.behind front ((BracketScan.mk outer o.before).onto front old).pieces)
            ((BracketScan.mk outer o.before).onto front old).brackets form d,
          after.map (Token.behind front)) =
        stepOnto front old (b.close o outer form d, after) := by
      rw [stepOnto, BracketScan.onto_close hb]
    have hbyText (form : LinkForm) (after : List Token) :=
      closeByText_behind hctx front old hb (hpos o (hb ▸ List.mem_cons_self)) form t after rest
    simp only [closeBracket, hb, BracketScan.brackets_onto hb, Bracket.behind_enabled, Token.behind_stop,
      target?_behind hctx, reference_behind hctx, htext]
    split
    · rfl
    cases ctx.target? rest t.stop with
    | some r =>
      dsimp only [Option.map_some, Markdown.behind]
      rw [tokensFrom_behind, hclose]
    | none =>
      dsimp only [Option.map_none]
      cases href : ctx.reference rest with
      | full label stop =>
        have hstop : front.size + stop - 1 = front.size + (stop - 1) :=
          Nat.add_sub_assoc (pos_of_reference href) front.size
        simp only [Reference.behind, hstop, dropWhile_behind, takeWhile_behind,
          definition?_behind]
        cases rest.dropWhile (·.stop ≤ stop - 1) with
        | nil => rfl
        | cons closing after =>
          dsimp only [List.map_cons]
          cases ctx.definition? label with
          | some d => exact hclose .reference d after
          | none =>
            dsimp only
            have hfst := congrArg Prod.fst htext
            refine Prod.ext hfst ?_
            simp only [stepOnto, List.map_append, List.map_cons]
            rfl
      | collapsed =>
        simp only [Reference.behind, ← List.map_drop, hbyText]
        split
        · rfl
        · cases ctx.closeByText .collapsed o outer t (rest.drop 2) rest b <;> rfl
      | shortcut =>
        simp only [Reference.behind, hbyText]
        split
        · rfl
        · cases ctx.closeByText .shortcut o outer t rest rest b <;> rfl

omit hctx in
lemma autolink?_behind {s : Source} :
    autolink? (front ++ s) (front.size + i) =
      (autolink? s i).map fun r => (r.1, r.2.1, front.size + r.2.2) := by
  simp only [autolink?, uri?_behind, email?_behind]
  cases uri? s i with
  | some r => rfl
  | none =>
    dsimp only [Option.map_none]
    rw [Option.map_map, Option.map_map]
    rfl

omit hctx in
/-- An automatic link ends with an angle bracket. -/
lemma getElem?_of_autolink? {s : Source} {r : LinkForm × List Char × Nat}
    (h : autolink? s i = some r) :
    ∃ k, r.2.2 = k + 1 ∧ s[k]? = some '>' := by
  unfold autolink? at h
  split at h
  · next huri =>
    cases h
    unfold uri? at huri
    dsimp only at huri
    split at huri
    · split at huri
      · next hclose =>
        cases huri
        exact ⟨_, rfl, beq_iff_eq.mp hclose⟩
      · cases huri
    · cases huri
  · obtain ⟨⟨url, stop⟩, hemail, heq⟩ := Option.map_eq_some_iff.mp h
    cases heq
    unfold email? at hemail
    dsimp only at hemail
    split at hemail
    · cases hemail
    · obtain ⟨stop, -, hemail⟩ := Option.bind_eq_some_iff.mp hemail
      split at hemail
      · next hclose =>
        cases hemail
        exact ⟨_, rfl, beq_iff_eq.mp hclose⟩
      · cases hemail

lemma angle_behind (front : Source) (old : List Inline) {rest : List Token}
    (hrest : ∀ next ∈ rest, 0 < next.start) :
    (ctx.behind front).angle (t.behind front) (rest.map (Token.behind front)) (b.onto front old) =
      stepOnto front old (ctx.angle t rest b) := by
  have hsource : (ctx.behind front).source = front ++ ctx.source := rfl
  have hprefixes : (ctx.behind front).prefixes = [] := hctx
  have hadd (p : Inline) (ts : List Token) :
      ((b.onto front old).add p, ts.map (Token.behind front)) =
        stepOnto front old (b.add p, ts) := by
    rw [stepOnto, BracketScan.onto_add]
  cases rest with
  | nil => exact hadd (.text ['<']) []
  | cons next rest =>
    have hnext : front.size + next.start - 1 = front.size + (next.start - 1) :=
      Nat.add_sub_assoc (hrest next List.mem_cons_self) front.size
    simp only [angle, List.map_cons, hsource, hprefixes, hctx, Token.behind_start, hnext,
      autolink?_behind, inlineHtml?_behind, Nat.add_assoc]
    rw [← List.map_cons]
    cases hlink : autolink? ctx.source next.start with
    | some r =>
      obtain ⟨form, url, stop⟩ := r
      have hstop : front.size + stop - 1 = front.size + (stop - 1) := by
        obtain ⟨k, rfl, -⟩ := getElem?_of_autolink? hlink
        rfl
      dsimp only [Option.map_some]
      rw [hstop, Source.slice_behind, tokensFrom_behind]
      exact hadd _ _
    | none =>
      dsimp only [Option.map_none]
      cases inlineHtml? ctx.source [] (next.start - 1) with
      | none => exact hadd _ (next :: rest)
      | some r =>
        dsimp only [Option.map_some, Markdown.behind]
        rw [Source.slice_behind, tokensFrom_behind]
        exact hadd _ _

lemma backticks_behind (front : Source) (old : List Inline) (escaped : Bool) (rest : List Token) :
    (ctx.behind front).backticks escaped (t.behind front) (rest.map (Token.behind front))
        (b.onto front old) =
      stepOnto front old (ctx.backticks escaped t rest b) := by
  have hsource : (ctx.behind front).source = front ++ ctx.source := rfl
  have hprefixes : (ctx.behind front).prefixes = [] := hctx
  have htable : (ctx.behind front).inTable = ctx.inTable := rfl
  have hadd (b : BracketScan) (p : Inline) (ts : List Token) :
      ((b.onto front old).add p, ts.map (Token.behind front)) =
        stepOnto front old (b.add p, ts) := by
    rw [stepOnto, BracketScan.onto_add]
  have hcode (start stop : Nat) :
      codeText (front ++ ctx.source) [] ctx.inTable (front.size + start) (front.size + stop) =
        codeText ctx.source [] ctx.inTable start stop := by
    rw [codeText, rawText_behind, codeText]
  simp only [backticks, hsource, hprefixes, htable, hctx, Token.behind_start, Token.behind_stop,
    Nat.add_sub_add_left, closingBackticks?_behind, Source.slice_behind]
  generalize (if escaped then t.stop - t.start - 1 else t.stop - t.start) = count
  have hclosing (f : Token × List Token → Token × List Token) :
      (if count = 0 then none else (closingBackticks? count rest).map f) =
        (if count = 0 then none else closingBackticks? count rest).map f := by
    split <;> rfl
  rw [hclosing]
  cases if count = 0 then none else closingBackticks? count rest with
  | none => exact hadd b _ rest
  | some r =>
    dsimp only [Option.map_some]
    rw [Token.behind_start, hcode]
    cases escaped with
    | true =>
      rw [if_pos rfl, if_pos rfl, ← BracketScan.onto_add]
      exact hadd _ _ r.2
    | false => exact hadd b _ r.2

lemma takeToken_behind (front : Source) (old : List Inline) {rest : List Token}
    (hrest : ∀ next ∈ rest, 0 < next.start) (hpos : ∀ o ∈ b.brackets, 0 < o.stop) :
    (ctx.behind front).takeToken (t.behind front) (rest.map (Token.behind front))
        (b.onto front old) =
      stepOnto front old (ctx.takeToken t rest b) := by
  have hsource : (ctx.behind front).source = front ++ ctx.source := rfl
  have hprefixes : (ctx.behind front).prefixes = [] := hctx
  have htable : (ctx.behind front).inTable = ctx.inTable := rfl
  have hadd (p : Inline) (ts : List Token) :
      ((b.onto front old).add p, ts.map (Token.behind front)) =
        stepOnto front old (b.add p, ts) := by
    rw [stepOnto, BracketScan.onto_add]
  simp only [takeToken, hsource, hprefixes, htable, Token.behind_kind, Token.behind_start,
    Token.behind_stop, Nat.add_sub_add_left, Source.slice_behind, math?_behind,
    closeBracket_behind hctx front old hpos, angle_behind hctx front old hrest,
    backticks_behind hctx]
  split
  · exact hadd _ rest
  · exact hadd _ rest
  · exact hadd _ rest
  · next canOpen canClose group _ =>
    cases canOpen with
    | false => exact hadd _ rest
    | true =>
      rw [if_pos rfl, if_pos rfl, hctx]
      cases math? ctx.source [] ctx.inTable group t rest with
      | none => exact hadd _ rest
      | some r => exact hadd r.1 r.2
  · rfl
  · rfl
  · rfl
  · rfl
  · rfl
  · exact hadd _ rest
  · exact hadd _ rest

end TextContext

end Contexts

end Folio.Markdown
