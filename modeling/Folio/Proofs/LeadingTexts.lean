import Folio.Proofs.OneLineSources
import Folio.Proofs.RelocatedRuns

/-!
# Text in front of running text

Plain text in front of running text is one more piece in front of its pieces. It changes neither
what brackets and marks behind it mean nor what they stand for.
-/

namespace Folio.Markdown

section Emphasis

/-- The openers with pieces in front of everything: what is at hand where nothing is open goes on
behind these pieces. -/
def openersOnto (old : List Inline) : List Opener → List Inline → List Opener × List Inline
  | [], pieces => ([], pieces ++ old)
  | o :: os, pieces =>
    let outer := openersOnto old os o.before
    ({ o with before := outer.2 } :: outer.1, pieces)

variable {old : List Inline} {q : Opener → Bool}

lemma openersOnto_append (os : List Opener) (ps qs : List Inline) :
    openersOnto old os (ps ++ qs) =
      ((openersOnto old os qs).1, ps ++ (openersOnto old os qs).2) := by
  cases os with
  | nil => exact congrArg (Prod.mk []) (List.append_assoc ..)
  | cons o os => rfl

lemma openersOnto_cons (os : List Opener) (p : Inline) (qs : List Inline) :
    openersOnto old os (p :: qs) =
      ((openersOnto old os qs).1, p :: (openersOnto old os qs).2) :=
  openersOnto_append os [p] qs

lemma length_openersOnto (os : List Opener) (pieces : List Inline) :
    (openersOnto old os pieces).1.length = os.length := by
  induction os generalizing pieces with
  | nil => rfl
  | cons o os ih => exact congrArg Nat.succ (ih o.before)

/-- The same opener is found, whatever is in front. -/
lemma findOpener_onto (hq : ∀ (o : Opener) (before : List Inline), q { o with before } = q o)
    (bound : Nat) (os : List Opener) (pieces : List Inline) :
    findOpener q bound (openersOnto old os pieces).1 (openersOnto old os pieces).2 =
      (findOpener q bound os pieces).map fun r =>
        (r.1, { r.2.1 with before := (openersOnto old r.2.2 r.2.1.before).2 },
          (openersOnto old r.2.2 r.2.1.before).1) := by
  induction os generalizing pieces with
  | nil => rfl
  | cons o os ih =>
    have hskip := ih (pieces ++ marksText o.mark o.count :: o.before)
    rw [openersOnto_append, openersOnto_cons] at hskip
    simp only [openersOnto, findOpener, length_openersOnto, hq]
    split
    · rfl
    split
    · rfl
    · exact hskip

namespace EmphasisScan

def onto (old : List Inline) (e : EmphasisScan) : EmphasisScan :=
  ⟨(openersOnto old e.openers e.pieces).1, (openersOnto old e.openers e.pieces).2, e.tildeBound⟩

variable {e : EmphasisScan}

lemma onto_add (p : Inline) : (e.add p).onto old = (e.onto old).add p := by
  rw [onto, add, openersOnto_cons]
  rfl

lemma onto_closeFuel (mark : Char) (runLength : Nat) (both : Bool) (fuel count : Nat) :
    closeFuel mark runLength both fuel (e.onto old) count =
      ((closeFuel mark runLength both fuel e count).1.onto old,
        (closeFuel mark runLength both fuel e count).2) := by
  induction fuel generalizing e count with
  | zero => rfl
  | succ fuel ih =>
    have hfind := @findOpener_onto old (·.fits mark runLength both) (fun _ _ => rfl)
      (if mark == '~' then e.tildeBound else 0) e.openers e.pieces
    have hbound : (e.onto old).tildeBound = e.tildeBound := rfl
    have hopeners : (e.onto old).openers = (openersOnto old e.openers e.pieces).1 := rfl
    have hpieces : (e.onto old).pieces = (openersOnto old e.openers e.pieces).2 := rfl
    simp only [closeFuel, hbound, hopeners, hpieces, hfind, length_openersOnto]
    cases findOpener (·.fits mark runLength both) (if mark == '~' then e.tildeBound else 0)
        e.openers e.pieces with
    | none => rfl
    | some r =>
      obtain ⟨inner, o, outer⟩ := r
      -- What is left of the opener stays open, or its pieces join those in front of it.
      have hclosed (bound : Nat) :
          (if min count o.count < o.count then
            (⟨{ o with
                count := o.count - min count o.count
                before := (openersOnto old outer o.before).2 } ::
                  (openersOnto old outer o.before).1,
              wrapSpan mark (min count o.count) inner.reverse, bound⟩ : EmphasisScan)
            else ⟨(openersOnto old outer o.before).1,
              wrapSpan mark (min count o.count) inner.reverse ++
                (openersOnto old outer o.before).2, bound⟩) =
          EmphasisScan.onto old (if min count o.count < o.count then
            ⟨{ o with count := o.count - min count o.count } :: outer,
              wrapSpan mark (min count o.count) inner.reverse, bound⟩
            else ⟨outer, wrapSpan mark (min count o.count) inner.reverse ++ o.before, bound⟩) := by
        split
        · rfl
        · rw [onto, openersOnto_append]
      dsimp only [Option.map_some]
      rw [length_openersOnto, hclosed]
      split
      · rfl
      · exact ih _

lemma onto_addRun (mark : Char) (runLength : Nat) (canOpen canClose : Bool) :
    (e.onto old).addRun mark runLength canOpen canClose =
      (e.addRun mark runLength canOpen canClose).onto old := by
  simp only [addRun, onto_closeFuel]
  cases canClose with
  | true =>
    simp only [if_true]
    split
    · rfl
    split
    · rfl
    · exact (onto_add _).symm
  | false =>
    simp only [Bool.false_eq_true, if_false]
    split
    · rfl
    split
    · rfl
    · exact (onto_add _).symm

lemma onto_finish : (e.onto old).finish = old.reverse ++ e.finish := by
  obtain ⟨openers, pieces, bound⟩ := e
  induction openers generalizing pieces with
  | nil => exact List.reverse_append
  | cons o os ih =>
    have hskip := ih (pieces ++ marksText o.mark o.count :: o.before)
    rw [onto, openersOnto_append, openersOnto_cons] at hskip
    exact hskip

lemma onto_emphasizeFrom (ps : List Inline) :
    emphasizeFrom (e.onto old) ps = (emphasizeFrom e ps).onto old := by
  induction ps generalizing e with
  | nil => rfl
  | cons p ps ih =>
    have hpiece (hp : ∀ mark count canOpen canClose, p ≠ .delimiters mark count canOpen canClose) :
        emphasizeFrom (e.onto old) (p :: ps) = (emphasizeFrom e (p :: ps)).onto old := by
      rw [emphasizeFrom.eq_3 _ _ _ hp, emphasizeFrom.eq_3 _ _ _ hp, ← onto_add, ih]
    cases p with
    | delimiters mark count canOpen canClose =>
      rw [emphasizeFrom, emphasizeFrom, onto_addRun, ih]
    | _ => exact hpiece (by simp)

end EmphasisScan

/-- Text in front of pieces is in front of the spans that they make. -/
lemma emphasize_text_cons (value : List Char) (ps : List Inline) :
    emphasize (.text value :: ps) = .text value :: emphasize ps := by
  have hfrom : emphasizeFrom .empty (.text value :: ps) =
      emphasizeFrom (EmphasisScan.empty.onto [.text value]) ps :=
    emphasizeFrom.eq_3 _ _ _ (by simp)
  rw [emphasize, hfrom, EmphasisScan.onto_emphasizeFrom, EmphasisScan.onto_finish]
  rfl

end Emphasis

section Tokens

variable {ctx : TextContext} {ts : List Token}

/-- Tokens are read into the same pieces behind a front. -/
lemma takeTokens_behind (hctx : ctx.prefixes = []) (front : Source)
    (h : Inside (BracketScan.empty, ts)) :
    (ctx.behind front).takeTokens (ts.map (Token.behind front)) = ctx.takeTokens ts := by
  have hempty : BracketScan.empty.onto front [] = .empty := rfl
  have hrun := takeTokensFuel_behind hctx front [] ts.length h
  rw [hempty] at hrun
  rw [TextContext.takeTokens, List.length_map, hrun, ← BracketScan.onto_forgetAll]
  exact congrArg List.reverse (List.append_nil _)

/-- A token of plain text is one piece in front of the others. -/
lemma takeTokens_text_cons (hctx : ctx.prefixes = []) (escaped : Bool) (start stop : Nat)
    (h : Inside (BracketScan.empty, ts)) :
    ctx.takeTokens (⟨.text escaped, start, stop⟩ :: ts) =
      .text (ctx.source.slice start stop) :: ctx.takeTokens ts := by
  have hrun := takeTokensFuel_behind hctx #[] [.text (ctx.source.slice start stop)] ts.length h
  have hsource : ctx.behind #[] = ctx := by
    rw [TextContext.behind, Array.empty_append]
  have htokens : ts.map (Token.behind #[]) = ts := by
    refine List.map_id'' (fun t => ?_) ts
    rw [Token.behind, Array.size_empty, Nat.zero_add, Nat.zero_add]
  rw [hsource, htokens] at hrun
  have hstep : ctx.takeTokensFuel (ts.length + 1) (⟨.text escaped, start, stop⟩ :: ts) .empty =
      ctx.takeTokensFuel ts.length ts
        (BracketScan.empty.onto #[] [.text (ctx.source.slice start stop)]) := rfl
  rw [TextContext.takeTokens, List.length_cons, hstep, hrun, ← BracketScan.onto_forgetAll]
  exact List.reverse_append

/-- What running text means once its tokens are known. -/
def TextContext.meaning (ctx : TextContext) (ts : List Token) : List Inline :=
  emphasize (ctx.takeTokens ts)

lemma slice_append_slice {s : Source} {i j k : Nat} (hij : i ≤ j) (hjk : j ≤ k) :
    s.slice i j ++ s.slice j k = s.slice i k := by
  rw [Source.slice, Source.slice, ← Array.toList_append, Array.extract_append_extract,
    Nat.min_eq_left hij, Nat.max_eq_right hjk, Source.slice]

/-- Text in front of a line, behind a blank, is one more text in front of what the line means, or a
longer first text. -/
theorem meaning_behind {front : Source} {p : Nat} {ts' : List Token} (hp : 0 < p)
    (hctx : ctx.prefixes = []) (h : Headed front p ts ts') :
    ∃ ps, (ctx.meaning ts.reverse = ps ∧
        (ctx.behind front).meaning ts'.reverse =
          .text ((front ++ ctx.source).slice 0 (front.size + p)) :: ps) ∨
      ∃ value, ctx.meaning ts.reverse = .text value :: ps ∧
        (ctx.behind front).meaning ts'.reverse =
          .text ((front ++ ctx.source).slice 0 (front.size + p) ++ value) :: ps := by
  obtain ⟨rest, escaped, stop, hstop, hts', hts⟩ := h.exists_reverse
  have hinside : Inside (BracketScan.empty, rest) := by
    refine ⟨List.forall_mem_nil _, fun t ht => ?_⟩
    have hmem : t ∈ ts := by
      rw [← List.mem_reverse]
      rcases hts with ⟨hts, -⟩ | hts
      · exact hts ▸ ht
      · exact hts ▸ List.mem_cons_of_mem _ ht
    obtain ⟨hstart, hstop⟩ := h.le_of_mem hmem
    exact ⟨by omega, by omega⟩
  have hinside' : Inside (BracketScan.empty, rest.map (Token.behind front)) := by
    refine ⟨List.forall_mem_nil _, List.forall_mem_map.mpr fun t ht => ?_⟩
    obtain ⟨hstart, hstop⟩ := hinside.tokens t ht
    exact ⟨Nat.add_pos_right _ hstart, Nat.add_pos_right _ hstop⟩
  have hbehind : (ctx.behind front).meaning ts'.reverse =
      .text ((front ++ ctx.source).slice 0 (front.size + stop)) :: ctx.meaning rest := by
    have hctx' : (ctx.behind front).prefixes = [] := hctx
    rw [hts', TextContext.meaning, takeTokens_text_cons hctx' _ _ _ hinside',
      takeTokens_behind hctx front hinside, emphasize_text_cons]
    rfl
  refine ⟨ctx.meaning rest, ?_⟩
  rcases hts with ⟨hts, rfl⟩ | hts
  · exact .inl ⟨by rw [hts], hbehind⟩
  · refine .inr ⟨ctx.source.slice p stop, ?_, ?_⟩
    · rw [hts, TextContext.meaning, takeTokens_text_cons hctx _ _ _ hinside, emphasize_text_cons]
      rfl
    · have hslice : (front ++ ctx.source).slice (front.size + p) (front.size + stop) =
          ctx.source.slice p stop := Source.slice_behind
      rw [hbehind, ← hslice,
        slice_append_slice (Nat.zero_le _) (Nat.add_le_add_left hstop front.size)]

end Tokens

end Folio.Markdown
