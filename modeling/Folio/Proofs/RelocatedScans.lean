import Folio.Markdown.RawHtml
import Folio.Proofs.LineTokens

/-!
# Scanners behind a front

A scanner looks at the source from a position on. Where the source stands behind something else, the
positions are larger, by the size of what is in front, and the scanner finds the same.
-/

namespace Folio.Markdown

variable {front s : Source} {i j k : Nat}

/-- The same result, with its position behind a front. -/
def behind {α : Type} (front : Source) (r : α × Nat) : α × Nat :=
  (r.1, front.size + r.2)

section Positions

lemma size_behind (front s : Source) : (front ++ s).size = front.size + s.size :=
  Array.size_append

lemma getElem?_behind (front s : Source) (i : Nat) : (front ++ s)[front.size + i]? = s[i]? := by
  rw [Array.getElem?_append_right (Nat.le_add_right ..), Nat.add_sub_cancel_left]

end Positions

namespace Source

@[simp]
lemma hasAt_behind (c : Char) : (front ++ s).hasAt (front.size + i) c = s.hasAt i c := by
  rw [hasAt, hasAt, getElem?_behind]

lemma startsWith_behind (cs : List Char) :
    (front ++ s).startsWith (front.size + i) cs = s.startsWith i cs := by
  induction cs generalizing i with
  | nil => rfl
  | cons c cs ih => simp only [startsWith, hasAt_behind, Nat.add_assoc, ih]

lemma skipWhileFuel_behind (p : Char → Bool) (fuel : Nat) :
    (front ++ s).skipWhileFuel p fuel (front.size + i) =
      front.size + s.skipWhileFuel p fuel i := by
  induction fuel generalizing i with
  | zero => rfl
  | succ fuel ih =>
    simp only [skipWhileFuel, getElem?_behind, Nat.add_assoc, ih]
    split
    · exact (apply_ite ..).symm
    · rfl

lemma skipWhile_behind (p : Char → Bool) :
    (front ++ s).skipWhile p (front.size + i) = front.size + s.skipWhile p i := by
  rw [skipWhile, size_behind, Nat.add_sub_add_left, skipWhileFuel_behind, skipWhile]

lemma runLength_behind (c : Char) :
    (front ++ s).runLength c (front.size + i) = s.runLength c i := by
  rw [runLength, skipWhile_behind, Nat.add_sub_add_left, runLength]

lemma skipBlanks_behind :
    (front ++ s).skipBlanks (front.size + i) = front.size + s.skipBlanks i :=
  skipWhile_behind _

lemma lineEnd?_behind :
    (front ++ s).lineEnd? (front.size + i) = (s.lineEnd? i).map (front.size + ·) := by
  simp only [lineEnd?, getElem?_behind, Nat.add_assoc, hasAt_behind]
  split
  · rfl
  · rfl
  · split <;> rfl
  · rfl

lemma skipBack_behind (p : Char → Bool) (h : j ≤ i) :
    (front ++ s).skipBack p (front.size + j) (front.size + i) = front.size + s.skipBack p j i := by
  unfold skipBack
  induction i with
  | zero =>
    obtain rfl : j = 0 := Nat.le_zero.mp h
    cases hsize : front.size with
    | zero => rfl
    | succ n => exact if_neg (by rw [decide_eq_false (Nat.not_succ_le_self n)]; simp)
  | succ i ih =>
    rw [← Nat.add_assoc, skipBackFuel, skipBackFuel, getElem?_behind]
    simp only [Nat.add_le_add_iff_left]
    split
    · next hgo =>
      simp only [Bool.and_eq_true, decide_eq_true_eq] at hgo
      exact ih hgo.1
    · rfl

lemma slice_behind : (front ++ s).slice (front.size + i) (front.size + j) = s.slice i j := by
  simp only [slice, Array.toList_extract, Array.toList_append, List.extract_eq_take_drop,
    Nat.add_sub_add_left, ← Array.length_toList, List.drop_append, Nat.add_sub_cancel_left,
    List.drop_of_length_le (Nat.le_add_right _ i), List.nil_append]

end Source

section References

lemma charReference?_behind :
    charReference? (front ++ s) (front.size + i) = (charReference? s i).map (behind front) := by
  simp only [charReference?, Nat.add_assoc, Source.hasAt_behind]
  split
  · cases s.hasAt (i + 2) 'x' || s.hasAt (i + 2) 'X' with
    | true =>
      simp only [if_true, Source.skipWhile_behind, Nat.add_assoc, Nat.add_min_add_left,
        Nat.add_lt_add_iff_left, Source.hasAt_behind, Source.slice_behind]
      split <;> rfl
    | false =>
      simp only [Bool.false_eq_true, if_false, Source.skipWhile_behind, Nat.add_assoc,
        Nat.add_min_add_left, Nat.add_lt_add_iff_left, Source.hasAt_behind, Source.slice_behind]
      split <;> rfl
  · simp only [Source.skipWhile_behind, Source.hasAt_behind, Source.slice_behind]
    split
    · rw [Option.map_map]
      rfl
    · rfl

lemma isEscape_behind : isEscape (front ++ s) (front.size + i) = isEscape s i := by
  simp only [isEscape, Nat.add_assoc, Source.hasAt_behind, getElem?_behind]

lemma isTablePipe_behind : isTablePipe (front ++ s) (front.size + i) = isTablePipe s i := by
  simp only [isTablePipe, Nat.add_assoc, Source.hasAt_behind]

end References

section Labels

variable {onLine onLine' : Nat → Option Nat}
  (honLine : ∀ next, onLine' (front.size + next) = (onLine next).map (front.size + ·))

include honLine

lemma labelBlanksFuel_behind (fuel : Nat) (broken : Bool) (width : Nat) :
    labelBlanksFuel (front ++ s) onLine' fuel broken width (front.size + i) =
      (labelBlanksFuel s onLine fuel broken width i).map fun r => (front.size + r.1, r.2) := by
  induction fuel generalizing broken width i with
  | zero => rfl
  | succ fuel ih =>
    simp only [labelBlanksFuel, getElem?_behind, Source.lineEnd?_behind, Nat.add_assoc, ih]
    split
    · rfl
    · split
      · split
        · rfl
        · cases s.lineEnd? i with
          | none => rfl
          | some next =>
            simp only [Option.map_some, Option.bind_eq_bind, Option.bind_some, honLine]
            cases onLine next with
            | none => rfl
            | some next => exact ih true (width + 2)
      · split <;> rfl

lemma labelFuel_behind (inTable : Bool) (fuel : Nat) (l : LabelScan) :
    labelFuel (front ++ s) onLine' inTable fuel l (front.size + i) =
      (labelFuel s onLine inTable fuel l i).map (behind front) := by
  induction fuel generalizing l i with
  | zero => rfl
  | succ fuel ih =>
    have hsize : (front ++ s).size + 1 - (front.size + i) = s.size + 1 - i := by
      rw [size_behind, Nat.add_assoc, Nat.add_sub_add_left]
    simp only [labelFuel, getElem?_behind, isTablePipe_behind, hsize,
      labelBlanksFuel_behind honLine, Nat.add_assoc, ih]
    split
    · rfl
    split
    · rfl
    · rfl
    · split <;> rfl
    · split
      · rfl
      · split <;> rfl
    · split
      · cases labelBlanksFuel s onLine (s.size + 1 - i) false 0 i with
        | none => rfl
        | some r =>
          obtain ⟨next, width⟩ := r
          simp only [Option.map_some, Nat.add_sub_add_left]
          exact ih _
      · rfl

lemma label?_behind (inTable : Bool) :
    label? (front ++ s) onLine' inTable (front.size + i) =
      (label? s onLine inTable i).map (behind front) := by
  rw [label?, size_behind, Nat.add_assoc, Nat.add_sub_add_left, labelFuel_behind honLine, label?]

end Labels

section Destinations

lemma pointyFuel_behind (fuel : Nat) :
    pointyFuel (front ++ s) fuel (front.size + i) = (pointyFuel s fuel i).map (front.size + ·) := by
  induction fuel generalizing i with
  | zero => rfl
  | succ fuel ih =>
    simp only [pointyFuel, getElem?_behind, isEscape_behind, Nat.add_assoc]
    split
    · rfl
    · rfl
    · rfl
    · rfl
    · rfl
    · rw [← apply_ite (front.size + ·), ih]

lemma plainFuel_behind (fuel nesting : Nat) :
    plainFuel (front ++ s) fuel nesting (front.size + i) =
      (plainFuel s fuel nesting i).map (front.size + ·) := by
  induction fuel generalizing nesting i with
  | zero => rfl
  | succ fuel ih =>
    simp only [plainFuel, getElem?_behind, isEscape_behind, Nat.add_assoc, ih,
      ← apply_ite (front.size + ·)]
    split
    · split <;> rfl
    · repeat' split
      all_goals rfl

lemma destination?_behind :
    destination? (front ++ s) (front.size + i) = (destination? s i).map (behind front) := by
  simp only [destination?, Source.hasAt_behind, size_behind, Nat.add_assoc, Nat.add_sub_add_left,
    pointyFuel_behind, plainFuel_behind]
  split
  · cases pointyFuel s (s.size - i) (i + 1) with
    | none => rfl
    | some stop => simp [behind, Source.slice_behind, Nat.add_assoc]
  · cases plainFuel s (s.size + 1 - i) 0 i with
    | none => rfl
    | some stop => simp [behind, Source.slice_behind]

lemma uri?_behind : uri? (front ++ s) (front.size + i) = (uri? s i).map (behind front) := by
  simp only [uri?, Source.skipWhile_behind, getElem?_behind, Source.hasAt_behind, Nat.add_assoc,
    Nat.add_sub_add_left, Source.slice_behind]
  split
  · split <;> rfl
  · rfl

lemma hostFuel_behind (fuel : Nat) :
    hostFuel (front ++ s) fuel (front.size + i) = (hostFuel s fuel i).map (front.size + ·) := by
  induction fuel generalizing i with
  | zero => rfl
  | succ fuel ih =>
    simp only [hostFuel, Source.skipWhile_behind, Source.hasAt_behind, Nat.add_sub_add_left,
      Nat.add_right_inj, Nat.add_assoc, ih]
    have hle : i ≤ s.skipWhile (fun c => c.isAlphanum || c == '-') i := Source.le_skipWhile
    generalize s.skipWhile (fun c => c.isAlphanum || c == '-') i = stop at hle
    by_cases hstop : stop = i
    · simp [hstop]
    · obtain ⟨last, rfl⟩ := Nat.exists_eq_succ_of_ne_zero (by omega : stop ≠ 0)
      simp only [← Nat.add_assoc, Nat.succ_eq_add_one, Nat.add_sub_cancel, Source.hasAt_behind]
      split
      · rfl
      · split <;> rfl

lemma email?_behind : email? (front ++ s) (front.size + i) = (email? s i).map (behind front) := by
  simp only [email?, Source.skipWhile_behind, Nat.add_right_inj, Source.hasAt_behind, size_behind,
    Nat.add_sub_add_left, Nat.add_assoc, hostFuel_behind]
  split
  · rfl
  · cases hostFuel s (s.size - i) (s.skipWhile isMailboxChar i + 1) with
    | none => rfl
    | some stop =>
      simp only [Option.map_some, Option.bind_eq_bind, Option.bind_some, Source.hasAt_behind,
        Source.slice_behind, Nat.add_assoc]
      split <;> rfl

end Destinations

section Tags

/-- The same tag behind a front. -/
def TagScan.behind (front : Source) (t : TagScan) : TagScan :=
  ⟨front.size + t.pos, front.size + t.mark, t.kept⟩

namespace TagScan

variable {t : TagScan}

@[simp]
lemma behind_pos (front : Source) (t : TagScan) : (t.behind front).pos = front.size + t.pos := rfl

lemma passLineEnd?_nil (s : Source) (t : TagScan) (next : Nat) :
    t.passLineEnd? s (some []) next = some { t with pos := next } :=
  congrArg some (if_pos rfl)

lemma skipBlanksFuel_behind (fuel : Nat) :
    skipBlanksFuel (front ++ s) (some []) fuel (t.behind front) =
      (skipBlanksFuel s (some []) fuel t).map (TagScan.behind front) := by
  induction fuel generalizing t with
  | zero => rfl
  | succ fuel ih =>
    simp only [skipBlanksFuel, behind_pos, Source.skipBlanks_behind, Source.lineEnd?_behind]
    cases s.lineEnd? (s.skipBlanks t.pos) with
    | none => rfl
    | some next =>
      simp only [Option.map_some, Nat.add_right_inj, passLineEnd?_nil, Option.bind_some]
      split
      · rfl
      · exact @ih { t with pos := next }

lemma skipBlanks?_behind :
    (t.behind front).skipBlanks? (front ++ s) (some []) =
      (t.skipBlanks? s (some [])).map (TagScan.behind front) := by
  rw [skipBlanks?, behind_pos, size_behind, Nat.add_assoc, Nat.add_sub_add_left,
    skipBlanksFuel_behind, skipBlanks?]

lemma quotedValueFuel_behind (quote : Char) (fuel : Nat) :
    quotedValueFuel (front ++ s) (some []) quote fuel (t.behind front) =
      (quotedValueFuel s (some []) quote fuel t).map (TagScan.behind front) := by
  induction fuel generalizing t with
  | zero => rfl
  | succ fuel ih =>
    simp only [quotedValueFuel, behind_pos, getElem?_behind, Source.lineEnd?_behind]
    split
    · rfl
    · split
      · rfl
      · split
        · cases s.lineEnd? t.pos with
          | none => rfl
          | some next =>
            simp only [Option.map_some, Option.bind_some, passLineEnd?_nil]
            exact @ih { t with pos := next }
        · exact @ih { t with pos := t.pos + 1 }

lemma value?_behind :
    (t.behind front).value? (front ++ s) (some []) =
      (t.value? s (some [])).map (TagScan.behind front) := by
  simp only [value?, behind_pos, getElem?_behind, size_behind, Nat.add_sub_add_left,
    Source.skipWhile_behind]
  cases s[t.pos]? with
  | none => rfl
  | some c =>
    simp only [Option.bind_eq_bind, Option.bind_some]
    split
    · exact quotedValueFuel_behind (t := { t with pos := t.pos + 1 }) c _
    · split <;> rfl

lemma attribute?_behind :
    (t.behind front).attribute? (front ++ s) (some []) =
      (t.attribute? s (some [])).map (TagScan.behind front) := by
  have hnamed : ({ t.behind front with
      pos := (front ++ s).skipWhile isNameRest (front.size + t.pos + 1) } : TagScan) =
        ({ t with pos := s.skipWhile isNameRest (t.pos + 1) } : TagScan).behind front := by
    rw [Nat.add_assoc, Source.skipWhile_behind]
    rfl
  simp only [attribute?, behind_pos, getElem?_behind, hnamed, skipBlanks?_behind]
  split
  · rfl
  · cases ({ t with pos := s.skipWhile isNameRest (t.pos + 1) } : TagScan).skipBlanks? s (some [])
      with
    | none => rfl
    | some ahead =>
      simp only [Option.map_some, Option.bind_eq_bind, Option.bind_some, behind_pos,
        Source.hasAt_behind]
      split
      · have hequals : ({ ahead.behind front with pos := front.size + ahead.pos + 1 } : TagScan) =
            ({ ahead with pos := ahead.pos + 1 } : TagScan).behind front := rfl
        rw [hequals, skipBlanks?_behind]
        cases ({ ahead with pos := ahead.pos + 1 } : TagScan).skipBlanks? s (some []) with
        | none => rfl
        | some t => exact value?_behind
      · rfl

lemma attributesFuel_behind (fuel : Nat) :
    attributesFuel (front ++ s) (some []) fuel (t.behind front) =
      (attributesFuel s (some []) fuel t).map (TagScan.behind front) := by
  induction fuel generalizing t with
  | zero => rfl
  | succ fuel ih =>
    simp only [attributesFuel, skipBlanks?_behind]
    cases t.skipBlanks? s (some []) with
    | none => rfl
    | some spaced =>
      simp only [Option.map_some, Option.bind_eq_bind, Option.bind_some, behind_pos,
        getElem?_behind, Nat.add_right_inj, attribute?_behind]
      cases s[spaced.pos]? with
      | none => rfl
      | some c =>
        dsimp only
        split
        · rfl
        · split
          · rfl
          · cases spaced.attribute? s (some []) with
            | none => rfl
            | some t => exact ih

end TagScan

/-- The end of a tag behind its name and its attributes. -/
def TagScan.finish? (s : Source) (closing : Bool) (t : TagScan) : Option (List Char × Nat) :=
  let pos := s.skipBlanks t.pos
  let pos := if !closing && s.hasAt pos '/' then pos + 1 else pos
  if s.hasAt pos '>' then some (t.kept ++ s.slice t.mark (pos + 1), pos + 1) else none

lemma TagScan.finish?_behind (closing : Bool) {t : TagScan} :
    (t.behind front).finish? (front ++ s) closing =
      (t.finish? s closing).map (Markdown.behind front) := by
  simp only [finish?, behind_pos, Source.skipBlanks_behind, Source.hasAt_behind, Nat.add_assoc,
    ← apply_ite (front.size + ·)]
  generalize (if !closing && s.hasAt (s.skipBlanks t.pos) '/' then s.skipBlanks t.pos + 1
    else s.skipBlanks t.pos) = pos
  rw [TagScan.behind, Source.slice_behind]
  split <;> rfl

/-- A tag is its name, its attributes if it opens an element, and its end. -/
lemma tag?_eq (s : Source) (prefixes : Option (List LinePrefix)) (i : Nat) :
    tag? s prefixes i =
      let closing := s.hasAt (i + 1) '/'
      let name := i + if closing then 2 else 1
      let t : TagScan := ⟨s.skipWhile isTagNameRest (name + 1), i, []⟩
      if s[name]?.any Char.isAlpha then
        (if closing then some t else t.attributesFuel s prefixes (s.size + 1 - t.pos)).bind
          (TagScan.finish? s closing)
      else none := by
  unfold tag?
  cases s.hasAt (i + 1) '/' with
  | true =>
    simp only [if_true]
    cases s[i + 2]?.any Char.isAlpha <;> rfl
  | false =>
    simp only [Bool.false_eq_true, if_false]
    cases s[i + 1]?.any Char.isAlpha <;> rfl

lemma tag?_behind :
    tag? (front ++ s) (some []) (front.size + i) = (tag? s (some []) i).map (behind front) := by
  simp only [tag?_eq, Nat.add_assoc, Source.hasAt_behind, getElem?_behind,
    Source.skipWhile_behind]
  have hnamed (pos : Nat) : (⟨front.size + pos, front.size + i, []⟩ : TagScan) =
      (⟨pos, i, []⟩ : TagScan).behind front := rfl
  simp only [hnamed, TagScan.attributesFuel_behind, size_behind, Nat.add_assoc,
    Nat.add_sub_add_left]
  cases s.hasAt (i + 1) '/' with
  | true =>
    simp only [if_true, Option.bind_some]
    split
    · exact TagScan.finish?_behind true
    · rfl
  | false =>
    simp only [Bool.false_eq_true, if_false]
    split
    · cases TagScan.attributesFuel s (some []) (s.size + 1 - s.skipWhile isTagNameRest (i + 2))
          ⟨s.skipWhile isTagNameRest (i + 2), i, []⟩ with
      | none => rfl
      | some t => exact TagScan.finish?_behind false
    · rfl

lemma findFuel_behind (cs : List Char) (fuel : Nat) :
    findFuel (front ++ s) cs fuel (front.size + i) =
      (findFuel s cs fuel i).map (front.size + ·) := by
  induction fuel generalizing i with
  | zero => rfl
  | succ fuel ih =>
    simp only [findFuel, Source.startsWith_behind, size_behind, Nat.add_lt_add_iff_left,
      Nat.add_assoc, ih]
    split
    · rfl
    · split <;> rfl

lemma find?_behind (cs : List Char) :
    find? (front ++ s) cs (front.size + i) = (find? s cs i).map (front.size + ·) := by
  rw [find?, size_behind, Nat.add_assoc, Nat.add_sub_add_left, findFuel_behind, find?]

lemma declaration?_behind :
    declaration? (front ++ s) (front.size + i) = (declaration? s i).map (front.size + ·) := by
  simp only [declaration?, Nat.add_assoc, Source.startsWith_behind, find?_behind,
    Source.skipWhile_behind, Nat.add_lt_add_iff_left, Source.hasAt_behind, getElem?_behind]
  split
  · rfl
  · split
    · split <;> rfl
    · split <;> rfl

lemma inlineHtml?_behind :
    inlineHtml? (front ++ s) [] (front.size + i) = (inlineHtml? s [] i).map (behind front) := by
  have hslice (stop : Nat) :
      (front ++ s).slice (front.size + i) (front.size + stop) = s.slice i stop :=
    Source.slice_behind
  simp only [inlineHtml?, Nat.add_assoc, Source.hasAt_behind, declaration?_behind, find?_behind,
    tag?_behind, Option.map_map]
  split
  · cases declaration? s i <;> simp [behind, hslice]
  · split
    · cases find? s "?>".toList (i + 2) <;> simp [behind, hslice]
    · rfl

end Tags

end Folio.Markdown
