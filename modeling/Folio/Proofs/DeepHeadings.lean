import Folio.Proofs.BrokenLines
import Folio.Proofs.MarkedParagraphs
import Folio.Proofs.ParsedEvents
import Folio.Proofs.RelocatedScans
import Folio.Proofs.RunningText
import Folio.Proofs.TextSpans

/-!
# Markers of deep headings

A paragraph becomes a deep heading by the text that it opens with. The marks in the source are a
marker of their own, so many of them as the level says and with a blank or the end of the line
behind, unless that text ends right behind them, because markup or a literal begins there, or an
escape or a reference stands there that yields a mark or a blank.
-/

namespace Folio

namespace Markdown

section Offsets

lemma dropBytes_sum (cs : List Char) (i : Nat) :
    Text.dropBytes? ((cs.take i).foldl (fun n c => n + c.utf8Size) 0) cs = some (cs.drop i) := by
  have hfrom (cs : List Char) (n : Nat) :
      cs.foldl (fun n c => n + c.utf8Size) n = n + cs.foldl (fun n c => n + c.utf8Size) 0 := by
    induction cs generalizing n with
    | nil => rfl
    | cons c cs ih => rw [List.foldl_cons, ih, List.foldl_cons, ih (0 + c.utf8Size)]; omega
  induction cs generalizing i with
  | nil => rw [List.take_nil, List.drop_nil]; rfl
  | cons c cs ih =>
    cases i with
    | zero => rfl
    | succ i =>
      have hpos := c.utf8Size_pos
      rw [List.take_succ_cons, List.foldl_cons, hfrom, Nat.zero_add, List.drop_succ_cons]
      obtain ⟨k, hk⟩ := Nat.exists_eq_succ_of_ne_zero (Nat.ne_of_gt
        (Nat.add_pos_left hpos ((cs.take i).foldl (fun n c => n + c.utf8Size) 0)))
      rw [hk, Text.dropBytes?, if_pos (by omega), ← ih i]
      congr 1
      omega

/-- From the offset of a position on, the source is what stands there. -/
lemma dropBytes_byteOffset (cs : List Char) (i : Nat) :
    Text.dropBytes? (Source.byteOffset cs.toArray i) cs = some (cs.drop i) := by
  rw [Source.byteOffset, ← dropBytes_sum cs i]
  simp

end Offsets

section Marks

variable {cs : List Char} {i n : Nat}

/-- The marks that a source has at a position, with what is behind them. -/
lemma drop_eq_marks (cs : List Char) (i : Nat) :
    ∃ n rest, cs.drop i = List.replicate n '#' ++ rest ∧ rest.head? ≠ some '#' ∧
      ((cs.drop i).takeWhile (· == '#')).length = n := by
  refine ⟨_, (cs.drop i).dropWhile (· == '#'), ?_, ?_, rfl⟩
  · have hall : ∀ c ∈ (cs.drop i).takeWhile (· == '#'), c = '#' := fun c hc =>
      beq_iff_eq.mp (List.all_eq_true.mp List.all_takeWhile c hc)
    rw [← List.eq_replicate_length.mpr hall, List.takeWhile_append_dropWhile]
  · intro hhead
    have hnot := List.head?_dropWhile_not (· == '#') (cs.drop i)
    rw [hhead] at hnot
    cases hnot

lemma getElem?_of_drop {rest : List Char} (h : cs.drop i = List.replicate n '#' ++ rest) :
    (∀ k < n, cs.toArray[i + k]? = some '#') ∧ cs.toArray[i + n]? = rest.head? := by
  have hget (k : Nat) : cs.toArray[i + k]? = (List.replicate n '#' ++ rest)[k]? := by
    rw [← h, List.getElem?_drop, List.getElem?_toArray]
  constructor
  · intro k hk
    rw [hget, List.getElem?_append_left (by simpa using hk), List.getElem?_replicate, if_pos hk]
  · rw [hget, List.getElem?_append_right (by simp), List.length_replicate, Nat.sub_self,
      List.head?_eq_getElem?]

lemma slice_marks {rest : List Char} {m stop : Nat}
    (h : cs.drop i = List.replicate n '#' ++ rest) (hm : i + n ≤ m) (hstop : i + n ≤ stop) :
    Source.slice (cs.toArray.extract 0 stop) i m =
      List.replicate n '#' ++ rest.take (min m stop - (i + n)) := by
  have hlist : Source.slice (cs.toArray.extract 0 stop) i m =
      (cs.drop i).take (min m stop - i) := by
    simp only [Source.slice, Array.toList_extract, List.extract_eq_take_drop, List.drop_zero,
      Nat.sub_zero, List.drop_take, List.take_take]
    exact congrArg (fun k => (cs.drop i).take k) (by omega)
  rw [hlist, h, List.take_append, List.length_replicate, List.take_of_length_le (by simp; omega),
    Nat.sub_sub]

end Marks

section References

lemma ne_empty_of_mem_namedReferences (first : Char) :
    ∀ p ∈ Text.namedReferences first, p.2 ≠ "" := by
  unfold Text.namedReferences
  split <;> decide +kernel

/-- A reference stands for some text. -/
lemma ne_nil_of_charReference? {s : Source} {k stop : Nat} {value : List Char}
    (h : charReference? s k = some (value, stop)) : value ≠ [] := by
  unfold charReference? at h
  dsimp only at h
  split at h
  · obtain ⟨-, heq⟩ := Option.ite_none_right_eq_some.mp h
    cases heq
    exact List.cons_ne_nil _ _
  split at h
  · obtain ⟨text, htext, heq⟩ := Option.map_eq_some_iff.mp h
    cases heq
    unfold Text.namedReference? at htext
    split at htext
    · cases htext
    · obtain ⟨before, after, hlookup, -⟩ := List.lookup_eq_some_iff.mp htext
      rw [ne_eq, String.toList_eq_nil_iff]
      exact ne_empty_of_mem_namedReferences _ _
        (hlookup ▸ List.mem_append_right _ List.mem_cons_self)
  · cases h

end References

section Content

variable {cs rest : List Char} {start n k : Nat}

/-- The characters that a text can begin with that stands for what the source has at `k`: the one
that is there, or the one behind a backslash, or the first one of a reference, or a line break. -/
inductive Shows (s : Source) (k : Nat) : Char → Prop where
  | here {c : Char} (hc : s[k]? = some c) : Shows s k c
  | escaped {c : Char} (h : isEscape s k = true) (hc : s[k + 1]? = some c) : Shows s k c
  | reference {c : Char} {value : List Char} {stop : Nat} (hc : s[k]? = some '&')
    (h : charReference? s k = some (c :: value, stop)) : Shows s k c
  | lineBreak : Shows s k '\n'

/-- How a text that opens with marks goes on where they end, at `k`. Its first piece is the marks
and `w`, the pieces behind it are `qs`. -/
inductive GoesOn (s : Source) (k : Nat) (w : List Char) (qs : List Inline) : Prop where
  | within (hw : w.head? = s[k]?) (hk : k < s.size)
  | behind {c : Char} {q : Inline} {qs' : List Inline} (hw : w = []) (hqs : qs = q :: qs')
    (hq : q.BeginsWith (some c)) (hc : Shows s k c)
  | alone (hw : w = []) (hqs : qs = [])

lemma head?_slice {s : Source} {m stop : Nat} (hm : k < m) (hstop : k < stop) :
    (Source.slice (s.extract 0 stop) k m).head? = s[k]? := by
  rw [List.head?_eq_getElem?]
  simp only [Source.slice, Array.toList_extract, List.extract_eq_take_drop, List.drop_zero,
    Nat.sub_zero]
  rw [List.getElem?_take_of_lt (by omega), List.getElem?_drop, Nat.add_zero,
    List.getElem?_take_of_lt hstop, Array.getElem?_toList]

/-- A token behind plain text begins with what the source shows there. -/
lemma exists_beginsWith_of_behind {s : Source} {ctx : TextContext} {stop : Nat} {t : Token}
    (hsource : ctx.source = s.extract 0 stop) (h : Behind s k stop t) :
    ∃ c, ctx.BeginsWith (some c) t ∧ Shows s k c := by
  cases h with
  | @mark kind m c hc hkind hm hstop =>
    refine ⟨c, ?_, .here hc⟩
    have hhead : (ctx.source.slice k m).head? = some c := by
      rw [hsource, head?_slice hm hstop, hc]
    cases kind <;> cases hkind
    · exact ⟨hm, rfl⟩
    · exact hhead
    · exact ⟨hhead, rfl⟩
    · rfl
    · rfl
    · rfl
    · rfl
  | reference hc h =>
    obtain ⟨c, value, rfl⟩ := List.exists_cons_of_ne_nil (ne_nil_of_charReference? h)
    exact ⟨c, rfl, .reference hc h⟩
  | @escaped kind m h hkind hm hstop =>
    obtain ⟨c, hc, -⟩ := (Option.any_eq_true _ _).mp (Bool.and_eq_true_iff.mp h).2
    refine ⟨c, ?_, .escaped h hc⟩
    have hhead : (ctx.source.slice (k + 1) m).head? = some c := by
      rw [hsource, head?_slice hm hstop, hc]
    rcases hkind with ⟨e, rfl⟩ | ⟨rfl, htick⟩
    · exact hhead
    · rw [htick] at hc
      exact ⟨hhead, hc.symm⟩
  | lineBreak h =>
    refine ⟨'\n', ?_, .lineBreak⟩
    obtain ⟨kind, b, e⟩ := t
    cases kind with
    | softBreak | hardBreak => trivial
    | _ => cases h

variable (r : Reading) (c : Content)

/-- The text of a paragraph that opens with marks begins with a text of these marks. -/
theorem content_marks (hsource : r.source = cs.toArray)
    (hmarks : cs.drop start = List.replicate n '#' ++ rest)
    (hopens : OpensMarked cs.toArray start n c.tokens.reverse c.stop) :
    ∃ w qs, r.content c = .text (String.ofList (List.replicate n '#' ++ w)) :: Inline.eventsOf qs ∧
      GoesOn cs.toArray (start + n) w qs := by
  have hcontext : (r.context c).source = cs.toArray.extract 0 c.stop := by
    rw [← hsource]
    rfl
  have hslice {m : Nat} (hm : Reached cs.toArray start n c.stop m) :
      (r.context c).source.slice start m =
        List.replicate n '#' ++ rest.take (m - (start + n)) := by
    rw [hcontext, slice_marks hmarks hm.marks hopens.forward, Nat.min_eq_left hm.forward]
  have hwithin {m : Nat} (hm : Reached cs.toArray start n c.stop m) (hlt : start + n < m)
      (qs : List Inline) : GoesOn cs.toArray (start + n) (rest.take (m - (start + n))) qs := by
    refine .within ?_ (hm.size hlt)
    rw [List.head?_take, if_neg (by omega), (getElem?_of_drop hmarks).2]
  rcases hopens.begun with ⟨m, hm, us, t, escaped, htokens, ht⟩ | ⟨m, escaped, hm, htokens⟩
  · have htokens : c.tokens = ⟨.text escaped, start, m⟩ :: t :: us.reverse := by
      rw [← List.reverse_reverse c.tokens, htokens, List.reverse_append]
      rfl
    obtain ⟨o, hbegins, hshows⟩ := exists_beginsWith_of_behind hcontext ht
    obtain ⟨q, qs, hq, hcontent⟩ := content_eq_of_cons_cons r c htokens hbegins
    refine ⟨_, q :: qs, by rw [hcontent, hslice hm]; rfl, ?_⟩
    rcases Nat.eq_or_lt_of_le hm.marks with rfl | hlt
    · rw [Nat.sub_self, List.take_zero]
      exact .behind rfl rfl hq hshows
    · exact hwithin hm hlt _
  · have htokens : c.tokens = [⟨.text escaped, start, m⟩] := by
      rw [← List.reverse_reverse c.tokens, htokens]
      rfl
    refine ⟨_, [], by rw [content_eq_of_singleton r c htokens, hslice hm]; rfl, ?_⟩
    rcases Nat.eq_or_lt_of_le hm.marks with rfl | hlt
    · rw [Nat.sub_self, List.take_zero]
      exact .alone rfl rfl
    · exact hwithin hm hlt _

end Content

end Markdown

namespace Tree

open Markdown (GoesOn Inline Shows taskEvents)

section Openings

variable {n : Nat} {w : List Char} {ns : List Node}

lemma takeWhile_marks (hw : w.head? ≠ some '#') :
    (List.replicate n '#' ++ w).takeWhile (· == '#') = List.replicate n '#' := by
  rw [List.takeWhile_append_of_pos (by simp), List.append_right_eq_self]
  cases w with
  | nil => rfl
  | cons c w => simpa using hw

lemma deepMarker?_eq (hw : w.head? ≠ some '#') :
    deepMarker? (List.replicate n '#' ++ w) =
      if n < deepLevel then none
      else if w.head?.all (fun c => c == ' ' || c == '\t') then
        some (UInt8.ofNat (min n 255), Text.trimStart w)
      else none := by
  simp only [deepMarker?, takeWhile_marks hw, List.length_replicate, List.drop_left']

/-- The marker at the start of a text that opens with marks. -/
lemma level_of_deepMarker? {level : UInt8} {title : List Char}
    (h : deepMarker? (List.replicate n '#' ++ w) = some (level, title)) :
    min n 255 ≤ level.toNat ∧ (w.head? ≠ some '#' →
      level = UInt8.ofNat (min n 255) ∧ ∀ c ∈ w.head?, c = ' ' ∨ c = '\t') := by
  constructor
  · have hcount : n ≤ ((List.replicate n '#' ++ w).takeWhile (· == '#')).length := by
      rw [List.takeWhile_append_of_pos (by simp), List.length_append, List.length_replicate]
      exact Nat.le_add_right _ _
    unfold deepMarker? at h
    dsimp only at h
    split at h
    · cases h
    split at h
    · cases h
      rw [UInt8.toNat_ofNat_of_lt' (by rw [UInt8.size]; omega)]
      omega
    · cases h
  · intro hw
    rw [deepMarker?_eq hw] at h
    split at h
    · cases h
    split at h
    · next hblank =>
      cases h
      refine ⟨rfl, fun c hc => ?_⟩
      rw [Option.mem_def.mp hc] at hblank
      simpa using hblank
    · cases h

/-- A heading comes from a text at the front that opens with its marker. -/
lemma exists_marker_of_paragraphNode {settings : Settings} {offset : Nat} {level : UInt8}
    {cs : List Node} (h : paragraphNode settings offset ns = .heading level cs) :
    deepLevel ≤ (((Text.dropBytes? offset settings.source).getD []).takeWhile (· == '#')).length ∧
      ∃ value rest title, ns = .text value :: rest ∧
        deepMarker? value.toList = some (level, title) := by
  unfold paragraphNode at h
  split at h
  · next hdeep =>
    rw [Bool.and_eq_true] at hdeep
    refine ⟨of_decide_eq_true hdeep.2, ?_⟩
    unfold liftHeading at h
    split at h
    · next value rest =>
      dsimp only at h
      split at h
      · next level' title hmarker =>
        cases h
        split at hmarker
        · exact ⟨value, rest, title, rfl, hmarker⟩
        · cases hmarker
      · cases h
    · cases h
  · cases h

lemma cutText_ne_nil (value : List Char) (fs : List Literal.Found) : cutText value 0 fs ≠ [] := by
  induction fs with
  | nil =>
    rw [cutText, if_pos rfl]
    exact List.cons_ne_nil _ _
  | cons f fs ih =>
    simp only [cutText]
    split
    · exact ih
    · exact List.append_ne_nil_of_right_ne_nil _ (List.cons_ne_nil _ _)

/-- The first text that is left of a text when it is cut: all of it, or what stands before the first
literal that is linked. -/
lemma cutText_first {value : List Char} {fs : List Literal.Found} {text : String}
    (h : cutText value 0 fs = .text text :: ns) :
    text.toList = value ∨ ∃ f ∈ fs,
      (literalTarget? f.kind (slice value f.start f.stop)).isSome = true ∧ 0 < f.start ∧
        text.toList = value.take f.start := by
  induction fs with
  | nil =>
    rw [cutText, if_pos rfl] at h
    cases h
    exact .inl String.toList_ofList
  | cons f fs ih =>
    simp only [cutText] at h
    split at h
    · refine (ih h).imp id ?_
      rintro ⟨g, hg, hrest⟩
      exact ⟨g, List.mem_cons_of_mem f hg, hrest⟩
    · next url htarget =>
      refine .inr ⟨f, List.mem_cons_self, by rw [htarget]; rfl, ?_⟩
      unfold textPiece at h
      split at h
      · cases h
      · next hpiece =>
        cases h
        rw [slice, List.drop_zero, Nat.sub_zero] at hpiece ⊢
        refine ⟨Nat.pos_of_ne_zero fun hzero => hpiece ?_, String.toList_ofList⟩
        rw [hzero]
        rfl

lemma literalTarget?_url {literal : List Char}
    (h : (literalTarget? .url literal).isSome = true) :
    literal.head? = some 'h' ∨ literal.head? = some 'w' := by
  have hhead {c : Char} {cs : List Char} (h : (c :: cs).isPrefixOf literal = true) :
      literal.head? = some c := by
    obtain ⟨rest, rfl⟩ := List.isPrefixOf_iff_prefix.mp h
    rfl
  simp only [literalTarget?] at h
  split at h
  · next hscheme =>
    rw [Bool.or_eq_true] at hscheme
    exact .inl (hscheme.elim hhead hhead)
  split at h
  · next hwww => exact .inr (hhead hwww)
  · cases h

/-- A literal in a text that opens with marks is linked only if it begins with them or further
behind, unless it begins with a letter right behind them. -/
lemma start_of_literalTarget? {f : Literal.Found}
    (hf : f ∈ Literal.find (List.replicate n '#' ++ w))
    (htarget : (literalTarget? f.kind
      (slice (List.replicate n '#' ++ w) f.start f.stop)).isSome = true) :
    f.start = 0 ∨ n < f.start ∨ (f.start = n ∧ ∃ c literal, (c = 'h' ∨ c = 'w') ∧
      w.head? = some c ∧ slice (List.replicate n '#' ++ w) f.start f.stop = c :: literal) := by
  cases hkind : f.kind with
  | email => exact (Literal.email_start_of_mem_find hf hkind).imp id .inl
  | url =>
    rw [hkind] at htarget
    have hletter := literalTarget?_url htarget
    obtain ⟨c, hc, hhead⟩ : ∃ c, (c = 'h' ∨ c = 'w') ∧
        (slice (List.replicate n '#' ++ w) f.start f.stop).head? = some c :=
      hletter.elim (fun h => ⟨_, .inl rfl, h⟩) fun h => ⟨_, .inr rfl, h⟩
    obtain ⟨literal, hliteral⟩ := List.head?_eq_some_iff.mp hhead
    rw [slice, List.head?_take] at hhead
    split at hhead
    · cases hhead
    rw [List.head?_drop] at hhead
    rcases Nat.lt_trichotomy f.start n with hlt | heq | hgt
    · rw [List.getElem?_append_left (by simpa using hlt), List.getElem?_replicate,
        if_pos hlt] at hhead
      cases hhead
      exact absurd hc (by decide)
    · rw [heq, List.getElem?_append_right (by simp), List.length_replicate, Nat.sub_self,
        ← List.head?_eq_getElem?] at hhead
      exact .inr (.inr ⟨heq, c, literal, hc, hhead, hliteral⟩)
    · exact .inr (.inl hgt)

lemma head?_linkLiterals (value : String) (ms : List Node) :
    (linkLiterals Literal.find (.text value :: ms)).head? =
      (cutText value.toList 0 (Literal.find value.toList)).head? := by
  rw [linkLiterals, List.head?_append_of_ne_nil _ (cutText_ne_nil _ _)]

/-- What is left of a text that opens with marks still does, with the same character behind, unless
a literal begins right there. -/
lemma linkLiterals_first {value text : String} {ms : List Node}
    (hvalue : value.toList = List.replicate n '#' ++ w)
    (h : linkLiterals Literal.find (.text value :: ms) = .text text :: ns) :
    ∃ w', text.toList = List.replicate n '#' ++ w' ∧ (w' = [] ∨ w'.head? = w.head?) := by
  have hhead := head?_linkLiterals value ms
  rw [h] at hhead
  obtain ⟨ns', hcut⟩ := List.head?_eq_some_iff.mp hhead.symm
  rcases cutText_first hcut with hall | ⟨f, hf, htarget, hpos, htext⟩
  · exact ⟨w, hall.trans hvalue, .inr rfl⟩
  · rw [hvalue] at hf htarget htext
    have hbehind : n ≤ f.start := by
      rcases start_of_literalTarget? hf htarget with hzero | hlt | ⟨hstart, -⟩ <;> omega
    refine ⟨w.take (f.start - n), ?_, ?_⟩
    · rw [htext, List.take_append, List.length_replicate, List.take_of_length_le (by simp; omega)]
    · rcases Nat.eq_or_lt_of_le hbehind with rfl | hlt
      · left
        rw [Nat.sub_self, List.take_zero]
      · right
        rw [List.head?_take, if_neg (by omega)]

lemma prependText_eq (value : String) (ns : List Node) :
    ∃ x ms, prependText value ns = .text (value ++ x) :: ms ∧
      (x = "" ∨ ns.head? = some (.text x)) := by
  cases ns with
  | nil => exact ⟨"", [], by rw [String.append_empty]; rfl, .inl rfl⟩
  | cons n ns =>
    cases n with
    | text rest => exact ⟨rest, ns, rfl, .inr rfl⟩
    | _ => exact ⟨"", _, by rw [String.append_empty]; rfl, .inl rfl⟩

/-- A piece of running text is one node, and if that is a text it begins like the piece, or it is a
line break. -/
lemma exists_node_of_piece (settings : Settings) {c : Char} {q : Inline}
    (hq : q.BeginsWith (some c)) :
    ∃ m, siblingNodes settings (spansOfPiece q) = [m] ∧
      ∀ x, m = .text x → x.toList.head? = some c ∨ x.toList.head? = some '\n' := by
  have hcontainer (tag : Tag) (inside : List Span) : ∃ m,
      siblingNodes settings [.container tag 0 inside] = [m] ∧
        ∀ x, m = .text x → x.toList.head? = some c ∨ x.toList.head? = some '\n' := by
    refine ⟨_, rfl, fun x hx => ?_⟩
    have hnot := isText_nodeOfContainer settings tag 0 (joinTexts (siblingNodes settings inside))
      (literalText inside) (allBoxes inside)
    rw [hx] at hnot
    cases hnot
  cases q with
  | text value =>
    refine ⟨_, rfl, ?_⟩
    rintro x ⟨⟩
    rw [String.toList_ofList]
    exact .inl hq
  | delimiters mark count canOpen canClose =>
    obtain ⟨hcount, hmark⟩ := hq
    refine ⟨_, rfl, ?_⟩
    rintro x ⟨⟩
    rw [String.toList_ofList, List.head?_replicate, if_neg hcount.ne', hmark]
    exact .inl rfl
  | softBreak =>
    refine ⟨_, rfl, ?_⟩
    rintro x ⟨⟩
    exact .inr rfl
  | math display value => cases display <;> exact ⟨_, rfl, fun _ hm => Node.noConfusion hm⟩
  | span kind cs => exact hcontainer _ _
  | link form url title cs => exact hcontainer _ _
  | image form url title cs => exact hcontainer _ _
  | _ => exact ⟨_, rfl, fun _ hm => Node.noConfusion hm⟩

/-- The text that running text begins with, if it begins with one. -/
lemma head?_of_forestNodes {settings : Settings} {c : Char} {q : Inline} {qs : List Inline}
    {x : String} (hq : q.BeginsWith (some c))
    (h : (forestNodes settings (spansOf (q :: qs))).head? = some (.text x)) :
    x.toList.head? = some c ∨ x.toList.head? = some '\n' := by
  obtain ⟨m, hm, hbegins⟩ := exists_node_of_piece settings hq
  rw [forestNodes, spansOf, siblingNodes_append, hm, List.singleton_append] at h
  cases htext : m.isText with
  | true =>
    obtain ⟨value, rfl⟩ := Node.exists_eq_text htext
    obtain ⟨y, ms, hjoined, -⟩ :=
      prependText_eq value (joinTexts (siblingNodes settings (spansOf qs)))
    rw [joinTexts_text, hjoined] at h
    cases h
    rw [String.toList_append]
    refine (hbegins value rfl).imp ?_ ?_ <;>
    · intro hhead
      rw [List.head?_append, hhead, Option.some_or]
  | false =>
    rw [joinTexts_cons htext] at h
    cases h
    cases htext

end Openings

/-- A blank, or the end of the line. -/
def EndsMarker (c : Char) : Prop :=
  c = ' ' ∨ c = '\t' ∨ c = '\n' ∨ c = '\r'

/-- The text begins with an escaped mark, or with a reference that stands for a text that begins
with a mark or a blank. -/
def YieldsMarker (cs : List Char) : Prop :=
  (∃ more, cs = '\\' :: '#' :: more) ∨
    ∃ c value stop, (c = '#' ∨ c = ' ' ∨ c = '\t') ∧ cs.head? = some '&' ∧
      Markdown.charReference? cs.toArray 0 = some (c :: value, stop)

section Sources

variable {settings settings' : Settings} {task : Option Bool} {source : List Char}
  {start n k : Nat} {rest w : List Char} {qs : List Inline} {inside : List Span}

/-- The spans of a text with the box of a task in front. -/
lemma inside_eq {value : List Char}
    (h : eventsOf inside =
      taskEvents task ++ .text (String.ofList value) :: Inline.eventsOf qs) :
    inside = (task.map fun checked => Span.leaf (.taskMarker checked) rfl).toList ++
      spansOf (.text value :: qs) := by
  apply eventsOf_injective
  rw [h, eventsOf_append, eventsOf_spansOf]
  cases task <;> rfl

lemma siblingNodes_inside {value : List Char}
    (h : eventsOf inside =
      taskEvents task ++ .text (String.ofList value) :: Inline.eventsOf qs) (settings : Settings) :
    siblingNodes settings inside = siblingNodes settings (spansOf (.text value :: qs)) := by
  rw [inside_eq h, siblingNodes_append]
  cases task <;> rfl

/-- The nodes in a paragraph do not depend on whether it may become a heading. -/
lemma paragraphChildren_congr {value : List Char}
    (h : eventsOf inside =
      taskEvents task ++ .text (String.ofList value) :: Inline.eventsOf qs)
    (hlinks : settings.linkLiterals = settings'.linkLiterals) :
    paragraphChildren settings inside = paragraphChildren settings' inside := by
  rw [paragraphChildren, paragraphChildren, forestNodes, forestNodes, hlinks,
    siblingNodes_inside h, siblingNodes_inside h, siblingNodes_spansOf_congr hlinks]

/-- The text at the front of a paragraph with marks goes on as the source shows it, or not at
all. -/
lemma forestNodes_marks (settings : Settings) (hgoes : GoesOn source.toArray k w qs)
    (hinside : eventsOf inside = taskEvents task ++
      .text (String.ofList (List.replicate n '#' ++ w)) :: Inline.eventsOf qs) :
    ∃ v ns, forestNodes settings inside =
        .text (String.ofList (List.replicate n '#' ++ v)) :: ns ∧
      (v = [] ∨ ∃ c, Shows source.toArray k c ∧ v.head? = some c) := by
  obtain ⟨x, ns, hnodes, hx⟩ := prependText_eq (String.ofList (List.replicate n '#' ++ w))
    (forestNodes settings (spansOf qs))
  refine ⟨w ++ x.toList, ns, ?_, ?_⟩
  · rw [forestNodes, siblingNodes_inside hinside, ← forestNodes, forestNodes_text_cons, hnodes,
      ← List.append_assoc]
    congr 2
    rw [← String.toList_inj]
    simp
  · cases hgoes with
    | within hw hk =>
      rw [Array.getElem?_eq_getElem hk] at hw
      refine .inr ⟨_, .here (Array.getElem?_eq_getElem hk), ?_⟩
      rw [List.head?_append, hw, Option.some_or]
    | behind hw hqs hq hc =>
      subst hw hqs
      rcases hx with rfl | hx
      · exact .inl rfl
      · right
        rw [List.nil_append]
        rcases head?_of_forestNodes hq hx with hhead | hhead
        · exact ⟨_, hc, hhead⟩
        · exact ⟨_, .lineBreak, hhead⟩
    | alone hw hqs =>
      subst hw hqs
      rcases hx with rfl | hx
      · exact .inl rfl
      · cases hx

/-- A character that makes the marks in front of it a marker: it stands there, or an escape or a
reference yields it. -/
lemma head?_or_yieldsMarker {c : Char} (hdrop : source.drop start = List.replicate n '#' ++ rest)
    (hshows : Shows source.toArray (start + n) c) (hc : c = '#' ∨ c = ' ' ∨ c = '\t') :
    rest.head? = some c ∨ YieldsMarker rest := by
  have hget (j : Nat) : source.toArray[start + n + j]? = rest[j]? := by
    rw [List.getElem?_toArray, Nat.add_assoc, ← List.getElem?_drop, hdrop,
      List.getElem?_append_right (by simp), List.length_replicate, Nat.add_sub_cancel_left]
  have hhead : source.toArray[start + n]? = rest.head? := (hget 0).trans List.head?_eq_getElem?.symm
  cases hshows with
  | here hhere => exact .inl (hhead ▸ hhere)
  | escaped hescape hnext =>
    obtain ⟨hslash, hpunctuation⟩ := Bool.and_eq_true_iff.mp hescape
    rw [hnext, Option.any_some] at hpunctuation
    obtain rfl : c = '#' := by
      rcases hc with rfl | rfl | rfl
      · rfl
      · cases hpunctuation
      · cases hpunctuation
    have hfirst : rest.head? = some '\\' := by
      rw [← hhead]
      exact beq_iff_eq.mp hslash
    obtain ⟨more, rfl⟩ := List.head?_eq_some_iff.mp hfirst
    have hsecond : more.head? = some '#' := by
      rw [List.head?_eq_getElem?, ← hnext, hget 1]
      rfl
    obtain ⟨more, rfl⟩ := List.head?_eq_some_iff.mp hsecond
    exact .inr (.inl ⟨more, rfl⟩)
  | @reference c value stop hand hreference =>
    have hsize := (Array.getElem?_eq_some_iff.mp hand).1
    rw [List.size_toArray] at hsize
    have hfront : (source.take (start + n)).toArray.size = start + n := by
      rw [List.size_toArray, List.length_take, Nat.min_eq_left (Nat.le_of_lt hsize)]
    have hsplit : source.toArray = (source.take (start + n)).toArray ++ rest.toArray := by
      have hrest : source.drop (start + n) = rest := by
        rw [← List.drop_drop, hdrop, List.drop_left' (by simp)]
      rw [List.append_toArray, ← hrest, List.take_append_drop]
    have hbehind := @Markdown.charReference?_behind (source.take (start + n)).toArray rest.toArray 0
    rw [hfront, Nat.add_zero, ← hsplit, hreference] at hbehind
    obtain ⟨⟨value', stop'⟩, hrest, heq⟩ := Option.map_eq_some_iff.mp hbehind.symm
    cases heq
    exact .inr (.inr ⟨c, value, stop', hc, hhead ▸ hand, hrest⟩)
  | lineBreak => rcases hc with h | h | h <;> cases h

/-- The first text of a paragraph that becomes a heading. -/
lemma exists_marks_of_paragraphChildren {value : String} {more : List Node}
    (hgoes : GoesOn source.toArray k w qs)
    (hinside : eventsOf inside = taskEvents task ++
      .text (String.ofList (List.replicate n '#' ++ w)) :: Inline.eventsOf qs)
    (h : paragraphChildren settings inside = .text value :: more) :
    ∃ v, value.toList = List.replicate n '#' ++ v ∧
      (v = [] ∨ ∃ c, Shows source.toArray k c ∧ v.head? = some c) := by
  obtain ⟨v, ns, hforest, hv⟩ := forestNodes_marks settings hgoes hinside
  have hvalue : (String.ofList (List.replicate n '#' ++ v)).toList = List.replicate n '#' ++ v :=
    String.toList_ofList
  rw [paragraphChildren, hforest] at h
  split at h
  · obtain ⟨v', hv', hsame⟩ := linkLiterals_first hvalue h
    refine ⟨v', hv', ?_⟩
    rcases hsame with rfl | hsame
    · exact .inl rfl
    · rcases hv with rfl | hv
      · exact .inl (List.head?_eq_none_iff.mp hsame)
      · exact .inr (hsame ▸ hv)
  · cases h
    exact ⟨v, hvalue, hv⟩

/-- The level of a heading whose text opens with marks, and what follows them. -/
lemma level_of_marks {offset : Nat} {level : UInt8} {cs : List Node}
    (hgoes : GoesOn source.toArray (start + n) w qs)
    (hinside : eventsOf inside = taskEvents task ++
      .text (String.ofList (List.replicate n '#' ++ w)) :: Inline.eventsOf qs)
    (hdrop : source.drop start = List.replicate n '#' ++ rest) (hmark : rest.head? ≠ some '#')
    (h : paragraphNode settings offset (paragraphChildren settings inside) = .heading level cs) :
    level = UInt8.ofNat (min n 255) ∧ ((∀ c ∈ rest.head?, EndsMarker c) ∨
        ∃ ns, paragraphChildren settings inside =
          .text (String.ofList (List.replicate n '#')) :: ns) ∨
      min n 255 ≤ level.toNat ∧ YieldsMarker rest := by
  obtain ⟨-, value, more, title, hchildren, hmarker⟩ := exists_marker_of_paragraphNode h
  obtain ⟨v, hvalue, hv⟩ := exists_marks_of_paragraphChildren hgoes hinside hchildren
  rw [hvalue] at hmarker
  obtain ⟨hle, hlevel⟩ := level_of_deepMarker? hmarker
  rcases hv with rfl | ⟨c, hshows, hc⟩
  · left
    refine ⟨(hlevel nofun).1, .inr ⟨more, ?_⟩⟩
    rw [hchildren, ← List.append_nil (List.replicate n '#'), ← hvalue, String.ofList_toList]
  · by_cases hsharp : c = '#'
    · refine .inr ⟨hle, (head?_or_yieldsMarker hdrop hshows (.inl hsharp)).resolve_left ?_⟩
      rwa [hsharp]
    · obtain ⟨hlevel, hblank⟩ := hlevel (by rwa [hc, ne_eq, Option.some.injEq])
      have hblank := hblank c hc
      rcases head?_or_yieldsMarker hdrop hshows (.inr hblank) with hrest | hyields
      · refine .inl ⟨hlevel, .inl fun d hd => ?_⟩
        rw [hrest] at hd
        cases hd
        exact hblank.imp id .inl
      · exact .inr ⟨hle, hyields⟩

end Sources

/-- The events `inner` are those of the content of a block of a source, which starts at `offset` and
opens with marks as its line does. -/
def ReadFromBlock (source : List Char) (offset : Nat) (inner : List Event) : Prop :=
  ∃ (r : Markdown.Reading) (start : Nat) (task : Option Bool) (content : Markdown.Content),
    r.source = source.toArray ∧ offset = Markdown.Source.byteOffset source.toArray start ∧
    inner = taskEvents task ++ r.content content ∧
    ∀ n, Markdown.MarkedLine source.toArray start n →
      Markdown.OpensMarked source.toArray start n content.tokens.reverse content.stop

/-- All paragraphs of a source are read from its blocks. -/
lemma readFromBlock_of_events {dialect : Markdown.Dialect} {source : List Char}
    {pre inner post : List Event} {offset : Nat}
    (hes : Markdown.events dialect source =
      pre ++ .start .paragraph offset :: (inner ++ .stop :: post))
    (hinner : Balanced inner) : ReadFromBlock source offset inner := by
  have hparsed := Markdown.parsed_events dialect source (Q := ReadFromBlock source)
    (Markdown.opensMarked_readBlocks dialect source.toArray)
    (fun r start task content hsource hP => ⟨r, start, task, content, hsource, by rw [hsource],
      rfl, hP⟩)
  rw [hes] at hparsed
  exact hparsed.paragraphs.inside hinner

/-- A deep heading among the paragraphs of a source. There are as many marks as the level says, 255
or more for the highest, and a blank, the end of the line or the end of the source follows, or the
text that the paragraph begins with ends right behind the marks. Otherwise an escape or a reference
stands there that yields one more mark or a blank. -/
theorem marker_of_deepHeading (options : ParseOptions) (source : String)
    {pre inner post : List Event} {offset : Nat} {level : UInt8} {cs : List Node}
    (hes : Markdown.events options.dialect source.toList =
      pre ++ .start .paragraph offset :: (inner ++ .stop :: post))
    (hinner : Balanced inner)
    (hnode : closedNode? (options.settings source) (pre ++ .start .paragraph offset :: inner) =
      some (.heading level cs)) :
    ∃ n rest, Text.dropBytes? offset source.toList = some (List.replicate n '#' ++ rest) ∧
      7 ≤ n ∧ rest.head? ≠ some '#' ∧
      (level = UInt8.ofNat (min n 255) ∧ ((∀ c ∈ rest.head?, EndsMarker c) ∨
          ∃ ns, closedNode? ({ options with deepHeadings := false }.settings source)
            (pre ++ .start .paragraph offset :: inner) =
              some (.paragraph (.text (String.ofList (List.replicate n '#')) :: ns))) ∨
        min n 255 ≤ level.toNat ∧ YieldsMarker rest) := by
  obtain ⟨r, start, task, content, hsource, rfl, rfl, hmarked⟩ :=
    readFromBlock_of_events hes hinner
  obtain ⟨inside, hinside⟩ := balanced_iff_exists_spans.mp hinner
  have hbalanced := Markdown.balanced_events options.dialect source.toList
  rw [hes, ← hinside] at hbalanced
  rw [← hinside, closedNode?_paragraph hbalanced] at hnode
  have hheading := Option.some.inj hnode
  obtain ⟨n, rest, hdrop, hmark, hcount⟩ := Markdown.drop_eq_marks source.toList start
  have hoffset := Markdown.dropBytes_byteOffset source.toList start
  have hdeep := (exists_marker_of_paragraphNode hheading).1
  rw [show (options.settings source).source = source.toList from rfl, hoffset, Option.getD_some,
    hcount] at hdeep
  refine ⟨n, rest, by rw [hoffset, hdrop], hdeep, hmark, ?_⟩
  have hline : Markdown.MarkedLine source.toList.toArray start n :=
    ⟨Nat.lt_of_lt_of_le (by decide) hdeep, (Markdown.getElem?_of_drop hdrop).1⟩
  obtain ⟨w, qs, hcontent, hgoes⟩ :=
    Markdown.content_marks r content hsource hdrop (hmarked n hline)
  have hevents := hinside.trans (congrArg (taskEvents task ++ ·) hcontent)
  have hplain : closedNode? ({ options with deepHeadings := false }.settings source)
      (pre ++ .start .paragraph (Markdown.Source.byteOffset source.toList.toArray start) ::
        (taskEvents task ++ r.content content)) =
      some (.paragraph (paragraphChildren (options.settings source) inside)) := by
    have hsame : paragraphChildren ({ options with deepHeadings := false }.settings source) inside =
        paragraphChildren (options.settings source) inside := paragraphChildren_congr hevents rfl
    rw [← hinside, closedNode?_paragraph hbalanced, hsame]
    rfl
  rw [hplain]
  refine (level_of_marks hgoes hevents hdrop hmark hheading).imp (And.imp id (Or.imp id ?_)) id
  rintro ⟨ns, hns⟩
  exact ⟨ns, by rw [hns]⟩

/-- Seven marks and a blank. -/
theorem marker_of_deepHeading_seven :
    Markdown.events ParseOptions.default.dialect "####### a".toList =
        [] ++ .start .paragraph 0 :: ([.text "####### a"] ++ .stop :: []) ∧
      closedNode? (ParseOptions.default.settings "####### a")
        ([] ++ .start .paragraph 0 :: [.text "####### a"]) = some (.heading 7 [.text "a"]) ∧
      ∃ n rest, Text.dropBytes? 0 "####### a".toList = some (List.replicate n '#' ++ rest) ∧
        7 ≤ n ∧ rest.head? ≠ some '#' ∧
        ((7 : UInt8) = UInt8.ofNat (min n 255) ∧ ((∀ c ∈ rest.head?, EndsMarker c) ∨
            ∃ ns, closedNode?
              ({ ParseOptions.default with deepHeadings := false }.settings "####### a")
              ([] ++ .start .paragraph 0 :: [.text "####### a"]) =
                some (.paragraph (.text (String.ofList (List.replicate n '#')) :: ns))) ∨
          min n 255 ≤ (7 : UInt8).toNat ∧ YieldsMarker rest) := by
  have hes : Markdown.events ParseOptions.default.dialect "####### a".toList =
      [] ++ .start .paragraph 0 :: ([.text "####### a"] ++ .stop :: []) := by decide +kernel
  have hnode : closedNode? (ParseOptions.default.settings "####### a")
      ([] ++ .start .paragraph 0 :: [.text "####### a"]) = some (.heading 7 [.text "a"]) := rfl
  have hinner : Balanced [.text "####### a"] := balanced_eventsOf [.leaf (.text "####### a") rfl]
  exact ⟨hes, hnode, marker_of_deepHeading .default "####### a" hes hinner hnode⟩

/-- Strong text right behind the marks ends the text that they are in, and makes them a marker. -/
example : Markdown.events ParseOptions.default.dialect "#######**a**".toList =
      .start .paragraph 0 ::
        ([.text "#######", .start .strong 0, .text "a", .stop] ++ [.stop]) ∧
    closedNode? (ParseOptions.default.settings "#######**a**")
      [.start .paragraph 0, .text "#######", .start .strong 0, .text "a", .stop] =
        some (.heading 7 [.strong [.text "a"]]) :=
  ⟨by decide +kernel, rfl⟩

end Tree

end Folio
