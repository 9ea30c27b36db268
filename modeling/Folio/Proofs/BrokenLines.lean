import Folio.Proofs.FoundLiterals
import Folio.Proofs.TreeRecursion

/-!
# Paragraphs with line breaks

A paragraph becomes a heading only if the nodes in it are on one line. The breaks that are seen are
those directly in the paragraph, in a text before or behind a literal as well; a break further down,
in emphasis or in a link, does not count.
-/

namespace Folio

/-- A line ends here, in the middle of a paragraph. -/
def Event.breaksLine : Event → Bool
  | softBreak | hardBreak => true
  | text value => value.toList.contains '\n'
  | _ => false

namespace Tree

open Literal (Found AllSolid allSolid_of_mem_find)

/-- What the innermost open container becomes if it is closed behind these events. -/
def closedNode? (settings : Settings) (es : List Event) : Option Node :=
  match Builder.empty.pushAll settings es with
  | .ok ⟨f :: _, _⟩ => some (f.close settings)
  | _ => none

/-- A line break stands in no container among these spans. -/
def DirectBreak (inside : List Span) : Prop :=
  ∃ e h, Span.leaf e h ∈ inside ∧ e.breaksLine = true

/-- The nodes in a paragraph, with the literals in its texts linked. -/
def paragraphChildren (settings : Settings) (inside : List Span) : List Node :=
  if settings.linkLiterals then linkLiterals Literal.find (forestNodes settings inside)
  else forestNodes settings inside

/-- The nodes begin with a text that begins with the marker of a deep heading. -/
def opensWithMarker : List Node → Bool
  | .text value :: _ => (deepMarker? value.toList).isSome
  | _ => false

section Closing

variable {settings : Settings}

/-- A container of a balanced stream becomes the node of its content. -/
theorem closedNode?_container {tag : Tag} {offset : Nat} {inside : List Span}
    {pre post : List Event}
    (h : Balanced (pre ++ .start tag offset :: (eventsOf inside ++ .stop :: post))) :
    closedNode? settings (pre ++ .start tag offset :: eventsOf inside) =
      some (nodeOfContainer settings tag offset (forestNodes settings inside)
        (literalText inside) (allBoxes inside)) := by
  obtain ⟨top, hall, -⟩ := Reading.exists_pushAll_of_balancedFrom (r := .empty)
    (balanced_iff_balancedFrom_zero.mp h)
  rw [Reading.pushAll_append, Option.bind_eq_bind, Option.bind_eq_some_iff] at hall
  obtain ⟨r, hpre, -⟩ := hall
  have hread : Reading.empty.pushAll (pre ++ .start tag offset :: eventsOf inside) =
      some ⟨⟨tag, offset, inside⟩ :: r.opened, r.top⟩ := by
    rw [Reading.pushAll_append, hpre]
    exact Reading.pushAll_eventsOf ⟨⟨tag, offset, []⟩ :: r.opened, r.top⟩ inside
  obtain ⟨⟨frames, done⟩, hb, hframes, -⟩ := (holds_empty settings).pushAll hread
  cases frames with
  | nil => cases hframes
  | cons f fs =>
    rw [closedNode?, hb]
    exact congrArg some (close_eq_nodeOfContainer hframes.1)

/-- A paragraph of a balanced stream, closed. -/
theorem closedNode?_paragraph {offset : Nat} {inside : List Span} {pre post : List Event}
    (h : Balanced (pre ++ .start .paragraph offset :: (eventsOf inside ++ .stop :: post))) :
    closedNode? settings (pre ++ .start .paragraph offset :: eventsOf inside) =
      some (paragraphNode settings offset (paragraphChildren settings inside)) := by
  rw [closedNode?_container h]
  simp only [nodeOfContainer, paragraphChildren, isLinkTag, Bool.not_false, Bool.and_true]

end Closing

section Lines

variable {ns : List Node}

/-- A node that ends a line in the middle of its siblings. -/
def breaksNode : Node → Bool
  | .text value => value.toList.contains '\n'
  | .break => true
  | _ => false

lemma isSingleLine_eq (ns : List Node) : isSingleLine ns = !ns.any breaksNode := by
  rw [isSingleLine, List.not_any_eq_all_not]
  refine List.all_congr rfl fun n => ?_
  cases n <;> rfl

lemma any_breaksNode_prependText (value : String) (ns : List Node) :
    (prependText value ns).any breaksNode =
      (value.toList.contains '\n' || ns.any breaksNode) := by
  cases ns with
  | nil => rfl
  | cons n ns =>
    cases n with
    | text rest =>
      simp [prependText, breaksNode, String.toList_append, List.contains_eq_mem, Bool.or_assoc]
    | _ => rfl

lemma any_breaksNode_joinTexts (ns : List Node) :
    (joinTexts ns).any breaksNode = ns.any breaksNode := by
  induction ns with
  | nil => rfl
  | cons n ns ih =>
    cases htext : n.isText with
    | true =>
      obtain ⟨value, rfl⟩ := Node.exists_eq_text htext
      rw [joinTexts_text, any_breaksNode_prependText, ih]
      rfl
    | false => rw [joinTexts_cons htext, List.any_cons, List.any_cons, ih]

lemma mem_drop_iff {c : Char} {cs : List Char} {i : Nat} :
    c ∈ cs.drop i ↔ ∃ j, i ≤ j ∧ cs[j]? = some c := by
  simp only [List.mem_iff_getElem?, List.getElem?_drop]
  constructor
  · rintro ⟨j, hj⟩
    exact ⟨i + j, Nat.le_add_right i j, hj⟩
  · rintro ⟨j, hij, hj⟩
    exact ⟨j - i, by rwa [Nat.add_sub_cancel' hij]⟩

lemma mem_slice_iff {c : Char} {cs : List Char} {i k : Nat} :
    c ∈ slice cs i k ↔ ∃ j, i ≤ j ∧ j < k ∧ cs[j]? = some c := by
  simp only [slice, List.mem_iff_getElem?, List.getElem?_take, List.getElem?_drop]
  constructor
  · rintro ⟨j, hj⟩
    split at hj
    · exact ⟨i + j, Nat.le_add_right i j, by omega, hj⟩
    · cases hj
  · rintro ⟨j, hij, hjk, hj⟩
    refine ⟨j - i, ?_⟩
    rwa [if_pos (by omega), Nat.add_sub_cancel' hij]

lemma any_breaksNode_textPiece (cs : List Char) :
    (textPiece cs).any breaksNode = cs.contains '\n' := by
  unfold textPiece
  split
  · next hempty => rw [List.isEmpty_iff.mp hempty]; rfl
  · simp [breaksNode]

lemma contains_of_breaksNode_cutText {value : List Char} {last : Nat} {fs : List Found}
    (h : (cutText value last fs).any breaksNode = true) : '\n' ∈ value := by
  have hpiece {cs : List Char} (hcs : cs ⊆ value)
      (h : (textPiece cs).any breaksNode = true) : '\n' ∈ value := by
    rw [any_breaksNode_textPiece] at h
    exact hcs (List.contains_iff_mem.mp h)
  induction fs generalizing last with
  | nil =>
    unfold cutText at h
    split at h
    · simpa [breaksNode] using h
    · exact hpiece (List.drop_subset _ _) h
  | cons f fs ih =>
    simp only [cutText] at h
    split at h
    · exact ih h
    · rw [List.any_append, Bool.or_eq_true] at h
      rcases h with hbefore | hrest
      · exact hpiece (fun c hc => List.mem_of_mem_drop (List.mem_of_mem_take hc)) hbefore
      · exact ih hrest

/-- A line end that is in no literal stays in the text around the links. -/
lemma breaksNode_cutText_of_mem {value : List Char} {last : Nat} {fs : List Found}
    (hfs : ∀ f ∈ fs, AllSolid (slice value f.start f.stop)) (h : '\n' ∈ value.drop last) :
    (cutText value last fs).any breaksNode = true := by
  induction fs generalizing last with
  | nil =>
    unfold cutText
    split
    · simpa [breaksNode] using List.mem_of_mem_drop h
    · rw [any_breaksNode_textPiece]
      exact List.contains_iff_mem.mpr h
  | cons f fs ih =>
    have hrest : ∀ g ∈ fs, AllSolid (slice value g.start g.stop) :=
      fun g hg => hfs g (List.mem_cons_of_mem f hg)
    simp only [cutText]
    split
    · exact ih hrest h
    · rw [List.any_append, any_breaksNode_textPiece, Bool.or_eq_true, List.contains_iff_mem]
      obtain ⟨j, hlast, hj⟩ := mem_drop_iff.mp h
      rcases Nat.lt_or_ge j f.start with hbefore | hbehind
      · exact .inl (mem_slice_iff.mpr ⟨j, hlast, hbefore, hj⟩)
      rcases Nat.lt_or_ge j f.stop with hinside | houtside
      · have hsolid := hfs f List.mem_cons_self _ (mem_slice_iff.mpr ⟨j, hbehind, hinside, hj⟩)
        exact absurd hsolid (by decide)
      · exact .inr (ih hrest (mem_drop_iff.mpr ⟨j, houtside, hj⟩))

/-- Linking the literals in texts leaves the line breaks where they are. -/
lemma any_breaksNode_linkLiterals (ns : List Node) :
    (linkLiterals Literal.find ns).any breaksNode = ns.any breaksNode := by
  induction ns with
  | nil => rfl
  | cons n ns ih =>
    cases n with
    | text value =>
      have hcut : (cutText value.toList 0 (Literal.find value.toList)).any breaksNode =
          value.toList.contains '\n' := by
        rw [Bool.eq_iff_iff, List.contains_iff_mem]
        exact ⟨contains_of_breaksNode_cutText,
          fun h => breaksNode_cutText_of_mem (fun f hf => allSolid_of_mem_find hf) h⟩
      rw [linkLiterals, List.any_append, hcut, ih]
      rfl
    | _ => exact congrArg _ ih

lemma not_breaksNode_nodeOfContainer (settings : Settings) (tag : Tag) (offset : Nat)
    (ns : List Node) (literal : String) (ticks : List Bool) :
    breaksNode (nodeOfContainer settings tag offset ns literal ticks) = false := by
  cases tag with
  | paragraph =>
    simp only [nodeOfContainer, paragraphNode]
    split
    · unfold liftHeading
      split
      · dsimp only
        split <;> rfl
      · rfl
    · rfl
  | _ => rfl

lemma any_breaksNode_leafNodes (e : Event) : (leafNodes e).any breaksNode = e.breaksLine := by
  cases e <;> first | rfl | exact Bool.or_false _

lemma any_breaksNode_siblingNodes (settings : Settings) (ss : List Span) :
    (siblingNodes settings ss).any breaksNode = true ↔ DirectBreak ss := by
  have hcons (s : Span) (ss : List Span) :
      DirectBreak (s :: ss) ↔ (∃ e h, s = .leaf e h ∧ e.breaksLine = true) ∨ DirectBreak ss := by
    simp only [DirectBreak, List.mem_cons, or_and_right, exists_or, eq_comm (b := s)]
  induction ss with
  | nil => simp [siblingNodes, DirectBreak]
  | cons s ss ih =>
    rw [siblingNodes, List.any_append, Bool.or_eq_true, hcons]
    refine or_congr ?_ ih
    cases s with
    | leaf e h =>
      rw [spanNodes, any_breaksNode_leafNodes]
      constructor
      · exact fun he => ⟨e, h, rfl, he⟩
      · rintro ⟨e', h', hs, he⟩
        cases hs
        exact he
    | container tag offset inside =>
      rw [spanNodes, List.any_cons, not_breaksNode_nodeOfContainer]
      simp

/-- The nodes in a paragraph are on one line exactly if no break stands directly in it. -/
lemma isSingleLine_paragraphChildren (settings : Settings) (inside : List Span) :
    isSingleLine (paragraphChildren settings inside) = true ↔ ¬DirectBreak inside := by
  have hforest : (forestNodes settings inside).any breaksNode = true ↔ DirectBreak inside := by
    rw [forestNodes, any_breaksNode_joinTexts, any_breaksNode_siblingNodes]
  rw [isSingleLine_eq, Bool.not_eq_true', ← Bool.not_eq_true, not_iff_not, paragraphChildren,
    ← hforest]
  split
  · rw [any_breaksNode_linkLiterals]
  · rfl

end Lines

section Lifting

variable {ns : List Node}

lemma liftHeading_cases (ns : List Node) :
    (isSingleLine ns = true ∧ opensWithMarker ns = true ∧
      ∃ level cs, liftHeading ns = .heading level cs) ∨
    (¬(isSingleLine ns = true ∧ opensWithMarker ns = true) ∧ liftHeading ns = .paragraph ns) := by
  unfold liftHeading
  split
  · next value rest =>
    cases hline : isSingleLine (.text value :: rest) with
    | false =>
      rw [if_neg Bool.false_ne_true]
      exact .inr ⟨fun h => Bool.false_ne_true h.1, rfl⟩
    | true =>
      rw [if_pos rfl]
      cases hmarker : deepMarker? value.toList with
      | none => exact .inr ⟨by simp [opensWithMarker, hmarker], rfl⟩
      | some found => exact .inl ⟨rfl, by simp [opensWithMarker, hmarker], _, _, rfl⟩
  · next hfirst =>
    refine .inr ⟨fun h => ?_, rfl⟩
    unfold opensWithMarker at h
    split at h
    · exact hfirst _ _ rfl
    · cases h.2

/-- Either all that a heading asks for is there, or the paragraph stays one. -/
lemma paragraphNode_cases (settings : Settings) (offset : Nat) (ns : List Node) :
    ((isSingleLine ns = true ∧ settings.deepHeadings = true ∧
        opensDeep ((Text.dropBytes? offset settings.source).getD []) = true ∧
        opensWithMarker ns = true) ∧
      ∃ level cs, paragraphNode settings offset ns = .heading level cs) ∨
    (¬(isSingleLine ns = true ∧ settings.deepHeadings = true ∧
        opensDeep ((Text.dropBytes? offset settings.source).getD []) = true ∧
        opensWithMarker ns = true) ∧ paragraphNode settings offset ns = .paragraph ns) := by
  unfold paragraphNode
  split
  · next hdeep =>
    rw [Bool.and_eq_true] at hdeep
    rcases liftHeading_cases ns with ⟨hline, hmarker, hlift⟩ | ⟨hnot, hlift⟩
    · exact .inl ⟨⟨hline, hdeep.1, hdeep.2, hmarker⟩, hlift⟩
    · exact .inr ⟨fun h => hnot ⟨h.1, h.2.2.2⟩, hlift⟩
  · next hdeep =>
    rw [Bool.and_eq_true] at hdeep
    exact .inr ⟨fun h => hdeep ⟨h.2.1, h.2.2.1⟩, rfl⟩

end Lifting

/-- A paragraph of a balanced stream stays one, with all that is in it, if a line break stands
directly in it. Breaks within other containers are not seen: without a direct one the paragraph is a
heading exactly if deep headings are asked for, its source opens like one, and so does its text. -/
theorem closedNode?_paragraph_iff (options : ParseOptions) (source : String)
    {pre inner post : List Event} {offset : Nat}
    (hes : Balanced (pre ++ .start .paragraph offset :: (inner ++ .stop :: post)))
    (hinner : Balanced inner) :
    ∃ inside n, eventsOf inside = inner ∧
      closedNode? (options.settings source) (pre ++ .start .paragraph offset :: inner) = some n ∧
      (n = .paragraph (paragraphChildren (options.settings source) inside) ∨
        ∃ level cs, n = .heading level cs) ∧
      ((∃ level cs, n = .heading level cs) ↔
        ¬DirectBreak inside ∧ options.deepHeadings = true ∧
          opensDeep ((Text.dropBytes? offset source.toList).getD []) = true ∧
          opensWithMarker (paragraphChildren (options.settings source) inside) = true) := by
  obtain ⟨inside, rfl⟩ := balanced_iff_exists_spans.mp hinner
  refine ⟨inside, _, rfl, closedNode?_paragraph hes, ?_⟩
  rw [← isSingleLine_paragraphChildren (options.settings source)]
  rcases paragraphNode_cases (options.settings source) offset
    (paragraphChildren (options.settings source) inside) with ⟨hall, hnode⟩ | ⟨hnot, hnode⟩
  · exact ⟨.inr hnode, fun _ => hall, fun _ => hnode⟩
  · refine ⟨.inl hnode, fun ⟨level, cs, h⟩ => ?_, fun h => absurd h hnot⟩
    rw [hnode] at h
    cases h

/-- The paragraph of `####### **a`, with `b**` on a second line. -/
def brokenStrong : List Span :=
  [.leaf (.text "####### ") rfl,
    .container .strong 0 [.leaf (.text "a") rfl, .leaf .softBreak rfl, .leaf (.text "b") rfl]]

/-- Strong text may run over two lines of a heading. -/
theorem closedNode?_brokenStrong :
    (∃ e ∈ eventsOf brokenStrong, e.breaksLine = true) ∧
      ∃ level cs, closedNode? (ParseOptions.default.settings "####### **a\nb**")
        ([] ++ .start .paragraph 0 :: eventsOf brokenStrong) = some (.heading level cs) := by
  have hes : Balanced ([] ++ .start .paragraph 0 :: (eventsOf brokenStrong ++ .stop :: [])) :=
    balanced_eventsOf [.container .paragraph 0 brokenStrong]
  obtain ⟨inside, n, hinside, hn, -, hiff⟩ := closedNode?_paragraph_iff .default
    "####### **a\nb**" hes (balanced_eventsOf brokenStrong)
  obtain rfl := eventsOf_injective hinside
  have hdirect : ¬DirectBreak brokenStrong := by
    rintro ⟨e, h, hmem, hbreaks⟩
    simp only [brokenStrong, List.mem_cons, List.not_mem_nil, or_false, reduceCtorEq] at hmem
    cases hmem
    exact absurd hbreaks (by decide)
  obtain ⟨level, cs, rfl⟩ := hiff.mpr ⟨hdirect, rfl, by decide, by decide +kernel⟩
  exact ⟨by decide, level, cs, hn⟩

end Tree

end Folio
