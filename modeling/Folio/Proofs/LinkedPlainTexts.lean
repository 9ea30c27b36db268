import Folio.Proofs.NestedLinks
import Folio.Proofs.TornTitles

/-!
# What linked trees say

The tree of some events with literals linked and the tree of the same events without links are
compared node by node. They say the same, except where a literal stands in the text that a deep
heading is read from: cut there, the text has a marker that it did not have before, or an end that
is not looked at any more.
-/

namespace Folio.Tree

/-- The same settings, with literals linked or not. -/
def Settings.linking (settings : Settings) (linked : Bool) : Settings :=
  { settings with linkLiterals := linked }

/-- A paragraph whose nodes are read as those of a deep heading, and whose first text is torn. -/
structure Disturbed (settings : Settings) (offset : Nat) (inside : List Span) : Prop where
  deep : settings.deepHeadings = true
  opens : opensDeep ((Text.dropBytes? offset settings.source).getD []) = true
  line : ¬DirectBreak inside
  first : ∃ value rest, forestNodes (settings.linking false) inside = .text value :: rest ∧
    Torn rest.isEmpty value.toList

/-- The plain text of such a container tells what is in it. -/
def tellsText (tag : Tag) : Bool :=
  match tag with
  | .image .. => true
  | tag => keepsNodes tag

mutual

/-- Somewhere in the span, where its plain text is told, a paragraph is disturbed. -/
def SpanDisturbed (settings : Settings) : Span → Prop
  | .leaf .. => False
  | .container tag offset inside =>
    tag = .paragraph ∧ Disturbed settings offset inside ∨
      tellsText tag = true ∧ SpansDisturbed settings inside

def SpansDisturbed (settings : Settings) : List Span → Prop
  | [] => False
  | s :: ss => SpanDisturbed settings s ∨ SpansDisturbed settings ss

end

/-- Nodes of one kind with the same plain text. -/
def SameText (n m : Node) : Prop :=
  n.kind = m.kind ∧ n.plainText = m.plainText

section Nodes

variable {ns ms : List Node}

/-- Neither node is a text, or they are the same text. -/
def Alike (n m : Node) : Prop :=
  n.isText = false ∧ m.isText = false ∨ n.isText = true ∧ n = m

lemma alike_refl (n : Node) : Alike n n := by
  cases h : n.isText with
  | true => exact .inr ⟨h, rfl⟩
  | false => exact .inl ⟨h, h⟩

/-- Texts next to each other are joined alike among siblings that are alike. -/
lemma forall₂_joinTexts {R : Node → Node → Prop} (halike : ∀ n m, R n m → Alike n m)
    (htexts : ∀ value, R (.text value) (.text value)) (h : List.Forall₂ R ns ms) :
    List.Forall₂ R (joinTexts ns) (joinTexts ms) := by
  have hprepend (value : String) {ns ms : List Node} (h : List.Forall₂ R ns ms) :
      List.Forall₂ R (prependText value ns) (prependText value ms) := by
    cases h with
    | nil => exact .cons (htexts _) .nil
    | @cons n m ns ms hnm h =>
      rcases halike n m hnm with ⟨hn, hm⟩ | ⟨htext, rfl⟩
      · rw [prependText_cons hn, prependText_cons hm]
        exact .cons (htexts _) (.cons hnm h)
      · obtain ⟨text, rfl⟩ := Node.exists_eq_text htext
        exact .cons (htexts _) h
  induction h with
  | nil => exact .nil
  | @cons n m ns ms hnm _ ih =>
    rcases halike n m hnm with ⟨hn, hm⟩ | ⟨htext, rfl⟩
    · rw [joinTexts_cons hn, joinTexts_cons hm]
      exact .cons hnm ih
    · obtain ⟨text, rfl⟩ := Node.exists_eq_text htext
      exact hprepend text ih

lemma forall₂_alike_siblingNodes (settings settings' : Settings) (ss : List Span) :
    List.Forall₂ Alike (siblingNodes settings ss) (siblingNodes settings' ss) := by
  induction ss with
  | nil => exact .nil
  | cons s ss ih =>
    refine List.rel_append ?_ ih
    cases s with
    | leaf e he => exact List.forall₂_same.mpr fun n _ => alike_refl n
    | container tag offset inside =>
      exact .cons (.inl ⟨isText_nodeOfContainer .., isText_nodeOfContainer ..⟩) .nil

lemma forall₂_alike_forestNodes (settings settings' : Settings) (ss : List Span) :
    List.Forall₂ Alike (forestNodes settings ss) (forestNodes settings' ss) :=
  forall₂_joinTexts (fun _ _ h => h) (fun value => alike_refl (.text value))
    (forall₂_alike_siblingNodes settings settings' ss)

end Nodes

section Paragraphs

variable {ns rest : List Node}

def kindOf (isHeading : Bool) : String :=
  if isHeading then "heading" else "paragraph"

lemma liftHeading_of_not_singleLine (h : isSingleLine ns = false) :
    liftHeading ns = .paragraph ns := by
  rcases liftHeading_cases ns with ⟨hline, -⟩ | ⟨-, hlift⟩
  · rw [h] at hline
    cases hline
  · exact hlift

lemma liftHeading_of_not_text {n : Node} (h : n.isText = false) (ns : List Node) :
    liftHeading (n :: ns) = .paragraph (n :: ns) := by
  cases n <;> first | rfl | cases h

/-- A paragraph on one line that opens with a text says what is read of the text, and then what is
behind it. -/
lemma liftHeading_text {value : String} (hline : isSingleLine (.text value :: rest) = true) :
    (liftHeading (.text value :: rest)).plainText.toList =
        readText rest.isEmpty value.toList ++ texts rest ∧
      (liftHeading (.text value :: rest)).kind = kindOf (deepMarker? value.toList).isSome := by
  unfold liftHeading readText
  simp only [hline, if_true]
  cases hmarker : deepMarker? value.toList with
  | none => exact ⟨texts_cons _ _, rfl⟩
  | some found =>
    obtain ⟨level, title⟩ := found
    refine ⟨?_, rfl⟩
    change texts (_ ++ rest) = _
    rw [texts_append]
    have htitle (cs : List Char) :
        texts (if cs.isEmpty then [] else [.text (String.ofList cs)]) = cs := texts_textPiece cs
    rw [htitle]

lemma isEmpty_linkLiterals (ns : List Node) :
    (linkLiterals Literal.find ns).isEmpty = ns.isEmpty := by
  cases ns with
  | nil => rfl
  | cons n ns =>
    cases n with
    | text value =>
      have hne := cutText_ne_nil value.toList (Literal.find value.toList)
      exact List.isEmpty_eq_false_iff.mpr (List.append_ne_nil_of_left_ne_nil hne _)
    | _ => rfl

/-- The same, when the literals are linked. -/
lemma liftHeading_linkLiterals {value : String}
    (hline : isSingleLine (linkLiterals Literal.find (.text value :: rest)) = true) :
    (liftHeading (linkLiterals Literal.find (.text value :: rest))).plainText.toList =
        readLinked rest.isEmpty value.toList ++ texts rest ∧
      (liftHeading (linkLiterals Literal.find (.text value :: rest))).kind =
        kindOf (deepMarker? (beforeLink value.toList)).isSome := by
  rw [linkLiterals] at hline ⊢
  unfold readLinked beforeLink
  cases hfirst : firstLinked? value.toList with
  | none =>
    rw [cutText_of_firstLinked?_eq_none hfirst, List.singleton_append,
      String.ofList_toList] at hline ⊢
    have hlift := liftHeading_text hline
    rw [isEmpty_linkLiterals, texts_linkLiterals] at hlift
    exact hlift
  | some f =>
    obtain ⟨url, more, hcut, hmore⟩ := cutText_of_firstLinked? hfirst
    rw [hcut] at hline ⊢
    dsimp only
    unfold textPiece at hline ⊢
    split at hline
    · next hempty =>
      rw [if_pos hempty, List.nil_append, List.cons_append, liftHeading_of_not_text rfl,
        List.isEmpty_iff.mp hempty]
      refine ⟨?_, rfl⟩
      change texts _ = _
      rw [← List.cons_append, texts_append, hmore, texts_linkLiterals]
      rfl
    · next hempty =>
      rw [if_neg hempty]
      rw [List.append_assoc, List.singleton_append] at hline ⊢
      have hlift := liftHeading_text hline
      rw [texts_append, hmore, texts_linkLiterals, String.toList_ofList,
        ← List.append_assoc] at hlift
      exact hlift

/-- A title or a first text of a paragraph on one line that is torn. -/
def OpensTorn (ns : List Node) : Prop :=
  isSingleLine ns = true ∧ ∃ value rest, ns = .text value :: rest ∧ Torn rest.isEmpty value.toList

variable {ms : List Node} {q : Prop}

lemma compares_paragraph (h : Compares q (texts ns) (texts ms)) (hnot : ¬OpensTorn ms) :
    Compares (OpensTorn ms ∨ q) (Node.paragraph (linkLiterals Literal.find ns)).plainText.toList
      (Node.paragraph ms).plainText.toList := by
  change Compares _ (texts (linkLiterals Literal.find ns)) (texts ms)
  rw [texts_linkLiterals]
  exact h.congr (or_iff_right hnot).symm

/-- The nodes of a paragraph, read as those of a deep heading. -/
lemma compares_liftHeading (halike : List.Forall₂ Alike ns ms)
    (hline : isSingleLine (linkLiterals Literal.find ns) = isSingleLine ms)
    (h : Compares q (texts ns) (texts ms)) :
    Compares (OpensTorn ms ∨ q) (liftHeading (linkLiterals Literal.find ns)).plainText.toList
        (liftHeading ms).plainText.toList ∧
      (¬OpensTorn ms →
        (liftHeading (linkLiterals Literal.find ns)).kind = (liftHeading ms).kind) := by
  cases hms : isSingleLine ms with
  | false =>
    have hnot : ¬OpensTorn ms := fun htorn => by
      rw [htorn.1] at hms
      cases hms
    rw [liftHeading_of_not_singleLine (hline.trans hms), liftHeading_of_not_singleLine hms]
    exact ⟨compares_paragraph h hnot, fun _ => rfl⟩
  | true =>
    cases halike with
    | nil => exact ⟨compares_paragraph h (by simp [OpensTorn]), fun _ => rfl⟩
    | @cons n m ns ms hnm hrest =>
      rcases hnm with ⟨hn, hm⟩ | ⟨htext, rfl⟩
      · have hcons : linkLiterals Literal.find (n :: ns) = n :: linkLiterals Literal.find ns := by
          cases n <;> first | rfl | cases hn
        have hnot : ¬OpensTorn (m :: ms) := by
          rintro ⟨-, value, rest, heq, -⟩
          cases heq
          cases hm
        have hparagraph := compares_paragraph h hnot
        rw [hcons] at hparagraph ⊢
        rw [liftHeading_of_not_text hn, liftHeading_of_not_text hm]
        exact ⟨hparagraph, fun _ => rfl⟩
      · obtain ⟨value, rfl⟩ := Node.exists_eq_text htext
        have hempty : ns.isEmpty = ms.isEmpty := by
          cases hrest <;> rfl
        obtain ⟨htexts, hkind⟩ := liftHeading_linkLiterals (hline.trans hms)
        obtain ⟨htexts', hkind'⟩ := liftHeading_text hms
        have htorn : OpensTorn (.text value :: ms) ↔ Torn ms.isEmpty value.toList := by
          refine ⟨?_, fun htorn => ⟨hms, value, ms, rfl, htorn⟩⟩
          rintro ⟨-, value', rest, heq, htorn⟩
          cases heq
          exact htorn
        rw [texts_cons, texts_cons] at h
        rw [htexts, htexts', hkind, hkind', htorn, hempty]
        rcases agreesUnlessTorn ms.isEmpty value.toList with ⟨hnot, heq, hsome⟩ | ⟨htorn, hweighs⟩
        · refine ⟨Compares.append ⟨fun _ => heq, fun htorn => absurd htorn hnot⟩
            h.of_append_left, fun _ => congrArg kindOf hsome⟩
        · refine ⟨Compares.append ⟨fun hnot => absurd htorn hnot, fun _ => hweighs⟩
            h.of_append_left, fun hnot => absurd htorn hnot⟩

variable {settings : Settings} {offset : Nat} {inside : List Span}

lemma disturbed_iff : Disturbed settings offset inside ↔
    (settings.deepHeadings &&
        opensDeep ((Text.dropBytes? offset settings.source).getD [])) = true ∧
      OpensTorn (forestNodes (settings.linking false) inside) := by
  have hline := isSingleLine_paragraphChildren (settings.linking false) inside
  change isSingleLine (forestNodes (settings.linking false) inside) = true ↔ _ at hline
  rw [Bool.and_eq_true, OpensTorn, hline]
  exact ⟨fun h => ⟨⟨h.deep, h.opens⟩, h.line, h.first⟩, fun h => ⟨h.1.1, h.1.2, h.2.1, h.2.2⟩⟩

/-- A paragraph says the same with its literals linked and without links, unless it is disturbed or
something in it says something else. -/
lemma compares_paragraphNode (offset : Nat)
    (hinside : Compares q (texts (forestNodes (settings.linking true) inside))
      (texts (forestNodes (settings.linking false) inside))) :
    Compares (Disturbed settings offset inside ∨ q)
        (paragraphNode (settings.linking true) offset
          (linkLiterals Literal.find (forestNodes (settings.linking true) inside))).plainText.toList
        (paragraphNode (settings.linking false) offset
          (forestNodes (settings.linking false) inside)).plainText.toList ∧
      (¬Disturbed settings offset inside →
        (paragraphNode (settings.linking true) offset
          (linkLiterals Literal.find (forestNodes (settings.linking true) inside))).kind =
        (paragraphNode (settings.linking false) offset
          (forestNodes (settings.linking false) inside)).kind) := by
  have halike :=
    forall₂_alike_forestNodes (settings.linking true) (settings.linking false) inside
  have hline :
      isSingleLine (linkLiterals Literal.find (forestNodes (settings.linking true) inside)) =
      isSingleLine (forestNodes (settings.linking false) inside) := by
    have hlinked := isSingleLine_paragraphChildren (settings.linking true) inside
    have hplain := isSingleLine_paragraphChildren (settings.linking false) inside
    exact Bool.eq_iff_iff.mpr (hlinked.trans hplain.symm)
  have hnode (linked : Bool) (ns : List Node) :
      paragraphNode (settings.linking linked) offset ns =
        if settings.deepHeadings &&
            opensDeep ((Text.dropBytes? offset settings.source).getD []) then
          liftHeading ns
        else .paragraph ns := rfl
  rw [hnode, hnode, disturbed_iff]
  cases settings.deepHeadings &&
      opensDeep ((Text.dropBytes? offset settings.source).getD []) with
  | true =>
    simp only [if_true, true_and]
    exact compares_liftHeading halike hline hinside
  | false =>
    simp only [Bool.false_eq_true, if_false, false_and, false_or]
    change Compares _ (texts (linkLiterals Literal.find _)) (texts _) ∧ _
    rw [texts_linkLiterals]
    exact ⟨hinside, fun _ => rfl⟩

end Paragraphs

section Forests

variable {settings : Settings} {tag : Tag} {offset : Nat} {inside : List Span} {q : Prop}

/-- A container says the same with its literals linked and without links, unless it is a disturbed
paragraph or something in it says something else. -/
lemma compares_nodeOfContainer (tag : Tag) (offset : Nat) (literal : String) (ticks : List Bool)
    (hinside : Compares q (texts (forestNodes (settings.linking true) inside))
      (texts (forestNodes (settings.linking false) inside))) :
    Compares (tag = .paragraph ∧ Disturbed settings offset inside ∨ tellsText tag = true ∧ q)
        (nodeOfContainer (settings.linking true) tag offset
          (forestNodes (settings.linking true) inside) literal ticks).plainText.toList
        (nodeOfContainer (settings.linking false) tag offset
          (forestNodes (settings.linking false) inside) literal ticks).plainText.toList ∧
      (¬(tag = .paragraph ∧ Disturbed settings offset inside) →
        (nodeOfContainer (settings.linking true) tag offset
          (forestNodes (settings.linking true) inside) literal ticks).kind =
        (nodeOfContainer (settings.linking false) tag offset
          (forestNodes (settings.linking false) inside) literal ticks).kind) := by
  have hlinked : Compares q
      (texts (linkLiterals Literal.find (forestNodes (settings.linking true) inside)))
      (texts (forestNodes (settings.linking false) inside)) := by
    rwa [texts_linkLiterals]
  cases tag with
  | paragraph =>
    obtain ⟨htexts, hkind⟩ := compares_paragraphNode offset hinside
    refine ⟨htexts.congr ?_, fun hnot => hkind fun h => hnot ⟨rfl, h⟩⟩
    simp [tellsText, keepsNodes]
  | image form url title =>
    refine ⟨?_, fun _ => rfl⟩
    simp only [nodeOfContainer, ← plainTexts_eq_join, Node.plainText]
    exact hlinked.congr (by simp [tellsText])
  | codeBlock | htmlBlock | metadata | definitionList | definitionTitle | definition =>
    exact ⟨.refl (by simp [tellsText, keepsNodes]) _, fun _ => rfl⟩
  | link form url title => exact ⟨hinside.congr (by simp [tellsText, keepsNodes]), fun _ => rfl⟩
  | _ => exact ⟨hlinked.congr (by simp [tellsText, keepsNodes]), fun _ => rfl⟩

lemma compares_siblingNodes (settings : Settings) (ss : List Span) :
    Compares (SpansDisturbed settings ss) (texts (siblingNodes (settings.linking true) ss))
      (texts (siblingNodes (settings.linking false) ss)) := by
  induction ss using spans_induction with
  | nil => exact .refl (by simp [SpansDisturbed]) _
  | leaf e he ss ih =>
    have happend := (Compares.refl not_false (texts (leafNodes e))).append ih
    simp only [siblingNodes, spanNodes, texts_append]
    exact happend.congr (by simp [SpansDisturbed, SpanDisturbed])
  | container tag offset inside ss ihinside ih =>
    simp only [siblingNodes, spanNodes, texts_append, texts_cons, texts_nil, List.append_nil,
      SpansDisturbed, SpanDisturbed]
    rw [← texts_joinTexts, ← texts_joinTexts (siblingNodes _ inside)] at ihinside
    exact (compares_nodeOfContainer tag offset _ _ ihinside).1.append ih

/-- A forest says the same with its literals linked and without links, unless a paragraph in it is
disturbed. -/
lemma compares_forestNodes (settings : Settings) (ss : List Span) :
    Compares (SpansDisturbed settings ss) (texts (forestNodes (settings.linking true) ss))
      (texts (forestNodes (settings.linking false) ss)) := by
  rw [forestNodes, forestNodes, texts_joinTexts, texts_joinTexts]
  exact compares_siblingNodes settings ss

lemma texts_eq_of_forall₂ {ns ms : List Node} (h : List.Forall₂ SameText ns ms) :
    texts ns = texts ms := by
  induction h with
  | nil => rfl
  | cons hnm _ ih => rw [texts_cons, texts_cons, hnm.2, ih]

lemma forall₂_sameText_siblingNodes {ss : List Span} (hnot : ¬SpansDisturbed settings ss) :
    List.Forall₂ (fun n m => Alike n m ∧ SameText n m) (siblingNodes (settings.linking true) ss)
      (siblingNodes (settings.linking false) ss) := by
  induction ss with
  | nil => exact .nil
  | cons s ss ih =>
    rw [SpansDisturbed, not_or] at hnot
    refine List.rel_append ?_ (ih hnot.2)
    cases s with
    | leaf e he => exact List.forall₂_same.mpr fun n _ => ⟨alike_refl n, rfl, rfl⟩
    | container tag offset inside =>
      obtain ⟨htexts, hkind⟩ := compares_nodeOfContainer tag offset
        (literalText inside) (allBoxes inside) (compares_forestNodes settings inside)
      rw [SpanDisturbed] at hnot
      refine .cons ⟨.inl ⟨isText_nodeOfContainer .., isText_nodeOfContainer ..⟩,
        hkind (mt .inl hnot.1), String.toList_injective (htexts.eq hnot.1)⟩ .nil

/-- The nodes of a forest are of the same kinds and say the same with literals linked and without
links, exactly if no paragraph in it is disturbed. -/
lemma forall₂_sameText_iff (settings : Settings) (ss : List Span) :
    List.Forall₂ SameText (forestNodes (settings.linking true) ss)
      (forestNodes (settings.linking false) ss) ↔ ¬SpansDisturbed settings ss := by
  rw [← (compares_forestNodes settings ss).eq_iff]
  refine ⟨texts_eq_of_forall₂, fun htexts => ?_⟩
  have hnot := (compares_forestNodes settings ss).eq_iff.mp htexts
  refine List.Forall₂.imp (fun n m h => h.2) (forall₂_joinTexts (fun _ _ h => h.1) ?_
    (forall₂_sameText_siblingNodes hnot))
  exact fun value => ⟨alike_refl _, rfl, rfl⟩

/-- From balanced events a tree is built with literals linked and one without links. They have as
many nodes at the top, and these are of the same kinds and say the same, exactly if no paragraph is
disturbed by a literal in the text that its marker is read from. -/
theorem sameText_iff_not_disturbed (options : ParseOptions) (source : String)
    (es : List Event) (hes : Balanced es) :
    ∃ ss linked plain, eventsOf ss = es ∧
      ofEvents ({ options with extended := true }.settings source) es = .ok linked ∧
      ofEvents ({ options with extended := false }.settings source) es = .ok plain ∧
      linked.children.length = plain.children.length ∧
      (List.Forall₂ SameText linked.children plain.children ↔
        ¬SpansDisturbed (options.settings source) ss) := by
  obtain ⟨ss, rfl⟩ := balanced_iff_exists_spans.mp hes
  exact ⟨ss, _, _, rfl, ofEvents_eventsOf _ ss, ofEvents_eventsOf _ ss,
    (forall₂_alike_forestNodes _ _ ss).length_eq, forall₂_sameText_iff (options.settings source) ss⟩

/-- The events of seven marks with an address right behind them. -/
def markedAddress : List Event :=
  [.start .paragraph 0, .text "#######http://a.com", .stop]

/-- The address makes a marker of the marks, and they are gone. -/
theorem not_sameText_markedAddress :
    Balanced markedAddress ∧ ∃ linked plain,
      ofEvents (ParseOptions.default.settings "#######http://a.com") markedAddress = .ok linked ∧
      ofEvents ({ ParseOptions.default with extended := false }.settings "#######http://a.com")
        markedAddress = .ok plain ∧
      ¬List.Forall₂ SameText linked.children plain.children := by
  let ss : List Span := [.container .paragraph 0 [.leaf (.text "#######http://a.com") rfl]]
  have hspans : eventsOf ss = markedAddress := rfl
  have hbalanced : Balanced markedAddress := hspans ▸ balanced_eventsOf ss
  obtain ⟨ss', linked, plain, hss, hlinked, hplain, -, hiff⟩ := sameText_iff_not_disturbed
    .default "#######http://a.com" markedAddress hbalanced
  obtain rfl : ss' = ss := eventsOf_injective (hss.trans hspans.symm)
  refine ⟨hbalanced, linked, plain, hlinked, hplain, fun h => hiff.mp h ?_⟩
  have hfirst : (firstLinked? "#######http://a.com".toList).map Literal.Found.start = some 7 := by
    decide +kernel
  obtain ⟨f, hf, hstart⟩ := Option.map_eq_some_iff.mp hfirst
  refine .inl (.inl ⟨rfl, rfl, by decide +kernel, ?_, _, _, rfl, f, hf, ?_⟩)
  · rintro ⟨e, he, hmem, hbreaks⟩
    cases List.mem_singleton.mp hmem
    exact absurd hbreaks (by decide)
  · exact ⟨by decide +kernel, .inl hstart⟩

end Forests

end Folio.Tree
