import Folio.Html
import Folio.Proofs.TreeRecursion

/-!
# Content that is not rendered

What stands in containers without a tag, and the strings of leaves without one, never shows in the
fragment: streams of events that agree in everything else are rendered alike. Every step of the
builder keeps the nodes alike, texts being joined and cut and headings being lifted by what shows.
-/

namespace Folio

namespace Node

mutual

/-- The node without what rendering leaves out: dropped nodes have no content, items no box. A line
break stays what it is, since it keeps a paragraph from being a heading. -/
def shown : Node → Node
  | heading level cs => heading level (shownAll cs)
  | paragraph cs => paragraph (shownAll cs)
  | blockquote cs => blockquote (shownAll cs)
  | list ordered start cs => list ordered start (shownAll cs)
  | listItem _ cs => listItem none (shownAll cs)
  | table cs => table (shownAll cs)
  | tableRow cs => tableRow (shownAll cs)
  | tableCell cs => tableCell (shownAll cs)
  | strong cs => strong (shownAll cs)
  | emphasis cs => emphasis (shownAll cs)
  | link url title cs => link url title (shownAll cs)
  | text value => text value
  | inlineCode value => inlineCode value
  | code lang value => code lang value
  | thematicBreak => thematicBreak
  | .break => .break
  | delete _ | image .. | html _ | math _ | inlineMath _ | footnoteReference _
  | footnoteDefinition .. | unknown _ => unknown ""

def shownAll : List Node → List Node
  | [] => []
  | n :: ns => n.shown :: shownAll ns

end

mutual

lemma renderNode_shown (n : Node) : Html.renderNode n.shown = Html.renderNode n := by
  cases n with
  | heading level cs | paragraph cs | blockquote cs | listItem _ cs | table cs | tableRow cs
  | tableCell cs | strong cs | emphasis cs | link _ _ cs =>
    simp only [shown, Html.renderNode, renderNodes_shownAll cs]
  | list ordered _ cs =>
    cases ordered <;> simp only [shown, Html.renderNode, renderNodes_shownAll cs]
  | _ => rfl

lemma renderNodes_shownAll (ns : List Node) :
    Html.renderNodes (shownAll ns) = Html.renderNodes ns := by
  match ns with
  | [] => rfl
  | [n] => exact renderNode_shown n
  | n :: m :: ns =>
    change Html.renderNode n.shown ++ "\n" ++ Html.renderNodes (shownAll (m :: ns)) = _
    rw [renderNode_shown n, renderNodes_shownAll (m :: ns)]
    rfl

end

lemma isText_shown (n : Node) : n.shown.isText = n.isText := by
  cases n <;> rfl

lemma shownAll_append (ns ms : List Node) : shownAll (ns ++ ms) = shownAll ns ++ shownAll ms := by
  induction ns with
  | nil => rfl
  | cons n ns ih => rw [List.cons_append, shownAll, shownAll, ih, List.cons_append]

end Node

namespace Tree

open Node

/-- Neither a container of this kind nor anything in it has a tag. -/
def hidesContent : Tag → Bool
  | .strikethrough | .image .. | .footnoteDefinition _ | .htmlBlock | .metadata | .definitionList
  | .definitionTitle | .definition => true
  | _ => false

def isCodeTag : Tag → Bool
  | .codeBlock _ => true
  | _ => false

/-- The tag without the texts that a container with no tag of its own carries. -/
def shownTag : Tag → Tag
  | .image form _ _ => .image form "" ""
  | .footnoteDefinition _ => .footnoteDefinition ""
  | tag => tag

/-- The event without a string that has no tag; markup in a block of code belongs to the code. -/
def shownEvent (inCode : Bool) : Event → Event
  | .start tag offset => .start (shownTag tag) offset
  | .html value => .html (if inCode then value else "")
  | .inlineHtml _ => .inlineHtml ""
  | .inlineMath _ => .inlineMath ""
  | .displayMath _ => .displayMath ""
  | .footnoteReference _ => .footnoteReference ""
  | e => e

/-- The events without what is strictly inside hidden containers and without hidden strings. The
containers in `opened` are open before, the innermost first. -/
def shownEvents (opened : List Tag) : List Event → List Event
  | [] => []
  | .start tag offset :: es =>
    (if opened.any hidesContent then [] else [.start (shownTag tag) offset]) ++
      shownEvents (tag :: opened) es
  | .stop :: es =>
    (if opened.tail.any hidesContent then [] else [.stop]) ++ shownEvents opened.tail es
  | e :: es =>
    (if opened.any hidesContent then [] else [shownEvent (opened.head?.any isCodeTag) e]) ++
      shownEvents opened es

lemma isLeaf_shownEvent (inCode : Bool) {e : Event} (h : e.isLeaf = true) :
    (shownEvent inCode e).isLeaf = true := by
  cases e <;> first | rfl | exact h

mutual

def shownSpan (inCode : Bool) : Span → Span
  | .leaf e h => .leaf (shownEvent inCode e) (isLeaf_shownEvent inCode h)
  | .container tag offset inside =>
    .container (shownTag tag) offset
      (if hidesContent tag then [] else shownSpans (isCodeTag tag) inside)

def shownSpans (inCode : Bool) : List Span → List Span
  | [] => []
  | s :: ss => shownSpan inCode s :: shownSpans inCode ss

end

section Events

lemma shownEvents_leaf (opened : List Tag) {e : Event} (h : e.isLeaf = true) (es : List Event) :
    shownEvents opened (e :: es) =
      (if opened.any hidesContent then [] else [shownEvent (opened.head?.any isCodeTag) e]) ++
        shownEvents opened es := by
  cases e <;> first | rfl | cases h

mutual

lemma shownEvents_span (opened : List Tag) (s : Span) (es : List Event) :
    shownEvents opened (s.events ++ es) =
      (if opened.any hidesContent then []
        else (shownSpan (opened.head?.any isCodeTag) s).events) ++ shownEvents opened es := by
  cases s with
  | leaf e h => exact shownEvents_leaf opened h es
  | container tag offset inside =>
    rw [Span.events, List.cons_append, List.append_assoc, shownEvents, shownEvents_spans,
      List.singleton_append, shownEvents, List.tail_cons, List.any_cons]
    cases opened.any hidesContent with
    | true => simp
    | false =>
      cases hhides : hidesContent tag <;> simp [shownSpan, Span.events, hhides, eventsOf]

/-- The events of spans show what the spans show, and nothing in a hidden container. -/
lemma shownEvents_spans (opened : List Tag) (ss : List Span) (es : List Event) :
    shownEvents opened (eventsOf ss ++ es) =
      (if opened.any hidesContent then []
        else eventsOf (shownSpans (opened.head?.any isCodeTag) ss)) ++ shownEvents opened es := by
  cases ss with
  | nil => simp [eventsOf, shownSpans]
  | cons s ss =>
    rw [eventsOf, List.append_assoc, shownEvents_span opened s, shownEvents_spans opened ss]
    split <;> simp [shownSpans, eventsOf]

end

lemma shownEvents_eventsOf (ss : List Span) :
    shownEvents [] (eventsOf ss) = eventsOf (shownSpans false ss) := by
  have h := shownEvents_spans [] ss []
  simpa [shownEvents] using h

end Events

section Nodes

variable {ns ms : List Node}

lemma shownAll_joinTexts (ns : List Node) : shownAll (joinTexts ns) = joinTexts (shownAll ns) := by
  induction ns with
  | nil => rfl
  | cons n ns ih =>
    cases htext : n.isText with
    | true =>
      obtain ⟨value, rfl⟩ := exists_eq_text htext
      rw [joinTexts_text, shownAll, shown, joinTexts_text, ← ih]
      rcases joinTexts ns with _ | ⟨m, ms⟩
      · rfl
      · cases m <;> rfl
    | false =>
      rw [joinTexts_cons htext, shownAll, shownAll,
        joinTexts_cons ((isText_shown n).trans htext), ih]

lemma shownAll_cutText (value : List Char) (last : Nat) (fs : List Literal.Found) :
    shownAll (cutText value last fs) = cutText value last fs := by
  have hpiece (cs : List Char) : shownAll (textPiece cs) = textPiece cs := by
    unfold textPiece
    split <;> rfl
  induction fs generalizing last with
  | nil =>
    unfold cutText
    split
    · rfl
    · exact hpiece _
  | cons f fs ih =>
    simp only [cutText]
    split
    · exact ih last
    · rw [shownAll_append, hpiece, shownAll, ih]
      rfl

lemma shownAll_linkLiterals (find : List Char → List Literal.Found) (ns : List Node) :
    shownAll (linkLiterals find ns) = linkLiterals find (shownAll ns) := by
  induction ns with
  | nil => rfl
  | cons n ns ih =>
    cases n with
    | text value => rw [linkLiterals, shownAll_append, shownAll_cutText, ih]; rfl
    | _ => simp only [linkLiterals, shownAll, shown, ih]

lemma isSingleLine_shownAll (ns : List Node) : isSingleLine (shownAll ns) = isSingleLine ns := by
  induction ns with
  | nil => rfl
  | cons n ns ih =>
    rw [isSingleLine, isSingleLine] at ih
    rw [shownAll, isSingleLine, isSingleLine, List.all_cons, List.all_cons, ih]
    cases n <;> rfl

lemma shown_liftHeading (ns : List Node) :
    (liftHeading ns).shown = liftHeading (shownAll ns) := by
  cases ns with
  | nil => rfl
  | cons n ns =>
    cases n with
    | text value =>
      have hline := isSingleLine_shownAll (.text value :: ns)
      have hempty : (shownAll ns).isEmpty = ns.isEmpty := by cases ns <;> rfl
      simp only [shownAll, shown] at hline ⊢
      simp only [liftHeading, hline, hempty]
      rcases if isSingleLine (.text value :: ns) then deepMarker? value.toList else none with
        _ | ⟨level, title⟩
      · rfl
      · simp only [shown, shownAll_append, apply_ite shownAll, shownAll]
    | _ => rfl

lemma shown_paragraphNode (settings : Settings) (offset : Nat) (ns : List Node) :
    (paragraphNode settings offset ns).shown = paragraphNode settings offset (shownAll ns) := by
  unfold paragraphNode
  split
  · exact shown_liftHeading ns
  · rfl

/-- Hidden containers are alike whatever they hold, and other ones if they hold the same in what
shows. -/
lemma shown_nodeOfContainer (settings : Settings) (tag : Tag) (offset : Nat)
    {literal literal' : String} (ticks ticks' : List Bool)
    (hnodes : hidesContent tag = false → shownAll ns = shownAll ms)
    (hliteral : isCodeTag tag = true → literal = literal') :
    (nodeOfContainer settings tag offset ns literal ticks).shown =
      (nodeOfContainer settings (shownTag tag) offset ms literal' ticks').shown := by
  cases hhides : hidesContent tag with
  | true => cases tag <;> first | rfl | cases hhides
  | false =>
    have hchildren : ∀ found : Bool, shownAll (if found then linkLiterals Literal.find ns else ns) =
        shownAll (if found then linkLiterals Literal.find ms else ms) := by
      intro found
      cases found with
      | true =>
        simp only [if_true, shownAll_linkLiterals, hnodes hhides]
      | false => exact hnodes hhides
    cases tag with
    | paragraph =>
      exact (shown_paragraphNode settings offset _).trans
        ((congrArg _ (hchildren _)).trans (shown_paragraphNode settings offset _).symm)
    | codeBlock info =>
      exact congrArg (fun text => code (language? info) (withoutFinalBreak text)) (hliteral rfl)
    | strikethrough | image | htmlBlock | footnoteDefinition | metadata | definitionList
    | definitionTitle | definition => cases hhides
    | _ =>
      simp only [nodeOfContainer, shown, hchildren]
      rfl

end Nodes

section Spans

lemma literalText_shownSpans (ss : List Span) :
    literalText (shownSpans true ss) = literalText ss := by
  induction ss with
  | nil => rfl
  | cons s ss ih =>
    rw [shownSpans, literalText_cons, ih, literalText_cons s]
    cases s with
    | leaf e h => cases e <;> rfl
    | container => rfl

variable (settings : Settings)

mutual

lemma shownAll_spanNodes (inCode : Bool) (s : Span) :
    shownAll (spanNodes settings (shownSpan inCode s)) = shownAll (spanNodes settings s) := by
  cases s with
  | leaf e h => cases e <;> rfl
  | container tag offset inside =>
    refine congrArg (fun n => [n]) (Eq.symm ?_)
    refine shown_nodeOfContainer settings tag offset _ _ (fun hhides => ?_) (fun hcode => ?_)
    · rw [shownAll_joinTexts, shownAll_joinTexts, hhides, if_neg Bool.false_ne_true,
        shownAll_siblingNodes]
    · have hhides : hidesContent tag = false := by cases tag <;> first | rfl | cases hcode
      rw [hhides, if_neg Bool.false_ne_true, hcode, literalText_shownSpans]

lemma shownAll_siblingNodes (inCode : Bool) (ss : List Span) :
    shownAll (siblingNodes settings (shownSpans inCode ss)) =
      shownAll (siblingNodes settings ss) := by
  cases ss with
  | nil => rfl
  | cons s ss =>
    rw [shownSpans, siblingNodes, siblingNodes, shownAll_append, shownAll_append,
      shownAll_spanNodes inCode s, shownAll_siblingNodes inCode ss]

end

/-- The nodes of a forest of spans show what the nodes of the shown spans do. -/
lemma shownAll_forestNodes (inCode : Bool) (ss : List Span) :
    shownAll (forestNodes settings (shownSpans inCode ss)) =
      shownAll (forestNodes settings ss) := by
  rw [forestNodes, forestNodes, shownAll_joinTexts, shownAll_joinTexts, shownAll_siblingNodes]

end Spans

/-- Streams of events that agree in what shows are built into documents with the same fragment. -/
theorem render_eq_of_shownEvents_eq (options : ParseOptions) (source : String)
    (es es' : List Event) (hes : Balanced es) (hes' : Balanced es')
    (h : shownEvents [] es = shownEvents [] es') :
    ∃ d d', ofEvents (options.settings source) es = .ok d ∧
      ofEvents (options.settings source) es' = .ok d' ∧ d.render = d'.render := by
  obtain ⟨ss, rfl⟩ := balanced_iff_exists_spans.mp hes
  obtain ⟨ss', rfl⟩ := balanced_iff_exists_spans.mp hes'
  rw [shownEvents_eventsOf, shownEvents_eventsOf] at h
  have hspans : shownSpans false ss = shownSpans false ss' := eventsOf_injective h
  refine ⟨_, _, ofEvents_eventsOf _ ss, ofEvents_eventsOf _ ss', ?_⟩
  have hnodes : shownAll (forestNodes (options.settings source) ss) =
      shownAll (forestNodes (options.settings source) ss') := by
    rw [← shownAll_forestNodes _ false ss, hspans, shownAll_forestNodes]
  rw [Document.render, Document.render, ← renderNodes_shownAll, hnodes, renderNodes_shownAll]

/-- An item with a box and, behind some markup, text that is struck out. -/
def struckItem (markup : String) (struck : List Span) : List Span :=
  [.container (.list none) 0 [.container .item 0
    [.leaf (.taskMarker false) rfl, .leaf (.text "x") rfl, .leaf (.inlineHtml markup) rfl,
      .container .strikethrough 9 struck, .leaf (.text "z") rfl]]]

/-- A box that is struck out ticks the item around it, which the fragment does not show. -/
theorem render_eq_of_struckItem :
    ∃ es es', es = eventsOf (struckItem "<b>" []) ∧
      es' = eventsOf (struckItem "<i>" [.leaf (.taskMarker true) rfl, .leaf (.text "y") rfl]) ∧
      es ≠ es' ∧ shownEvents [] es = shownEvents [] es' ∧
      ∃ d d', ofEvents (ParseOptions.default.settings "- [ ] x<b>~~y~~z") es = .ok d ∧
        ofEvents (ParseOptions.default.settings "- [ ] x<b>~~y~~z") es' = .ok d' ∧
        d.render = d'.render := by
  refine ⟨_, _, rfl, rfl, by decide, by decide, ?_⟩
  exact render_eq_of_shownEvents_eq .default "- [ ] x<b>~~y~~z" _ _ (balanced_eventsOf _)
    (balanced_eventsOf _) (by decide)

end Tree

end Folio
