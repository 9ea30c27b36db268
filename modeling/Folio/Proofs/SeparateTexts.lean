import Folio.Proofs.NestedLinks
import Folio.Proofs.PlainTexts

/-!
# Texts among siblings

In a tree that the builder yields, no two texts stand side by side, and no text is empty unless an
empty one was given. Joining texts brings this about; cutting literals out of a text and lifting a
heading take texts apart again and keep it. Each property of siblings is carried through the tree by
the same recursion (`Lasting`).
-/

namespace Folio

namespace Node

variable {P : List Node → Prop} {n : Node} {ns ms : List Node}

lemma everySiblingsBelow_iff : EverySiblingsBelow P ns ↔ ∀ n ∈ ns, n.EverySiblings P := by
  induction ns with
  | nil => simp [EverySiblingsBelow]
  | cons n ns ih => rw [EverySiblingsBelow, ih, List.forall_mem_cons]

lemma EverySiblings.of_isText (h : n.isText = true) : n.EverySiblings P := by
  obtain ⟨value, rfl⟩ := exists_eq_text h
  trivial

/-- What holds below some nodes holds below others if only texts are new. -/
lemma EverySiblingsBelow.of_mem (h : EverySiblingsBelow P ns)
    (hms : ∀ n ∈ ms, n.isText = true ∨ n ∈ ns) : EverySiblingsBelow P ms := by
  rw [everySiblingsBelow_iff] at h ⊢
  intro n hn
  rcases hms n hn with htext | hmem
  · exact .of_isText htext
  · exact h n hmem

lemma not_isText_of_head? (h : TextsApart (n :: ns)) (hn : n.isText = true) :
    ∀ m ∈ ns.head?, m.isText = false := by
  intro m hm
  have hapart := (List.isChain_cons.mp h).1 m hm
  simpa [hn] using hapart

lemma textsApart_cons (h : n.isText = true → ∀ m ∈ ns.head?, m.isText = false)
    (hns : TextsApart ns) : TextsApart (n :: ns) := by
  refine List.isChain_cons.mpr ⟨?_, hns⟩
  rintro m hm ⟨hn, htext⟩
  rw [h hn m hm] at htext
  cases htext

lemma textsApart_append (h : ∀ m ∈ ms.head?, m.isText = false) (hns : TextsApart ns)
    (hms : TextsApart ms) : TextsApart (ns ++ ms) := by
  refine List.isChain_append.mpr ⟨hns, hms, ?_⟩
  rintro n - m hm ⟨-, htext⟩
  rw [h m hm] at htext
  cases htext

lemma textsFilled_cons : TextsFilled (n :: ns) ↔ n ≠ text "" ∧ TextsFilled ns := by
  rw [TextsFilled, TextsFilled, List.mem_cons, not_or, ne_comm]

lemma textsFilled_append : TextsFilled (ns ++ ms) ↔ TextsFilled ns ∧ TextsFilled ms := by
  rw [TextsFilled, TextsFilled, TextsFilled, List.mem_append, not_or]

end Node

namespace Tree

open Node

section Joining

variable {ns : List Node} {value : String}

lemma mem_prependText {n : Node} (h : n ∈ prependText value ns) : n.isText = true ∨ n ∈ ns := by
  unfold prependText at h
  split at h
  · rcases List.mem_cons.mp h with rfl | hmem
    · exact .inl rfl
    · exact .inr (List.mem_cons_of_mem _ hmem)
  · rcases List.mem_cons.mp h with rfl | hmem
    · exact .inl rfl
    · exact .inr hmem

lemma mem_joinTexts {n : Node} (h : n ∈ joinTexts ns) : n.isText = true ∨ n ∈ ns := by
  induction ns with
  | nil => cases h
  | cons m ns ih =>
    cases hm : m.isText with
    | true =>
      obtain ⟨value, rfl⟩ := exists_eq_text hm
      rcases mem_prependText h with htext | hmem
      · exact .inl htext
      · exact (ih hmem).imp_right (List.mem_cons_of_mem _)
    | false =>
      rw [joinTexts_cons hm] at h
      rcases List.mem_cons.mp h with rfl | hmem
      · exact .inr List.mem_cons_self
      · exact (ih hmem).imp_right (List.mem_cons_of_mem _)

lemma textsApart_prependText (value : String) (h : TextsApart ns) :
    TextsApart (prependText value ns) := by
  unfold prependText
  split
  · next rest ns => exact textsApart_cons (fun _ => not_isText_of_head? h rfl) h.tail
  · next hfirst =>
    refine textsApart_cons (fun _ m hm => ?_) h
    obtain ⟨ms, rfl⟩ := List.head?_eq_some_iff.mp hm
    cases m <;> first | rfl | exact absurd rfl (hfirst _ _)

/-- No two texts are side by side once texts are joined. -/
lemma textsApart_joinTexts (ns : List Node) : TextsApart (joinTexts ns) := by
  induction ns with
  | nil => exact .nil
  | cons n ns ih =>
    cases hn : n.isText with
    | true =>
      obtain ⟨value, rfl⟩ := exists_eq_text hn
      exact textsApart_prependText value ih
    | false =>
      rw [joinTexts_cons hn]
      exact textsApart_cons (fun htext => by rw [hn] at htext; cases htext) ih

lemma textsFilled_prependText (hvalue : value ≠ "") (h : TextsFilled ns) :
    TextsFilled (prependText value ns) := by
  unfold prependText
  split
  · refine textsFilled_cons.mpr ⟨?_, (textsFilled_cons.mp h).2⟩
    simp [String.append_eq_empty_iff, hvalue]
  · exact textsFilled_cons.mpr ⟨by simpa using hvalue, h⟩

lemma textsFilled_joinTexts (h : TextsFilled ns) : TextsFilled (joinTexts ns) := by
  induction ns with
  | nil => exact h
  | cons n ns ih =>
    obtain ⟨hne, hns⟩ := textsFilled_cons.mp h
    cases hn : n.isText with
    | true =>
      obtain ⟨value, rfl⟩ := exists_eq_text hn
      exact textsFilled_prependText (by simpa using hne) (ih hns)
    | false =>
      rw [joinTexts_cons hn]
      exact textsFilled_cons.mpr ⟨hne, ih hns⟩

end Joining

section Cutting

variable {ns : List Node} {value : List Char} {last : Nat} {fs : List Literal.Found}

lemma textsApart_textPiece (cs : List Char) : TextsApart (textPiece cs) := by
  unfold textPiece
  split
  · exact .nil
  · exact .singleton _

lemma textsFilled_textPiece (cs : List Char) : TextsFilled (textPiece cs) := by
  unfold textPiece
  split
  · exact List.not_mem_nil
  · next hne => simpa [TextsFilled] using hne

/-- Between two pieces of a text that was cut there is a link. -/
lemma textsApart_cutText : TextsApart (cutText value last fs) := by
  induction fs generalizing last with
  | nil =>
    unfold cutText
    split
    · exact .singleton _
    · exact textsApart_textPiece _
  | cons f fs ih =>
    simp only [cutText]
    split
    · exact ih
    · refine textsApart_append ?_ (textsApart_textPiece _) (textsApart_cons ?_ ih)
      · intro m hm
        obtain rfl := Option.some.inj hm
        rfl
      · intro htext
        cases htext

lemma textsFilled_cutText (h : value ≠ []) : TextsFilled (cutText value last fs) := by
  induction fs generalizing last with
  | nil =>
    unfold cutText
    split
    · simpa [TextsFilled] using h
    · exact textsFilled_textPiece _
  | cons f fs ih =>
    simp only [cutText]
    split
    · exact ih
    · exact textsFilled_append.mpr ⟨textsFilled_textPiece _,
        textsFilled_cons.mpr ⟨Node.noConfusion, ih⟩⟩

lemma not_isText_head?_linkLiterals (find : List Char → List Literal.Found)
    (h : ∀ m ∈ ns.head?, m.isText = false) : ∀ m ∈ (linkLiterals find ns).head?, m.isText = false := by
  cases ns with
  | nil => exact h
  | cons n ns =>
    have hn := h n rfl
    rw [linkLiterals_cons hn]
    rintro m ⟨⟩
    exact hn

lemma textsApart_linkLiterals (find : List Char → List Literal.Found) (h : TextsApart ns) :
    TextsApart (linkLiterals find ns) := by
  induction ns with
  | nil => exact .nil
  | cons n ns ih =>
    have hlater := ih h.tail
    cases hn : n.isText with
    | true =>
      obtain ⟨value, rfl⟩ := exists_eq_text hn
      -- No text follows this one, so the last piece of it has no text behind it.
      have hhead := not_isText_head?_linkLiterals find (not_isText_of_head? h hn)
      exact textsApart_append hhead textsApart_cutText hlater
    | false =>
      rw [linkLiterals_cons hn]
      exact textsApart_cons (fun htext => by rw [hn] at htext; cases htext) hlater

lemma textsFilled_linkLiterals (find : List Char → List Literal.Found) (h : TextsFilled ns) :
    TextsFilled (linkLiterals find ns) := by
  induction ns with
  | nil => exact h
  | cons n ns ih =>
    obtain ⟨hne, hns⟩ := textsFilled_cons.mp h
    cases hn : n.isText with
    | true =>
      obtain ⟨value, rfl⟩ := exists_eq_text hn
      have hvalue : value.toList ≠ [] := by simpa using hne
      exact textsFilled_append.mpr ⟨textsFilled_cutText hvalue, ih hns⟩
    | false =>
      rw [linkLiterals_cons hn]
      exact textsFilled_cons.mpr ⟨hne, ih hns⟩

/-- What stands among linked siblings: a sibling from before, a text, or the link of a literal. -/
lemma mem_linkLiterals {n : Node} (h : n ∈ linkLiterals Literal.find ns) :
    n.isText = true ∨ n ∈ ns ∨
      ∃ url literal, literal ≠ "" ∧ n = .link url none [.text literal] := by
  induction ns with
  | nil => cases h
  | cons m ns ih =>
    have hlater (h : n ∈ linkLiterals Literal.find ns) : n.isText = true ∨ n ∈ m :: ns ∨
        ∃ url literal, literal ≠ "" ∧ n = .link url none [.text literal] :=
      (ih h).imp_right (Or.imp_left (List.mem_cons_of_mem m))
    cases hm : m.isText with
    | true =>
      obtain ⟨value, rfl⟩ := exists_eq_text hm
      rcases List.mem_append.mp h with hcut | hrest
      · rcases mem_cutText_cases hcut with htext | ⟨f, hf, url, rfl⟩
        · exact .inl htext
        · obtain ⟨c, hc, -⟩ := Literal.exists_trigger_of_mem_find hf
          have hfilled : slice value.toList f.start f.stop ≠ [] := List.ne_nil_of_mem hc
          exact .inr (.inr ⟨url, _, by simpa using hfilled, rfl⟩)
      · exact hlater hrest
    | false =>
      rw [linkLiterals_cons hm] at h
      rcases List.mem_cons.mp h with rfl | hrest
      · exact .inr (.inl List.mem_cons_self)
      · exact hlater hrest

end Cutting

section Lifting

variable {ns : List Node}

lemma children_liftHeading_cases (ns : List Node) :
    (liftHeading ns).children = ns ∨ ∃ value title rest,
      ns = .text value :: rest ∧ (liftHeading ns).children = textPiece title ++ rest := by
  unfold liftHeading
  split
  · next value rest =>
    dsimp only
    split
    · next level title _ => exact .inr ⟨value, _, rest, rfl, rfl⟩
    · exact .inl rfl
  · exact .inl rfl

lemma mem_children_liftHeading {n : Node} (h : n ∈ (liftHeading ns).children) :
    n.isText = true ∨ n ∈ ns := by
  rcases children_liftHeading_cases ns with heq | ⟨value, title, rest, rfl, heq⟩
  · exact .inr (heq ▸ h)
  · rw [heq] at h
    rcases List.mem_append.mp h with hpiece | hrest
    · exact .inl (isText_of_mem_textPiece hpiece)
    · exact .inr (List.mem_cons_of_mem _ hrest)

lemma textsApart_liftHeading (h : TextsApart ns) : TextsApart (liftHeading ns).children := by
  rcases children_liftHeading_cases ns with heq | ⟨value, title, rest, rfl, heq⟩
  · rwa [heq]
  · rw [heq]
    exact textsApart_append (not_isText_of_head? h rfl) (textsApart_textPiece title) h.tail

lemma textsFilled_liftHeading (h : TextsFilled ns) : TextsFilled (liftHeading ns).children := by
  rcases children_liftHeading_cases ns with heq | ⟨value, title, rest, rfl, heq⟩
  · rwa [heq]
  · rw [heq]
    exact textsFilled_append.mpr ⟨textsFilled_textPiece title, (textsFilled_cons.mp h).2⟩

end Lifting

/-- A property of siblings that holds of what was gathered in a container, if `F` holds of the
texts read there, and that stays when the container is closed. -/
structure Lasting (F : String → Prop) (P : List Node → Prop) : Prop where
  gathered : ∀ settings ss, (∀ value, .text value ∈ eventsOf ss → F value) →
    P (forestNodes settings ss)
  linked : ∀ ns, P ns → P (linkLiterals Literal.find ns)
  lifted : ∀ ns, P ns → P (liftHeading ns).children
  literal : ∀ value, value ≠ "" → P [.text value]

section Lasting

variable {F : String → Prop} {P : List Node → Prop} {settings : Settings} {ns : List Node}

/-- The children of the node of a container are the nodes gathered in it, with their literals
linked and a heading lifted, unless it drops them. -/
lemma children_nodeOfContainer (settings : Settings) (tag : Tag) (offset : Nat)
    (inside : List Node) (literal : String) (ticks : List Bool) :
    let n := nodeOfContainer settings tag offset inside literal ticks
    n.children = [] ∨ ∃ ns, (ns = inside ∨ ns = linkLiterals Literal.find inside) ∧
      (n.children = ns ∨ n.children = (liftHeading ns).children) := by
  have hfound : ∃ ns, (ns = inside ∨ ns = linkLiterals Literal.find inside) ∧
      (if settings.linkLiterals && !isLinkTag tag then linkLiterals Literal.find inside
        else inside) = ns := by
    split
    · exact ⟨_, .inr rfl, rfl⟩
    · exact ⟨_, .inl rfl, rfl⟩
  obtain ⟨ns, hns, hif⟩ := hfound
  dsimp only [nodeOfContainer]
  rw [hif]
  cases tag with
  | paragraph =>
    simp only [paragraphNode]
    split
    · exact .inr ⟨ns, hns, .inr rfl⟩
    · exact .inr ⟨ns, hns, .inl rfl⟩
  | image | codeBlock | htmlBlock | metadata | definitionList | definitionTitle | definition =>
    exact .inl rfl
  | _ => exact .inr ⟨ns, hns, .inl rfl⟩

lemma everySiblings_of_children {n : Node} (h : P n.children)
    (hbelow : EverySiblingsBelow P n.children) : n.EverySiblings P := by
  cases n <;> first | exact ⟨h, hbelow⟩ | trivial

lemma everySiblingsBelow_linkLiterals (hP : Lasting F P) (h : EverySiblingsBelow P ns) :
    EverySiblingsBelow P (linkLiterals Literal.find ns) := by
  rw [everySiblingsBelow_iff] at h ⊢
  intro n hn
  rcases mem_linkLiterals hn with htext | hmem | ⟨url, literal, hne, rfl⟩
  · exact .of_isText htext
  · exact h n hmem
  · exact ⟨hP.literal literal hne, trivial, trivial⟩

lemma Lasting.nil (hP : Lasting F P) : P [] :=
  hP.gathered ⟨[], false, false⟩ [] nofun

/-- Closing a container keeps the property in it. -/
lemma Lasting.nodeOfContainer (hP : Lasting F P) (h : P ns) (hbelow : EverySiblingsBelow P ns)
    (tag : Tag) (offset : Nat) (literal : String) (ticks : List Bool) :
    (nodeOfContainer settings tag offset ns literal ticks).EverySiblings P := by
  rcases children_nodeOfContainer settings tag offset ns literal ticks with
    hnil | ⟨linked, hlinked, hchildren⟩
  · apply everySiblings_of_children
    · exact hnil ▸ hP.nil
    · exact hnil ▸ trivial
  · have hkept : P linked ∧ EverySiblingsBelow P linked := by
      rcases hlinked with rfl | rfl
      · exact ⟨h, hbelow⟩
      · exact ⟨hP.linked ns h, everySiblingsBelow_linkLiterals hP hbelow⟩
    rcases hchildren with heq | heq
    · apply everySiblings_of_children
      · exact heq ▸ hkept.1
      · exact heq ▸ hkept.2
    · apply everySiblings_of_children
      · exact heq ▸ hP.lifted linked hkept.1
      · exact heq ▸ hkept.2.of_mem fun _ => mem_children_liftHeading

lemma everySiblings_leafNodes {n : Node} {e : Event} (h : n ∈ leafNodes e) :
    n.EverySiblings P := by
  cases e <;> first
    | cases h; done
    | (rw [List.mem_singleton.mp h]; trivial)

lemma everySiblingsBelow_siblingNodes (hP : Lasting F P) {ss : List Span}
    (h : ∀ value, .text value ∈ eventsOf ss → F value) :
    EverySiblingsBelow P (siblingNodes settings ss) := by
  induction ss using spans_induction with
  | nil => trivial
  | leaf e he ss ih =>
    have hrest := ih fun value hmem => h value (List.mem_append_right _ hmem)
    rw [everySiblingsBelow_iff] at hrest ⊢
    intro n hn
    rcases List.mem_append.mp hn with hleaf | hmem
    · exact everySiblings_leafNodes hleaf
    · exact hrest n hmem
  | container tag offset inside ss ihinside ihss =>
    have hinside : ∀ value, .text value ∈ eventsOf inside → F value := by
      intro value hmem
      refine h value (List.mem_append_left _ ?_)
      simp [Span.events, hmem]
    have hsiblings := (ihinside hinside).of_mem fun _ => mem_joinTexts
    refine ⟨hP.nodeOfContainer (hP.gathered settings inside hinside) hsiblings _ _ _ _, ?_⟩
    exact ihss fun value hmem => h value (List.mem_append_right _ hmem)

/-- Such a property holds of all siblings in a tree that the builder yields. -/
lemma Lasting.forestNodes (hP : Lasting F P) {ss : List Span}
    (h : ∀ value, .text value ∈ eventsOf ss → F value) :
    Document.EverySiblings P ⟨forestNodes settings ss⟩ :=
  ⟨hP.gathered settings ss h,
    (everySiblingsBelow_siblingNodes hP h).of_mem fun _ => mem_joinTexts⟩

end Lasting

section Texts

lemma lasting_textsApart : Lasting (fun _ => True) TextsApart where
  gathered _ _ _ := textsApart_joinTexts _
  linked _ h := textsApart_linkLiterals _ h
  lifted _ h := textsApart_liftHeading h
  literal _ _ := .singleton _

lemma textsFilled_siblingNodes (settings : Settings) {ss : List Span}
    (h : ∀ value, .text value ∈ eventsOf ss → value ≠ "") :
    TextsFilled (siblingNodes settings ss) := by
  induction ss with
  | nil => exact List.not_mem_nil
  | cons s ss ih =>
    refine textsFilled_append.mpr ⟨?_, ih fun value hmem =>
      h value (List.mem_append_right _ hmem)⟩
    cases s with
    | leaf e he =>
      cases e with
      | text value =>
        have hvalue := h value List.mem_cons_self
        simpa [spanNodes, leafNodes, TextsFilled, eq_comm] using hvalue
      | _ => simp [spanNodes, leafNodes, TextsFilled]
    | container tag offset inside =>
      intro hmem
      have htext := isText_nodeOfContainer settings tag offset
        (joinTexts (siblingNodes settings inside)) (literalText inside) (allBoxes inside)
      rw [← List.mem_singleton.mp hmem] at htext
      cases htext

lemma lasting_textsFilled : Lasting (· ≠ "") TextsFilled where
  gathered settings _ h := textsFilled_joinTexts (textsFilled_siblingNodes settings h)
  linked _ h := textsFilled_linkLiterals _ h
  lifted _ h := textsFilled_liftHeading h
  literal value h := by simpa [TextsFilled, eq_comm] using h

/-- Nowhere in the tree of a balanced stream are two texts side by side, and if no text of the
stream is empty, none in the tree is. -/
theorem everySiblings_textsApart_of_balanced (options : ParseOptions) (source : String)
    (es : List Event) (h : Balanced es) :
    ∃ d, ofEvents (options.settings source) es = .ok d ∧ d.EverySiblings TextsApart ∧
      ((∀ value, .text value ∈ es → value ≠ "") → d.EverySiblings TextsFilled) := by
  obtain ⟨ss, rfl⟩ := balanced_iff_exists_spans.mp h
  refine ⟨_, ofEvents_eventsOf _ ss, ?_, ?_⟩
  · exact lasting_textsApart.forestNodes fun _ _ => trivial
  · exact lasting_textsFilled.forestNodes

/-- The events of `####### www.a.com b`, of which the text comes in two parts. -/
def markedLiteral : List Event :=
  [.start .paragraph 0, .text "####### www.a", .text ".com b", .stop]

/-- Of this text the markers are dropped and the literal is cut out. -/
theorem everySiblings_textsApart_markedLiteral :
    Balanced markedLiteral ∧ (∀ value, .text value ∈ markedLiteral → value ≠ "") ∧
      ∃ d, ofEvents (ParseOptions.default.settings "####### www.a.com b") markedLiteral = .ok d ∧
        d.EverySiblings TextsApart ∧ d.EverySiblings TextsFilled := by
  have hbalanced : Balanced markedLiteral :=
    balanced_eventsOf [.container .paragraph 0
      [.leaf (.text "####### www.a") rfl, .leaf (.text ".com b") rfl]]
  have hfilled : ∀ value, .text value ∈ markedLiteral → value ≠ "" := by
    simp +decide [markedLiteral]
  obtain ⟨d, hd, hapart, htexts⟩ := everySiblings_textsApart_of_balanced .default
    "####### www.a.com b" markedLiteral hbalanced
  exact ⟨hbalanced, hfilled, d, hd, hapart, htexts hfilled⟩

end Texts

end Tree

end Folio
