import Folio.Proofs.LinkedTexts

/-!
# Links within links

A text is searched for link literals when the container around it closes, unless that container is
a link. Containers further out are not asked: a link in the source holds another one exactly if
some container in it has a literal in its text.
-/

namespace Folio.Tree

open Node

/-- A link of the forest has another link below it. -/
def NestedLink (ns : List Node) : Prop :=
  ∃ n : Node, n.isLink = true ∧ n.Among ns ∧ ∃ m : Node, m.isLink = true ∧ m.Among n.children

/-- A span that shows in the tree: every container around it keeps its nodes. -/
inductive Shown (c : Span) : List Span → Prop where
  | here {ss : List Span} (h : c ∈ ss) : Shown c ss
  | inside {tag : Tag} {offset : Nat} {inside ss : List Span}
    (hs : .container tag offset inside ∈ ss) (hkeeps : keepsNodes tag = true)
    (h : Shown c inside) : Shown c ss

/-- No link is opened while a link is open. The containers in `tags` are open before. -/
def linksApart (tags : List Tag) : List Event → Bool
  | [] => true
  | .start tag _ :: es => (!isLinkTag tag || !tags.any isLinkTag) && linksApart (tag :: tags) es
  | .stop :: es => linksApart tags.tail es
  | _ :: es => linksApart tags es

/-- A text directly among these spans has a literal in it that has a target. -/
def HasLiteral (settings : Settings) (inside : List Span) : Prop :=
  ∃ value, Node.text value ∈ forestNodes settings inside ∧
    ∃ f ∈ Literal.find value.toList,
      (literalTarget? f.kind (slice value.toList f.start f.stop)).isSome = true

/-- In a link there is a container, strong text for instance, with a literal in its text. -/
def LiteralWithinLink (settings : Settings) (ss : List Span) : Prop :=
  ∃ form url title offset inside, Shown (.container (.link form url title) offset inside) ss ∧
    ∃ tag offset' inside', Shown (.container tag offset' inside') inside ∧
      keepsNodes tag = true ∧ HasLiteral settings inside'

/-- The links that a container brings into the tree, its own and those of literals in its text. -/
inductive LinkOf (settings : Settings) : Span → Node → Prop where
  | container {form : LinkForm} {url title : String} {offset : Nat} {inside : List Span} :
    LinkOf settings (.container (.link form url title) offset inside)
      (.link (linkTarget form url) (nonEmpty? title) (forestNodes settings inside))
  | literal {tag : Tag} {offset : Nat} {inside : List Span} {value : String} {m : Node}
    (hliterals : settings.linkLiterals = true) (hkeeps : keepsNodes tag = true)
    (htag : isLinkTag tag = false) (hvalue : Node.text value ∈ forestNodes settings inside)
    (hm : m ∈ cutText value.toList 0 (Literal.find value.toList)) (hlink : m.isLink = true) :
    LinkOf settings (.container tag offset inside) m

section Spans

variable {settings : Settings} {c : Span} {m : Node} {ss : List Span}

lemma not_shown_nil (c : Span) : ¬Shown c [] := by
  intro h
  cases h with
  | here h | inside h => cases h

lemma Shown.cons (h : Shown c ss) (s : Span) : Shown c (s :: ss) := by
  cases h with
  | here h => exact .here (List.mem_cons_of_mem s h)
  | inside hs hkeeps h => exact .inside (List.mem_cons_of_mem s hs) hkeeps h

lemma shown_leaf_cons {e : Event} {he : e.isLeaf = true} :
    Shown c (.leaf e he :: ss) ↔ c = .leaf e he ∨ Shown c ss := by
  constructor
  · intro h
    cases h with
    | here h => exact (List.mem_cons.mp h).imp id .here
    | inside hs hkeeps h =>
      rcases List.mem_cons.mp hs with heq | hs
      · cases heq
      · exact .inr (.inside hs hkeeps h)
  · rintro (rfl | h)
    · exact .here List.mem_cons_self
    · exact h.cons _

lemma shown_container_cons {tag : Tag} {offset : Nat} {inside : List Span} :
    Shown c (.container tag offset inside :: ss) ↔
      c = .container tag offset inside ∨ (keepsNodes tag = true ∧ Shown c inside) ∨ Shown c ss := by
  constructor
  · intro h
    cases h with
    | here h => exact (List.mem_cons.mp h).imp id fun hmem => .inr (.here hmem)
    | inside hs hkeeps h =>
      rcases List.mem_cons.mp hs with heq | hs
      · cases heq
        exact .inr (.inl ⟨hkeeps, h⟩)
      · exact .inr (.inr (.inside hs hkeeps h))
  · rintro (rfl | ⟨hkeeps, h⟩ | h)
    · exact .here List.mem_cons_self
    · exact .inside List.mem_cons_self hkeeps h
    · exact h.cons _

/-- Induction on a forest of spans. -/
@[elab_as_elim]
lemma spans_induction {P : List Span → Prop} (nil : P [])
    (leaf : ∀ e he ss, P ss → P (.leaf e he :: ss))
    (container : ∀ tag offset inside ss, P inside → P ss → P (.container tag offset inside :: ss))
    (ss : List Span) : P ss := by
  match ss with
  | [] => exact nil
  | .leaf e he :: ss => exact leaf e he ss (spans_induction nil leaf container ss)
  | .container tag offset inside :: ss =>
    exact container tag offset inside ss (spans_induction nil leaf container inside)
      (spans_induction nil leaf container ss)

lemma linkOf_link {form : LinkForm} {url title : String} {offset : Nat} {inside : List Span} :
    LinkOf settings (.container (.link form url title) offset inside) m ↔
      m = .link (linkTarget form url) (nonEmpty? title) (forestNodes settings inside) := by
  constructor
  · intro h
    cases h with
    | container => rfl
    | literal _ _ htag => cases htag
  · rintro rfl
    exact .container

lemma linkOf_iff {tag : Tag} {offset : Nat} {inside : List Span} (hm : m.isLink = true)
    (hkeeps : keepsNodes tag = true) (htag : isLinkTag tag = false) :
    LinkOf settings (.container tag offset inside) m ↔
      settings.linkLiterals = true ∧ ∃ value, Node.text value ∈ forestNodes settings inside ∧
        m ∈ cutText value.toList 0 (Literal.find value.toList) := by
  constructor
  · intro h
    cases h with
    | container => cases htag
    | literal hliterals _ _ hvalue hmem => exact ⟨hliterals, _, hvalue, hmem⟩
  · rintro ⟨hliterals, value, hvalue, hmem⟩
    exact .literal hliterals hkeeps htag hvalue hmem hm

lemma LinkOf.keepsNodes {tag : Tag} {offset : Nat} {inside : List Span}
    (h : LinkOf settings (.container tag offset inside) m) : keepsNodes tag = true := by
  cases h with
  | container => rfl
  | literal _ hkeeps => exact hkeeps

/-- The links among the nodes of a container are those it brings in and those of what is in it. -/
lemma among_nodeOfContainer (hm : m.isLink = true) (tag : Tag) (offset : Nat) (inside : List Span)
    (literal : String) (ticks : List Bool) :
    m.Among [nodeOfContainer settings tag offset (forestNodes settings inside) literal ticks] ↔
      LinkOf settings (.container tag offset inside) m ∨
        keepsNodes tag = true ∧ m.Among (forestNodes settings inside) := by
  have htext := isText_of_isLink hm
  rw [among_singleton]
  cases hkeeps : keepsNodes tag with
  | false =>
    obtain ⟨hlink, hchildren⟩ := nodeOfContainer_of_not_keepsNodes settings hkeeps offset
      (forestNodes settings inside) literal ticks
    have hnone : ¬LinkOf settings (.container tag offset inside) m := fun h => by
      rw [h.keepsNodes] at hkeeps
      cases hkeeps
    simp [ne_of_isLink hm hlink, hchildren, not_among_nil, hnone]
  | true =>
    cases htag : isLinkTag tag with
    | true =>
      cases tag with
      | link form url title =>
        rw [linkOf_link]
        simp [nodeOfContainer, isLinkTag, children]
      | _ => cases htag
    | false =>
      obtain ⟨hlink, hchildren⟩ := among_children_nodeOfContainer settings hkeeps htag offset
        (forestNodes settings inside) literal ticks htext
      rw [or_iff_right (ne_of_isLink hm hlink), hchildren, linkOf_iff hm hkeeps htag]
      split
      · next hliterals => simp [among_linkLiterals _ htext, hliterals, or_comm]
      · next hliterals => simp [hliterals]

lemma not_among_leafNodes (hm : m.isLink = true) (e : Event) : ¬m.Among (leafNodes e) := by
  have hleaf : ∀ n ∈ leafNodes e, n.isLink = false ∧ n.children = [] := by
    cases e <;> simp [leafNodes, isLink, children]
  intro h
  cases h with
  | here h => exact ne_of_isLink hm (hleaf m h).1 rfl
  | deeper hn h =>
    rw [(hleaf _ hn).2] at h
    exact not_among_nil m h

lemma among_siblingNodes (hm : m.isLink = true) (ss : List Span) :
    m.Among (siblingNodes settings ss) ↔ ∃ c, Shown c ss ∧ LinkOf settings c m := by
  have htext := isText_of_isLink hm
  induction ss using spans_induction with
  | nil => simp [siblingNodes, not_among_nil, not_shown_nil]
  | leaf e he ss ih =>
    have hnone : ¬LinkOf settings (.leaf e he) m := by
      intro h
      cases h
    rw [siblingNodes, spanNodes, among_append, or_iff_right (not_among_leafNodes hm e)]
    simp [ih, shown_leaf_cons, or_and_right, exists_or, hnone]
  | container tag offset inside ss ihinside ihss =>
    -- Inside the container texts are joined, which the induction hypothesis does not see.
    rw [siblingNodes, spanNodes, among_append, ← forestNodes, among_nodeOfContainer hm,
      forestNodes, among_joinTexts htext]
    simp [ihinside, ihss, shown_container_cons, or_and_right, exists_or, and_assoc, or_assoc]

/-- The links of a tree are those that the containers shown in it bring in. -/
lemma among_forestNodes (hm : m.isLink = true) :
    m.Among (forestNodes settings ss) ↔ ∃ c, Shown c ss ∧ LinkOf settings c m := by
  rw [forestNodes, among_joinTexts (isText_of_isLink hm), among_siblingNodes hm]

end Spans

section Apart

mutual

lemma linksApart_span_append (tags : List Tag) (s : Span) (es : List Event) :
    linksApart tags (s.events ++ es) = (linksApart tags s.events && linksApart tags es) := by
  cases s with
  | leaf e he => cases e <;> first | cases he; done | rfl
  | container tag offset inside =>
    have hstop (es : List Event) :
        linksApart (tag :: tags) (.stop :: es) = linksApart tags es := rfl
    have hnil : linksApart tags [] = true := rfl
    simp only [Span.events, List.cons_append, List.append_assoc, linksApart.eq_2,
      linksApart_eventsOf_append, List.nil_append, hstop, hnil, Bool.and_assoc, Bool.true_and]

lemma linksApart_eventsOf_append (tags : List Tag) (ss : List Span) (es : List Event) :
    linksApart tags (eventsOf ss ++ es) =
      (linksApart tags (eventsOf ss) && linksApart tags es) := by
  cases ss with
  | nil => rfl
  | cons s ss =>
    rw [eventsOf, List.append_assoc, linksApart_span_append tags s,
      linksApart_eventsOf_append tags ss, linksApart_span_append tags s, Bool.and_assoc]

end

variable {tags : List Tag} {tag : Tag} {offset : Nat} {inside ss : List Span}

lemma linksApart_container (hmem : .container tag offset inside ∈ ss)
    (h : linksApart tags (eventsOf ss) = true) :
    (isLinkTag tag = true → tags.any isLinkTag = false) ∧
      linksApart (tag :: tags) (eventsOf inside) = true := by
  obtain ⟨before, after, rfl⟩ := List.append_of_mem hmem
  rw [eventsOf_append, eventsOf, linksApart_eventsOf_append, linksApart_span_append,
    Bool.and_eq_true, Bool.and_eq_true] at h
  have hspan := h.2.1
  rw [Span.events, linksApart, linksApart_eventsOf_append, Bool.and_eq_true,
    Bool.and_eq_true] at hspan
  refine ⟨fun hlink => ?_, hspan.2.1⟩
  simpa [hlink] using hspan.1

/-- What is open around a shown container includes what was open around the forest. -/
lemma linksApart_of_shown (hshown : Shown (.container tag offset inside) ss)
    (h : linksApart tags (eventsOf ss) = true) :
    ∃ above, tags ⊆ above ∧ (isLinkTag tag = true → above.any isLinkTag = false) ∧
      linksApart (tag :: above) (eventsOf inside) = true := by
  generalize hc : Span.container tag offset inside = c at hshown
  -- Each container on the way down is open when the next one opens.
  induction hshown generalizing tags with
  | here hmem =>
    subst hc
    exact ⟨tags, List.Subset.refl _, linksApart_container hmem h⟩
  | inside hs hkeeps hshown ih =>
    obtain ⟨above, hsub, hlink⟩ := ih (linksApart_container hs h).2
    exact ⟨above, fun t ht => hsub (List.mem_cons_of_mem _ ht), hlink⟩

/-- No container within a link is a link. -/
lemma isLinkTag_eq_false_of_shown {form : LinkForm} {url title : String} {offset' : Nat}
    {inside' : List Span} (h : linksApart [] (eventsOf ss) = true)
    (houter : Shown (.container (.link form url title) offset inside) ss)
    (hinner : Shown (.container tag offset' inside') inside) : isLinkTag tag = false := by
  obtain ⟨above, -, -, hinside⟩ := linksApart_of_shown houter h
  obtain ⟨above', hsub, hlink, -⟩ := linksApart_of_shown hinner hinside
  by_contra htag
  have hnone := List.any_eq_false.mp (hlink (eq_true_of_ne_false htag))
  exact hnone _ (hsub List.mem_cons_self) rfl

end Apart

section Nested

variable {settings : Settings} {ss : List Span}

lemma exists_linkOf_iff {tag : Tag} {offset : Nat} {inside : List Span}
    (htag : isLinkTag tag = false) :
    (∃ m : Node, m.isLink = true ∧ LinkOf settings (.container tag offset inside) m) ↔
      settings.linkLiterals = true ∧ keepsNodes tag = true ∧ HasLiteral settings inside := by
  constructor
  · rintro ⟨m, hm, h⟩
    have hkeeps := h.keepsNodes
    obtain ⟨hliterals, value, hvalue, hmem⟩ := (linkOf_iff hm hkeeps htag).mp h
    exact ⟨hliterals, hkeeps, value, hvalue, exists_isLink_cutText.mp ⟨m, hmem, hm⟩⟩
  · rintro ⟨hliterals, hkeeps, value, hvalue, hfound⟩
    obtain ⟨m, hmem, hm⟩ := exists_isLink_cutText.mpr hfound
    exact ⟨m, hm, .literal hliterals hkeeps htag hvalue hmem hm⟩

lemma literalWithinLink_of_nestedLink (hapart : linksApart [] (eventsOf ss) = true)
    (h : NestedLink (forestNodes settings ss)) :
    settings.linkLiterals = true ∧ LiteralWithinLink settings ss := by
  obtain ⟨n, hn, hnss, m, hm, hmn⟩ := h
  obtain ⟨c, hc, hbrings⟩ := (among_forestNodes hn).mp hnss
  cases hbrings with
  | container =>
    obtain ⟨c', hc', hbrings'⟩ := (among_forestNodes hm).mp hmn
    cases c' with
    | leaf e he => cases hbrings'
    | container tag offset' inside' =>
      have htag := isLinkTag_eq_false_of_shown hapart hc hc'
      obtain ⟨hliterals, hkeeps, hliteral⟩ := (exists_linkOf_iff htag).mp ⟨m, hm, hbrings'⟩
      exact ⟨hliterals, _, _, _, _, _, hc, _, _, _, hc', hkeeps, hliteral⟩
  | literal _ _ _ _ hcut =>
    rcases mem_cutText_cases hcut with htext | ⟨f, -, url, rfl⟩
    · rw [isText_of_isLink hn] at htext
      cases htext
    · have hnil := (among_text_cons (isText_of_isLink hm) _).mp hmn
      exact absurd hnil (not_among_nil m)

lemma nestedLink_of_literalWithinLink (hapart : linksApart [] (eventsOf ss) = true)
    (hliterals : settings.linkLiterals = true) (h : LiteralWithinLink settings ss) :
    NestedLink (forestNodes settings ss) := by
  obtain ⟨form, url, title, offset, inside, houter, tag, offset', inside', hinner, hkeeps,
    hliteral⟩ := h
  have htag := isLinkTag_eq_false_of_shown hapart houter hinner
  obtain ⟨m, hm, hbrings⟩ := (exists_linkOf_iff htag).mpr ⟨hliterals, hkeeps, hliteral⟩
  exact ⟨_, rfl, (among_forestNodes rfl).mpr ⟨_, houter, .container⟩, m, hm,
    (among_forestNodes hm).mpr ⟨_, hinner, hbrings⟩⟩

/-- From events that open no link within a link a tree is built, and it has a link below a link
exactly if literals are linked and one stands in a container within a link. -/
theorem nestedLink_iff_literalWithinLink (options : ParseOptions) (source : String)
    (es : List Event) (hes : Balanced es) (hapart : linksApart [] es = true) :
    ∃ ss d, eventsOf ss = es ∧ ofEvents (options.settings source) es = .ok d ∧
      (NestedLink d.children ↔
        options.extended = true ∧ LiteralWithinLink (options.settings source) ss) := by
  obtain ⟨ss, rfl⟩ := balanced_iff_exists_spans.mp hes
  refine ⟨ss, _, rfl, ofEvents_eventsOf _ ss, literalWithinLink_of_nestedLink hapart, ?_⟩
  rintro ⟨hextended, hliteral⟩
  exact nestedLink_of_literalWithinLink hapart hextended hliteral

/-- The events of `[**http://a.com**](x)`. -/
def strongInLink : List Event :=
  [.start .paragraph 0, .start (.link .inline "x" "") 0, .start .strong 1, .text "http://a.com",
    .stop, .stop, .stop]

/-- The strong text in this link is a link of its own. -/
theorem nestedLink_strongInLink :
    Balanced strongInLink ∧ linksApart [] strongInLink = true ∧
      ∃ d, ofEvents (ParseOptions.default.settings "[**http://a.com**](x)") strongInLink = .ok d ∧
        NestedLink d.children := by
  let strong : Span := .container .strong 1 [.leaf (.text "http://a.com") rfl]
  let link : Span := .container (.link .inline "x" "") 0 [strong]
  have hspans : eventsOf [.container .paragraph 0 [link]] = strongInLink := rfl
  have hbalanced : Balanced strongInLink := hspans ▸ balanced_eventsOf _
  have hfound : ∃ f ∈ Literal.find "http://a.com".toList,
      (literalTarget? f.kind (slice "http://a.com".toList f.start f.stop)).isSome = true := by
    decide +kernel
  refine ⟨hbalanced, rfl, ?_⟩
  obtain ⟨ss, d, hss, hd, hiff⟩ := nestedLink_iff_literalWithinLink .default "[**http://a.com**](x)"
    strongInLink hbalanced rfl
  obtain rfl : ss = [.container .paragraph 0 [link]] := eventsOf_injective (hss.trans hspans.symm)
  have hlink : Shown link [.container .paragraph 0 [link]] :=
    .inside List.mem_cons_self rfl (.here List.mem_cons_self)
  refine ⟨d, hd, hiff.mpr ⟨rfl, _, _, _, _, _, hlink, _, _, _, .here List.mem_cons_self, rfl, ?_⟩⟩
  exact ⟨"http://a.com", List.mem_cons_self, hfound⟩

end Nested

end Folio.Tree
