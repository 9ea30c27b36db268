import Folio.Proofs.Elements
import Folio.Proofs.Escaping

/-!
# Unique rendering

Documents without findings are rendered in a uniquely decodable way: a fragment determines its
document up to the fields that rendering leaves out. An element is told by how its first tag
begins, a text between tags by what stands in front of the next tag, and siblings end at a closing
tag or at the end.
-/

namespace Folio

namespace Node

mutual

def erase : Node → Node
  | heading level cs => heading level (eraseAll cs)
  | paragraph cs => paragraph (eraseAll cs)
  | blockquote cs => blockquote (eraseAll cs)
  | list ordered _ cs => list ordered none (eraseAll cs)
  | listItem _ cs => listItem none (eraseAll cs)
  | table cs => table (eraseAll cs)
  | tableRow cs => tableRow (eraseAll cs)
  | tableCell cs => tableCell (eraseAll cs)
  | strong cs => strong (eraseAll cs)
  | emphasis cs => emphasis (eraseAll cs)
  | link url _ cs => link url none (eraseAll cs)
  | code _ value => code none value
  | delete cs => delete (eraseAll cs)
  | footnoteDefinition label cs => footnoteDefinition label (eraseAll cs)
  | text value => text value
  | inlineCode value => inlineCode value
  | thematicBreak => thematicBreak
  | image url alt title => image url alt title
  | .break => .break
  | html value => html value
  | math value => math value
  | inlineMath value => inlineMath value
  | footnoteReference label => footnoteReference label
  | unknown name => unknown name

def eraseAll : List Node → List Node
  | [] => []
  | n :: ns => n.erase :: eraseAll ns

end

end Node

/-- The document without the start of lists, the boxes of items, the titles of links and the
languages of code. -/
def Document.erase (d : Document) : Document :=
  ⟨Node.eraseAll d.children⟩

namespace Html

/-- The node without hidden fields, by its element, its target, its text and its children. -/
def Element.node (e : Element) (url value : String) (children : List Node) : Node :=
  match e with
  | heading level => .heading (UInt8.ofNat level) children
  | paragraph => .paragraph children
  | orderedList => .list true none children
  | bulletList => .list false none children
  | listItem => .listItem none children
  | table => .table children
  | tableRow => .tableRow children
  | tableCell => .tableCell children
  | strong => .strong children
  | emphasis => .emphasis children
  | link => .link url none children
  | inlineCode => .inlineCode value
  | code => .code none value
  | blockquote => .blockquote children
  | thematicBreak => .thematicBreak

variable {n m : Node} {e : Element}

lemma erase_eq_node (h : element? n = some e) :
    n.erase = e.node (urlOf n) (valueOf n) (Node.eraseAll n.children) := by
  cases n with
  | heading level cs =>
    obtain ⟨hlevel, rfl⟩ := element?_heading h
    simp [Node.erase, Element.node, Node.children]
  | list ordered start cs => cases ordered <;> cases h <;> rfl
  | _ => cases h <;> rfl

section Cancel

variable {x y : List Char}

/-- The end of siblings: a closing tag or the end of the fragment. -/
def Ends (x : List Char) : Prop :=
  x = [] ∨ ∃ r, x = '<' :: '/' :: r

/-- A tag or the end of the fragment, where a text cannot go on. -/
def AtTag (x : List Char) : Prop :=
  x = [] ∨ ∃ r, x = '<' :: r

lemma Ends.atTag (h : Ends x) : AtTag x := by
  rcases h with h | ⟨r, h⟩
  · exact .inl h
  · exact .inr ⟨_, h⟩

/-- A text is followed by a tag, so where it ends can be told. -/
lemma text_cancel {u v : List Char} (hu : '<' ∉ u) (hv : '<' ∉ v) (hx : AtTag x) (hy : AtTag y)
    (h : u ++ x = v ++ y) : u = v ∧ x = y := by
  rcases hx with rfl | ⟨r, rfl⟩
  · rcases hy with rfl | ⟨q, rfl⟩
    · exact ⟨by simpa using h, rfl⟩
    · rw [List.append_nil] at h
      exact absurd (h ▸ List.mem_append_right v List.mem_cons_self) hu
  · rcases hy with rfl | ⟨q, rfl⟩
    · rw [List.append_nil] at h
      exact absurd (h ▸ List.mem_append_right u List.mem_cons_self) hv
    · obtain ⟨huv, hrq⟩ := delimiter_cancel hu hv h
      exact ⟨huv, by rw [hrq]⟩

lemma opening_cancel {e e' : Element} (h : e.opening ++ x = e'.opening ++ y) :
    e = e' ∧ x = y := by
  have hprefix : e.opening <+: e'.opening ∨ e'.opening <+: e.opening :=
    List.prefix_or_prefix_of_prefix (List.prefix_append _ x) (h.symm ▸ List.prefix_append _ y)
  have he : e = e' := by
    rcases hprefix with hp | hp
    · exact Element.eq_of_opening_prefix hp
    · exact (Element.eq_of_opening_prefix hp).symm
  subst he
  exact ⟨rfl, List.append_cancel_left h⟩

lemma target_cancel {e : Element} {u v : String} (hu : '"' ∉ u.toList) (hv : '"' ∉ v.toList)
    (h : e.target u ++ x = e.target v ++ y) : (e = .link → u = v) ∧ x = y := by
  unfold Element.target at h
  split at h
  · rw [List.append_assoc, List.append_assoc] at h
    obtain ⟨huv, hxy⟩ := delimiter_cancel hu hv h
    exact ⟨fun _ => String.toList_inj.mp huv, (List.cons.inj hxy).2⟩
  · next he => exact ⟨fun hlink => absurd hlink he, h⟩

lemma ends_closing (e : Element) (he : e ≠ .thematicBreak) (x : List Char) :
    Ends (e.closing ++ x) := by
  cases e <;> first | exact .inr ⟨_, rfl⟩ | exact absurd rfl he

lemma not_ends_opening (e : Element) (x : List Char) : ¬Ends (e.opening ++ x) := by
  rintro (h | ⟨r, h⟩)
  · cases e <;> cases h
  · cases e <;> cases h

lemma atTag_opening (e : Element) (x : List Char) : AtTag (e.opening ++ x) := by
  cases e <;> exact .inr ⟨_, rfl⟩

end Cancel

/-- Siblings that can be told from their markup. -/
structure Clean (ns : List Node) : Prop where
  lint : Lint.checkNodes ns = []
  filled : Node.TextsFilled ns
  filledBelow : Node.EverySiblingsBelow Node.TextsFilled ns
  apart : Node.TextsApart ns
  apartBelow : Node.EverySiblingsBelow Node.TextsApart ns

namespace Clean

variable {ns : List Node}

lemma head_lint (h : Clean (n :: ns)) : Lint.checkNode n = [] :=
  (List.append_eq_nil_iff.mp h.lint).1

lemma tail (h : Clean (n :: ns)) : Clean ns where
  lint := (List.append_eq_nil_iff.mp h.lint).2
  filled hmem := h.filled (List.mem_cons_of_mem n hmem)
  filledBelow := h.filledBelow.2
  apart := List.IsChain.tail h.apart
  apartBelow := h.apartBelow.2

lemma children (h : Clean (n :: ns)) : Clean n.children := by
  have hfilled := h.filledBelow.1.children List.not_mem_nil
  have hapart := h.apartBelow.1.children List.IsChain.nil
  exact ⟨checkNodes_children h.head_lint, hfilled.1, hfilled.2, hapart.1, hapart.2⟩

end Clean

/-- The text in front of the first tag, with the line break that divides them. -/
def lead : List Node → List Char
  | [.text value] => value.toList
  | .text value :: _ => value.toList ++ ['\n']
  | _ => []

/-- The siblings from the first element on, provided that texts stand apart. -/
def fromElement : List Node → List Node
  | .text _ :: ns => ns
  | ns => ns

/-- What siblings behind a node add to its markup. -/
def behind : List Node → List Char
  | [] => []
  | ns => '\n' :: (renderNodes ns).toList

lemma toList_renderNodes_cons (n : Node) (ns : List Node) :
    (renderNodes (n :: ns)).toList = (renderNode n).toList ++ behind ns := by
  cases ns with
  | nil => simp [renderNodes, behind]
  | cons k ks => simp [renderNodes, behind]

section Lead

variable {ns ms : List Node} {x y : List Char}

lemma lead_of_element (hn : n.isText = false) (ns : List Node) : lead (n :: ns) = [] := by
  cases n <;> first | rfl | cases hn

lemma fromElement_of_element (hn : n.isText = false) (ns : List Node) :
    fromElement (n :: ns) = n :: ns := by
  cases n <;> first | rfl | cases hn

lemma toList_renderNodes_lead (ns : List Node) :
    (renderNodes ns).toList = lead ns ++ (renderNodes (fromElement ns)).toList := by
  cases ns with
  | nil => rfl
  | cons n ns =>
    cases hn : n.isText with
    | false => rw [lead_of_element hn, fromElement_of_element hn, List.nil_append]
    | true =>
      obtain ⟨value, rfl⟩ := Node.exists_eq_text hn
      rw [toList_renderNodes_cons, renderNode]
      cases ns with
      | nil => rfl
      | cons k ks => simp [lead, fromElement, behind]

lemma lt_not_mem_lead (h : Clean ns) : '<' ∉ lead ns := by
  cases ns with
  | nil => exact List.not_mem_nil
  | cons n ns =>
    cases hn : n.isText with
    | false => rw [lead_of_element hn]; exact List.not_mem_nil
    | true =>
      obtain ⟨value, rfl⟩ := Node.exists_eq_text hn
      have hvalue := lt_not_mem_text h.head_lint
      cases ns with
      | nil => exact hvalue
      | cons k ks => simpa [lead] using hvalue

lemma Clean.fromElement (h : Clean ns) : Clean (fromElement ns) := by
  cases ns with
  | nil => exact h
  | cons n ns =>
    cases hn : n.isText with
    | false => rwa [fromElement_of_element hn]
    | true =>
      obtain ⟨value, rfl⟩ := Node.exists_eq_text hn
      exact h.tail

lemma fromElement_cases (h : Clean ns) :
    Html.fromElement ns = [] ∨
      ∃ k ks, Html.fromElement ns = k :: ks ∧ k.isText = false := by
  cases ns with
  | nil => exact .inl rfl
  | cons n ns =>
    cases hn : n.isText with
    | false => exact .inr ⟨n, ns, fromElement_of_element hn ns, hn⟩
    | true =>
      obtain ⟨value, rfl⟩ := Node.exists_eq_text hn
      cases ns with
      | nil => exact .inl rfl
      | cons k ks =>
        have hapart := (List.isChain_cons_cons.mp h.apart).1
        exact .inr ⟨k, ks, rfl, by simpa [Node.isText] using hapart⟩

lemma exists_opening (h : Clean (n :: ns)) (hn : n.isText = false) (x : List Char) :
    ∃ e : Element, e.opening <+: (renderNodes (n :: ns)).toList ++ x := by
  obtain ⟨e, he⟩ := exists_element_of_checkNode h.head_lint hn
  refine ⟨e, ?_⟩
  rw [toList_renderNodes_cons, toList_renderNode he]
  simp only [List.append_assoc]
  exact List.prefix_append _ _

lemma atTag_fromElement (h : Clean ns) (hx : Ends x) :
    AtTag ((renderNodes (Html.fromElement ns)).toList ++ x) := by
  have hclean := h.fromElement
  rcases fromElement_cases h with hnil | ⟨k, ks, hcons, hk⟩
  · rw [hnil]
    exact hx.atTag
  · rw [hcons] at hclean ⊢
    obtain ⟨e, z, hz⟩ := exists_opening hclean hk x
    rw [← hz]
    exact atTag_opening e z

lemma eraseAll_eq_nil (h : Node.eraseAll ns = []) : ns = [] := by
  cases ns with
  | nil => rfl
  | cons n ns => cases h

lemma lead_text_ne_nil {value : String} (h : Clean (.text value :: ns)) :
    lead (.text value :: ns) ≠ [] := by
  have hne : value.toList ≠ [] := by
    intro hnil
    obtain rfl : value = "" := String.toList_inj.mp hnil
    exact h.filled List.mem_cons_self
  cases ns with
  | nil => exact hne
  | cons k ks => simp [lead]

lemma text_eq_of_lead {u v : String} (hlead : lead (.text u :: ns) = lead (.text v :: ms))
    (h : Node.eraseAll ns = Node.eraseAll ms) : u = v := by
  cases ns with
  | nil =>
    obtain rfl := eraseAll_eq_nil h.symm
    exact String.toList_inj.mp hlead
  | cons k ks =>
    cases ms with
    | nil => cases h
    | cons l ls => exact String.toList_inj.mp (List.append_cancel_right hlead)

lemma eraseAll_eq_of_lead (hns : Clean ns) (hms : Clean ms) (hlead : lead ns = lead ms)
    (h : Node.eraseAll (Html.fromElement ns) = Node.eraseAll (Html.fromElement ms)) :
    Node.eraseAll ns = Node.eraseAll ms := by
  have hno : ∀ {ks : List Node}, Clean ks → lead ks = [] → Html.fromElement ks = ks := by
    intro ks hks hnil
    cases ks with
    | nil => rfl
    | cons k ks =>
      cases hk : k.isText with
      | false => exact fromElement_of_element hk ks
      | true =>
        obtain ⟨value, rfl⟩ := Node.exists_eq_text hk
        exact absurd hnil (lead_text_ne_nil hks)
  by_cases hnil : lead ns = []
  · rwa [hno hns hnil, hno hms (hlead ▸ hnil)] at h
  · have htext : ∀ {ks : List Node}, lead ks ≠ [] → ∃ v ls, ks = .text v :: ls := by
      intro ks hks
      cases ks with
      | nil => exact absurd rfl hks
      | cons k ks =>
        cases hk : k.isText with
        | false => exact absurd (lead_of_element hk ks) hks
        | true =>
          obtain ⟨value, rfl⟩ := Node.exists_eq_text hk
          exact ⟨value, ks, rfl⟩
    obtain ⟨u, ns, rfl⟩ := htext hnil
    obtain ⟨v, ms, rfl⟩ := htext (hlead ▸ hnil)
    have htail : Node.eraseAll ns = Node.eraseAll ms := h
    rw [Node.eraseAll, Node.eraseAll, text_eq_of_lead hlead htail, htail]

end Lead

/-- These siblings can be told from their markup, whatever follows them. -/
def Decodable (ns : List Node) : Prop :=
  ∀ ms x y, Clean ns → Clean ms → Ends x → Ends y →
    (renderNodes ns).toList ++ x = (renderNodes ms).toList ++ y →
    Node.eraseAll ns = Node.eraseAll ms ∧ x = y

section Decoding

variable {ns ms : List Node} {x y : List Char}

/-- The content of an element ends where its closing begins. -/
lemma content_cancel {e : Element} (hn : Clean (n :: ns)) (hm : Clean (m :: ms))
    (he : element? n = some e) (he' : element? m = some e) (ih : Decodable n.children)
    (h : e.content (valueOf n) n.children ++ (e.closing ++ x) =
      e.content (valueOf m) m.children ++ (e.closing ++ y)) :
    valueOf n = valueOf m ∧ Node.eraseAll n.children = Node.eraseAll m.children ∧ x = y := by
  cases hv : e.isVerbatim with
  | true =>
    have hrule : e ≠ .thematicBreak := by rintro rfl; cases hv
    rw [Element.content, Element.content, if_pos hv, if_pos hv] at h
    obtain ⟨hvalue, hclosing⟩ := text_cancel (lt_not_mem_valueOf hn.head_lint)
      (lt_not_mem_valueOf hm.head_lint) (ends_closing e hrule x).atTag
      (ends_closing e hrule y).atTag h
    rw [children_eq_nil he (.inl hv), children_eq_nil he' (.inl hv)]
    exact ⟨String.toList_inj.mp hvalue, rfl, List.append_cancel_left hclosing⟩
  | false =>
    rw [valueOf_eq_empty he hv, valueOf_eq_empty he' hv] at h ⊢
    refine ⟨rfl, ?_⟩
    rw [Element.content, Element.content, hv] at h
    by_cases hrule : e = .thematicBreak
    · subst hrule
      rw [children_eq_nil he (.inr rfl), children_eq_nil he' (.inr rfl)] at h ⊢
      exact ⟨rfl, h⟩
    · obtain ⟨hchildren, hclosing⟩ := ih m.children _ _ hn.children hm.children
        (ends_closing e hrule x) (ends_closing e hrule y) h
      exact ⟨hchildren, List.append_cancel_left hclosing⟩

lemma element_cancel (hn : Clean (n :: ns)) (hm : Clean (m :: ms)) (hnt : n.isText = false)
    (hmt : m.isText = false) (ih : Decodable n.children)
    (h : (renderNode n).toList ++ x = (renderNode m).toList ++ y) :
    n.erase = m.erase ∧ x = y := by
  obtain ⟨e, he⟩ := exists_element_of_checkNode hn.head_lint hnt
  obtain ⟨e', he'⟩ := exists_element_of_checkNode hm.head_lint hmt
  rw [toList_renderNode he, toList_renderNode he'] at h
  simp only [List.append_assoc] at h
  obtain ⟨rfl, htarget⟩ := opening_cancel h
  obtain ⟨hlink, hcontent⟩ := target_cancel (quote_not_mem_urlOf hn.head_lint)
    (quote_not_mem_urlOf hm.head_lint) htarget
  have hurl : urlOf n = urlOf m := by
    by_cases hl : e = .link
    · exact hlink hl
    · rw [urlOf_eq_empty he hl, urlOf_eq_empty he' hl]
  obtain ⟨hvalue, hchildren, hxy⟩ := content_cancel hn hm he he' ih hcontent
  rw [erase_eq_node he, erase_eq_node he', hurl, hvalue, hchildren]
  exact ⟨rfl, hxy⟩

/-- Whether there are more siblings shows in the line break between them. -/
lemma behind_cancel (hns : Clean ns) (hms : Clean ms) (hx : Ends x) (hy : Ends y)
    (ih : Decodable ns) (h : behind ns ++ x = behind ms ++ y) :
    Node.eraseAll ns = Node.eraseAll ms ∧ x = y := by
  cases ns with
  | nil =>
    cases ms with
    | nil => exact ⟨rfl, h⟩
    | cons m ms =>
      have hx' : x = '\n' :: ((renderNodes (m :: ms)).toList ++ y) := h
      subst hx'
      rcases hx with hx | ⟨r, hx⟩ <;> cases hx
  | cons n ns =>
    cases ms with
    | nil =>
      have hy' : '\n' :: ((renderNodes (n :: ns)).toList ++ x) = y := h
      subst hy'
      rcases hy with hy | ⟨r, hy⟩ <;> cases hy
    | cons m ms => exact ih _ _ _ hns hms hx hy (List.cons.inj h).2

lemma not_ends_renderNodes (h : Clean (n :: ns)) (hn : n.isText = false) (x : List Char) :
    ¬Ends ((renderNodes (n :: ns)).toList ++ x) := by
  obtain ⟨e, z, hz⟩ := exists_opening h hn x
  rw [← hz]
  exact not_ends_opening e z

lemma lead_cancel (hns : Clean ns) (hms : Clean ms) (hx : Ends x) (hy : Ends y)
    (h : (renderNodes ns).toList ++ x = (renderNodes ms).toList ++ y) :
    lead ns = lead ms ∧ (renderNodes (fromElement ns)).toList ++ x =
      (renderNodes (fromElement ms)).toList ++ y := by
  rw [toList_renderNodes_lead ns, toList_renderNodes_lead ms, List.append_assoc,
    List.append_assoc] at h
  exact text_cancel (lt_not_mem_lead hns) (lt_not_mem_lead hms) (atTag_fromElement hns hx)
    (atTag_fromElement hms hy) h

/-- Clean siblings can be told from their markup. -/
theorem decodable (ns : List Node) : Decodable ns := by
  induction ns using Node.forest_induction with
  | nil =>
    intro ms x y hns hms hx hy h
    obtain ⟨hlead, hrest⟩ := lead_cancel hns hms hx hy h
    rcases fromElement_cases hms with hnil | ⟨m, ms', hcons, hm⟩
    · rw [hnil] at hrest
      exact ⟨eraseAll_eq_of_lead hns hms hlead (by rw [hnil]; rfl), hrest⟩
    · rw [hcons] at hrest
      have hx' : x = (renderNodes (m :: ms')).toList ++ y := hrest
      exact absurd (hx' ▸ hx) (not_ends_renderNodes (hcons ▸ hms.fromElement) hm y)
  | cons n ns ihc ih =>
    intro ms x y hns hms hx hy h
    obtain ⟨hlead, hrest⟩ := lead_cancel hns hms hx hy h
    have hfrom : Node.eraseAll (fromElement (n :: ns)) = Node.eraseAll (fromElement ms) ∧
        x = y := by
      cases hn : n.isText with
      | true =>
        obtain ⟨value, rfl⟩ := Node.exists_eq_text hn
        exact ih _ x y hns.tail hms.fromElement hx hy hrest
      | false =>
        rw [fromElement_of_element hn] at hrest ⊢
        rcases fromElement_cases hms with hnil | ⟨m, ms', hcons, hm⟩
        · rw [hnil] at hrest
          have hy' : (renderNodes (n :: ns)).toList ++ x = y := hrest
          exact absurd (hy'.symm ▸ hy) (not_ends_renderNodes hns hn x)
        · have hms' : Clean (m :: ms') := hcons ▸ hms.fromElement
          rw [hcons, toList_renderNodes_cons, toList_renderNodes_cons, List.append_assoc,
            List.append_assoc] at hrest
          obtain ⟨herase, hbehind⟩ := element_cancel hns hms' hn hm ihc hrest
          obtain ⟨htail, hxy⟩ := behind_cancel hns.tail hms'.tail hx hy ih hbehind
          rw [hcons, Node.eraseAll, Node.eraseAll, herase, htail]
          exact ⟨rfl, hxy⟩
    exact ⟨eraseAll_eq_of_lead hns hms hlead hfrom.1, hfrom.2⟩

end Decoding

end Html

/-- Documents without findings, in which no text is empty and no two texts are adjacent, are equal
up to what rendering leaves out if they are rendered alike. -/
theorem Document.erase_eq_of_render_eq (d₁ d₂ : Document) (lint₁ : d₁.lint = [])
    (lint₂ : d₂.lint = []) (filled₁ : d₁.EverySiblings Node.TextsFilled)
    (filled₂ : d₂.EverySiblings Node.TextsFilled) (apart₁ : d₁.EverySiblings Node.TextsApart)
    (apart₂ : d₂.EverySiblings Node.TextsApart) (h : d₁.render = d₂.render) :
    d₁.erase = d₂.erase := by
  have hclean₁ : Html.Clean d₁.children := ⟨lint₁, filled₁.1, filled₁.2, apart₁.1, apart₁.2⟩
  have hclean₂ : Html.Clean d₂.children := ⟨lint₂, filled₂.1, filled₂.2, apart₂.1, apart₂.2⟩
  have hchars : (Html.renderNodes d₁.children).toList ++ [] =
      (Html.renderNodes d₂.children).toList ++ [] := congrArg (fun s => s.toList ++ []) h
  have hdecoded := Html.decodable d₁.children d₂.children [] [] hclean₁ hclean₂ (.inl rfl)
    (.inl rfl) hchars
  exact congrArg Document.mk hdecoded.1

/-- A list that starts at three and one that starts at one differ only in what is left out. -/
theorem Document.erase_eq_of_render_eq_lists :
    let d (start : UInt64) (checked : Option Bool) (title : Option String) : Document :=
      ⟨[.heading 0 [.text "t\n"], .list true (some start) [.listItem checked
        [.text "\n\na", .link "u" title [.inlineCode ""], .code title "v", .thematicBreak]]]⟩
    let d₁ := d 3 (some true) (some "b")
    let d₂ := d 1 none none
    d₁.lint = [] ∧ d₂.lint = [] ∧
      d₁.EverySiblings Node.TextsFilled ∧ d₂.EverySiblings Node.TextsFilled ∧
      d₁.EverySiblings Node.TextsApart ∧ d₂.EverySiblings Node.TextsApart ∧
      d₁.render = d₂.render ∧ d₁.erase = d₂.erase := by
  intro d d₁ d₂
  have lint₁ : d₁.lint = [] := rfl
  have lint₂ : d₂.lint = [] := rfl
  have filled (start checked title) : (d start checked title).EverySiblings Node.TextsFilled := by
    simp [d, Document.EverySiblings, Node.TextsFilled, Node.EverySiblings,
      Node.EverySiblingsBelow]
  have apart (start checked title) : (d start checked title).EverySiblings Node.TextsApart := by
    simp [d, Document.EverySiblings, Node.TextsApart, Node.EverySiblings,
      Node.EverySiblingsBelow, Node.isText]
  have hrender : d₁.render = d₂.render := rfl
  exact ⟨lint₁, lint₂, filled .., filled .., apart .., apart .., hrender,
    erase_eq_of_render_eq d₁ d₂ lint₁ lint₂ (filled ..) (filled ..) (apart ..) (apart ..) hrender⟩

end Folio
