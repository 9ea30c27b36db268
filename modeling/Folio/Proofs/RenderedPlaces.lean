import Folio.Proofs.LintFindings

/-!
# Places in rendered documents

A document with a place left open in it renders to a fixed text around the markup of what is put
there, unless the place is in a container that is dropped. Then nothing that is put there shows.
-/

namespace Folio

namespace Node

/-- A container without what is in it. -/
inductive Container where
  | heading (level : UInt8)
  | paragraph
  | blockquote
  | list (ordered : Bool) (start : Option UInt64)
  | listItem (checked : Option Bool)
  | table
  | tableRow
  | tableCell
  | strong
  | emphasis
  | link (url : String) (title : Option String)
  | delete
  | footnoteDefinition (label : String)

def Container.node : Container → List Node → Node
  | heading level, cs => .heading level cs
  | paragraph, cs => .paragraph cs
  | blockquote, cs => .blockquote cs
  | list ordered start, cs => .list ordered start cs
  | listItem checked, cs => .listItem checked cs
  | table, cs => .table cs
  | tableRow, cs => .tableRow cs
  | tableCell, cs => .tableCell cs
  | strong, cs => .strong cs
  | emphasis, cs => .emphasis cs
  | link url title, cs => .link url title cs
  | delete, cs => .delete cs
  | footnoteDefinition label, cs => .footnoteDefinition label cs

/-- A place in a forest: between two siblings there, or in a container of it. -/
inductive Place where
  | here (before after : List Node)
  | within (before : List Node) (container : Container) (place : Place) (after : List Node)

namespace Place

/-- The forest with some nodes in the place. -/
def fill (ns : List Node) : Place → List Node
  | here before after => before ++ ns ++ after
  | within before container place after => before ++ container.node (place.fill ns) :: after

def document (p : Place) (ns : List Node) : Document :=
  ⟨p.fill ns⟩

/-- The siblings in front of the place. -/
def before : Place → List Node
  | here before _ => before
  | within _ _ place _ => place.before

/-- The siblings behind the place. -/
def after : Place → List Node
  | here _ after => after
  | within _ _ place _ => place.after

/-- The place is below a node of a dropped kind. -/
def IsHidden : Place → Prop
  | here .. => False
  | within _ container place _ => (∀ cs, (container.node cs).IsDropped) ∨ place.IsHidden

/-- The place in the same forest with one more node in front. -/
def shift (n : Node) : Place → Place
  | here before after => here (n :: before) after
  | within before container place after => within (n :: before) container place after

end Place

end Node

namespace Html

section Siblings

def markups (ns : List Node) : List String :=
  ns.map renderNode

lemma markups_append (ns ms : List Node) : markups (ns ++ ms) = markups ns ++ markups ms :=
  List.map_append

lemma renderNodes_eq_intercalate (ns : List Node) :
    renderNodes ns = "\n".intercalate (markups ns) := by
  match ns with
  | [] => rfl
  | [n] => exact (String.intercalate_singleton ..).symm
  | n :: m :: ns =>
    change renderNode n ++ "\n" ++ renderNodes (m :: ns) = _
    rw [renderNodes_eq_intercalate (m :: ns)]
    exact (String.intercalate_cons_cons ..).symm

/-- One of several joined texts stands between two texts that do not depend on it. -/
lemma exists_around_intercalate (sep : String) (xs ys : List String) :
    ∃ front back, ∀ y, sep.intercalate (xs ++ y :: ys) = front ++ y ++ back := by
  induction xs with
  | nil =>
    cases ys with
    | nil => exact ⟨"", "", fun y => by simp⟩
    | cons z ys =>
      refine ⟨"", sep ++ sep.intercalate (z :: ys), fun y => ?_⟩
      rw [List.nil_append, String.intercalate_cons_cons, String.empty_append, String.append_assoc]
  | cons x xs ih =>
    obtain ⟨front, back, h⟩ := ih
    refine ⟨x ++ sep ++ front, back, fun y => ?_⟩
    rw [List.cons_append, String.intercalate_cons_of_ne_nil (by simp), h]
    simp only [String.append_assoc]

lemma exists_around_renderNodes (before after : List Node) :
    ∃ front back, ∀ n, renderNodes (before ++ n :: after) = front ++ renderNode n ++ back := by
  obtain ⟨front, back, h⟩ := exists_around_intercalate "\n" (markups before) (markups after)
  refine ⟨front, back, fun n => ?_⟩
  rw [renderNodes_eq_intercalate, markups_append]
  exact h (renderNode n)

end Siblings

end Html

namespace Node

open Html

section Containers

lemma isDropped_container (k : Container) (cs ds : List Node) :
    (k.node cs).isDropped = (k.node ds).isDropped := by
  cases k <;> rfl

lemma forall_isDropped_iff (k : Container) (cs : List Node) :
    (∀ ds, (k.node ds).IsDropped) ↔ (k.node cs).IsDropped := by
  refine ⟨fun h => h cs, fun h ds => ?_⟩
  rw [← isDropped_iff, isDropped_container k ds cs]
  exact isDropped_iff.mpr h

/-- What is in a container that is not dropped stands between its tags. -/
lemma exists_around_container {k : Container} (h : ¬∀ cs, (k.node cs).IsDropped) :
    ∃ opening closing, ∀ cs, renderNode (k.node cs) = opening ++ renderNodes cs ++ closing := by
  have helement (tag : String) : ∃ opening closing, ∀ cs,
      element tag (renderNodes cs) = opening ++ renderNodes cs ++ closing :=
    ⟨"<" ++ tag ++ ">", "</" ++ tag ++ ">", fun cs => by simp only [element, String.append_assoc]⟩
  cases k with
  | delete => exact absurd (fun cs => isDropped_iff.mp rfl) h
  | footnoteDefinition => exact absurd (fun cs => isDropped_iff.mp rfl) h
  | list ordered start => cases ordered <;> exact helement _
  | link url title =>
    exact ⟨"<a href=\"" ++ url ++ "\">", "</a>", fun cs => rfl⟩
  | _ => exact helement _

lemma exists_container {n : Node} (h : n.children ≠ []) :
    ∃ k : Container, k.node n.children = n := by
  cases n with
  | heading level => exact ⟨.heading level, rfl⟩
  | paragraph => exact ⟨.paragraph, rfl⟩
  | blockquote => exact ⟨.blockquote, rfl⟩
  | list ordered start => exact ⟨.list ordered start, rfl⟩
  | listItem checked => exact ⟨.listItem checked, rfl⟩
  | table => exact ⟨.table, rfl⟩
  | tableRow => exact ⟨.tableRow, rfl⟩
  | tableCell => exact ⟨.tableCell, rfl⟩
  | strong => exact ⟨.strong, rfl⟩
  | emphasis => exact ⟨.emphasis, rfl⟩
  | link url title => exact ⟨.link url title, rfl⟩
  | delete => exact ⟨.delete, rfl⟩
  | footnoteDefinition label => exact ⟨.footnoteDefinition label, rfl⟩
  | _ => exact absurd rfl h

end Containers

namespace Place

lemma fill_shift (n : Node) (p : Place) (ns : List Node) :
    (p.shift n).fill ns = n :: p.fill ns := by
  cases p <;> rfl

lemma isHidden_shift (n : Node) (p : Place) : (p.shift n).IsHidden ↔ p.IsHidden := by
  cases p <;> rfl

/-- Every node of a forest is in a place of it, which is hidden if rendering does not come to the
node. -/
lemma exists_of_mem_visitsOf {above ns : List Node} {v : Visit} (h : v ∈ visitsOf above ns) :
    ∃ p : Place, p.fill [v.node] = ns ∧
      (v.IsReached ↔ ¬p.IsHidden ∧ ∀ n ∈ above, ¬n.IsDropped) := by
  induction ns using forest_induction generalizing above with
  | nil => cases h
  | cons n ns ihchildren ihtail =>
    rw [visitsOf, visits_eq, List.cons_append, List.mem_cons, List.mem_append] at h
    rcases h with rfl | hchild | hbehind
    · exact ⟨here [] ns, rfl, by simp [IsHidden, Visit.IsReached]⟩
    · obtain ⟨p, hfill, hreached⟩ := ihchildren hchild
      have hne : n.children ≠ [] := by
        intro hnil
        rw [hnil] at hchild
        cases hchild
      obtain ⟨k, hk⟩ := exists_container hne
      refine ⟨within [] k p ns, ?_, ?_⟩
      · rw [fill, hfill, hk, List.nil_append]
      · rw [hreached, IsHidden, forall_isDropped_iff k n.children, hk, List.forall_mem_cons, not_or]
        tauto
    · obtain ⟨p, hfill, hreached⟩ := ihtail hbehind
      exact ⟨p.shift n, by rw [fill_shift, hfill], by rw [isHidden_shift, hreached]⟩

lemma renderNodes_fill_of_isHidden {p : Place} (h : p.IsHidden) (ns ms : List Node) :
    renderNodes (p.fill ns) = renderNodes (p.fill ms) := by
  induction p with
  | here => cases h
  | within before k p after ih =>
    obtain ⟨front, back, haround⟩ := exists_around_renderNodes before after
    rw [fill, fill, haround, haround]
    by_cases hdropped : ∀ cs, (k.node cs).IsDropped
    · rw [hdropped _ _ rfl, hdropped _ _ rfl]
    · obtain ⟨opening, closing, htags⟩ := exists_around_container hdropped
      rw [htags, htags, ih (h.resolve_left hdropped)]

/-- Around the siblings at a place that is not hidden there are two texts that do not depend on
them. -/
lemma exists_around_fill {p : Place} (h : ¬p.IsHidden) :
    ∃ front back, ∀ ns, renderNodes (p.fill ns) =
      front ++ "\n".intercalate (markups (p.before ++ ns ++ p.after)) ++ back := by
  induction p with
  | here before after =>
    refine ⟨"", "", fun ns => ?_⟩
    rw [String.empty_append, String.append_empty]
    exact renderNodes_eq_intercalate _
  | within outer k p rest ih =>
    obtain ⟨hkept, hp⟩ := not_or.mp h
    obtain ⟨front, back, hfill⟩ := ih hp
    obtain ⟨opening, closing, htags⟩ := exists_around_container hkept
    obtain ⟨first, last, haround⟩ := exists_around_renderNodes outer rest
    refine ⟨first ++ opening ++ front, back ++ closing ++ last, fun ns => ?_⟩
    rw [fill, haround, htags, hfill]
    simp only [before, after, String.append_assoc]

end Place

end Node

open Html Node

/-- Each node of a document is in a place of it, and each place is either hidden, so that nothing in
it shows, or has a fixed text in front of the markup of what is in it and one behind. A dropped node
there is an empty text among those that are joined for its siblings, which stay as they are. -/
theorem Document.render_around_place :
    (∀ d : Document, ∀ v ∈ visitsOf [] d.children,
      ∃ p : Place, p.document [v.node] = d ∧ (p.IsHidden ↔ ¬v.IsReached)) ∧
    ∀ p : Place,
      (p.IsHidden ∧ ∀ ns ms, (p.document ns).render = (p.document ms).render) ∨
      (¬p.IsHidden ∧
        (∃ front back, ∀ n, (p.document [n]).render = front ++ renderNode n ++ back) ∧
        ∃ front back,
          (p.document []).render =
            front ++ "\n".intercalate (markups p.before ++ markups p.after) ++ back ∧
          ∀ n : Node, n.IsDropped → (p.document [n]).render =
            front ++ "\n".intercalate (markups p.before ++ "" :: markups p.after) ++ back) := by
  refine ⟨fun d v hv => ?_, fun p => ?_⟩
  · obtain ⟨p, hfill, hreached⟩ := Place.exists_of_mem_visitsOf hv
    refine ⟨p, congrArg Document.mk hfill, ?_⟩
    rw [hreached]
    simp
  · by_cases hhidden : p.IsHidden
    · exact .inl ⟨hhidden, fun ns ms => Place.renderNodes_fill_of_isHidden hhidden ns ms⟩
    · obtain ⟨front, back, hfill⟩ := Place.exists_around_fill hhidden
      have hnode (n : Node) : (p.document [n]).render = front ++
          "\n".intercalate (markups p.before ++ renderNode n :: markups p.after) ++ back := by
        have hn := hfill [n]
        rw [markups_append, markups_append, List.append_assoc] at hn
        exact hn
      refine .inr ⟨hhidden, ?_, front, back, ?_, fun n hn => ?_⟩
      · obtain ⟨first, last, haround⟩ :=
          exists_around_intercalate "\n" (markups p.before) (markups p.after)
        refine ⟨front ++ first, last ++ back, fun n => ?_⟩
        rw [hnode, haround]
        simp only [String.append_assoc]
      · have hempty := hfill []
        rw [List.append_nil, markups_append] at hempty
        exact hempty
      · rw [hnode, hn n rfl]

end Folio
