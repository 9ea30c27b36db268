import Folio.Document
import Mathlib.Data.List.Chain
import Mathlib.Tactic.Lemma

/-!
# Siblings

What holds of all lists of siblings in a document, and induction on forests: a property of lists of
nodes is proved for a list from the children of its first node and from its tail.
-/

namespace Folio

namespace Node

def isText : Node → Bool
  | text _ => true
  | _ => false

mutual

/-- A property of all lists of siblings below a node. -/
def EverySiblings (P : List Node → Prop) : Node → Prop
  | heading _ cs | paragraph cs | blockquote cs | list _ _ cs | listItem _ cs | table cs
  | tableRow cs | tableCell cs | strong cs | emphasis cs | link _ _ cs | delete cs
  | footnoteDefinition _ cs => P cs ∧ EverySiblingsBelow P cs
  | _ => True

def EverySiblingsBelow (P : List Node → Prop) : List Node → Prop
  | [] => True
  | n :: ns => n.EverySiblings P ∧ EverySiblingsBelow P ns

end

def TextsApart (ns : List Node) : Prop :=
  ns.IsChain fun n m => ¬(n.isText = true ∧ m.isText = true)

def TextsFilled (ns : List Node) : Prop :=
  Node.text "" ∉ ns

end Node

/-- A property of all lists of siblings in a document, the top level included. -/
def Document.EverySiblings (P : List Node → Prop) (d : Document) : Prop :=
  P d.children ∧ Node.EverySiblingsBelow P d.children

namespace Node

lemma exists_eq_text {n : Node} (h : n.isText = true) : ∃ value, n = text value := by
  cases n with
  | text value => exact ⟨value, rfl⟩
  | _ => cases h

lemma EverySiblings.children {P : List Node → Prop} {n : Node} (hnil : P [])
    (h : n.EverySiblings P) : P n.children ∧ EverySiblingsBelow P n.children := by
  cases n <;> first | exact h | exact ⟨hnil, trivial⟩

section Induction

variable {P : List Node → Prop}

mutual

lemma forest_induction_children (nil : P [])
    (cons : ∀ n ns, P n.children → P ns → P (n :: ns)) (n : Node) : P n.children := by
  cases n with
  | heading _ cs | paragraph cs | blockquote cs | list _ _ cs | listItem _ cs | table cs
  | tableRow cs | tableCell cs | strong cs | emphasis cs | link _ _ cs | delete cs
  | footnoteDefinition _ cs => exact forest_induction nil cons cs
  | _ => exact nil

/-- Induction on a forest: the first node by its children, and the nodes behind it. -/
@[elab_as_elim]
theorem forest_induction (nil : P []) (cons : ∀ n ns, P n.children → P ns → P (n :: ns))
    (ns : List Node) : P ns := by
  cases ns with
  | nil => exact nil
  | cons n ns =>
    exact cons n ns (forest_induction_children nil cons n) (forest_induction nil cons ns)

end

end Induction

end Node

end Folio
