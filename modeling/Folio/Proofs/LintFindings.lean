import Folio.Lint
import Folio.Proofs.Escaping
import Folio.Proofs.Siblings

/-!
# What lint reports

The findings in a document are those in its nodes, in pre-order: at most one for a node, and none
for a node that stands in a dropped one. What is found in a node is told by its markup: `Remark`
relates nodes to findings by what rendering makes of them.
-/

namespace Folio

/-- A node of a document with the nodes that it stands in, the innermost one first. -/
structure Visit where
  above : List Node
  node : Node

namespace Node

mutual

/-- A node and then the nodes below it, in pre-order. -/
def visits (above : List Node) : Node → List Visit
  | n@(heading _ cs) | n@(paragraph cs) | n@(blockquote cs) | n@(list _ _ cs) | n@(listItem _ cs)
  | n@(table cs) | n@(tableRow cs) | n@(tableCell cs) | n@(strong cs) | n@(emphasis cs)
  | n@(link _ _ cs) | n@(delete cs) | n@(footnoteDefinition _ cs) =>
    ⟨above, n⟩ :: visitsOf (n :: above) cs
  | n => [⟨above, n⟩]

def visitsOf (above : List Node) : List Node → List Visit
  | [] => []
  | n :: ns => n.visits above ++ visitsOf above ns

end

lemma visits_eq (above : List Node) (n : Node) :
    n.visits above = ⟨above, n⟩ :: visitsOf (n :: above) n.children := by
  cases n <;> rfl

/-- No node of the same kind has any markup. -/
def IsDropped (n : Node) : Prop :=
  ∀ m : Node, m.ctorIdx = n.ctorIdx → Html.renderNode m = ""

def isDropped : Node → Bool
  | delete _ | image .. | .break | html _ | math _ | inlineMath _ | footnoteReference _
  | footnoteDefinition .. | unknown _ => true
  | _ => false

end Node

/-- No node that this one stands in is dropped. -/
def Visit.IsReached (v : Visit) : Prop :=
  ∀ n ∈ v.above, ¬n.IsDropped

section Kinds

variable {n m : Node}

/-- The dropped kinds are those behind the thematic break. -/
lemma Node.isDropped_eq (n : Node) : n.isDropped = decide (14 < n.ctorIdx) := by
  cases n <;> rfl

lemma renderNode_of_isDropped (h : n.isDropped = true) : Html.renderNode n = "" := by
  cases n with
  | delete | image | «break» | html | math | inlineMath | footnoteReference
  | footnoteDefinition | unknown => rfl
  | _ => cases h

lemma element_ne_empty (tag body : String) : Html.element tag body ≠ "" := by
  intro h
  have hchars := congrArg String.toList h
  simp [Html.element] at hchars

lemma exists_renderNode_ne (h : n.isDropped = false) :
    ∃ m : Node, m.ctorIdx = n.ctorIdx ∧ Html.renderNode m ≠ "" := by
  cases n with
  | text => exact ⟨.text "a", rfl, by decide⟩
  | thematicBreak => exact ⟨.thematicBreak, rfl, by decide +kernel⟩
  | list _ start cs => exact ⟨.list true start cs, rfl, element_ne_empty _ _⟩
  | link => exact ⟨.link "" none [], rfl, by decide +kernel⟩
  | code => exact ⟨.code none "", rfl, by decide +kernel⟩
  | heading level cs => exact ⟨.heading level cs, rfl, element_ne_empty _ _⟩
  | paragraph cs => exact ⟨.paragraph cs, rfl, element_ne_empty _ _⟩
  | blockquote cs => exact ⟨.blockquote cs, rfl, element_ne_empty _ _⟩
  | listItem checked cs => exact ⟨.listItem checked cs, rfl, element_ne_empty _ _⟩
  | table cs => exact ⟨.table cs, rfl, element_ne_empty _ _⟩
  | tableRow cs => exact ⟨.tableRow cs, rfl, element_ne_empty _ _⟩
  | tableCell cs => exact ⟨.tableCell cs, rfl, element_ne_empty _ _⟩
  | strong cs => exact ⟨.strong cs, rfl, element_ne_empty _ _⟩
  | emphasis cs => exact ⟨.emphasis cs, rfl, element_ne_empty _ _⟩
  | inlineCode value => exact ⟨.inlineCode value, rfl, element_ne_empty _ _⟩
  | _ => cases h

lemma Node.isDropped_iff : n.isDropped = true ↔ n.IsDropped := by
  constructor
  · intro h m hm
    apply renderNode_of_isDropped
    rw [isDropped_eq, hm, ← isDropped_eq, h]
  · intro h
    by_contra hkept
    obtain ⟨m, hm, hne⟩ := exists_renderNode_ne (eq_false_of_ne_true hkept)
    exact hne (h m hm)

end Kinds

namespace Lint

/-- Where in a node a value can stand, and what the place is called. -/
inductive Slot : String → (String → Node) → Prop where
  | text : Slot "text" Node.text
  | inlineCode : Slot "code" Node.inlineCode
  | code (lang : Option String) : Slot "code" (Node.code lang)
  | lang (value : String) : Slot "language" fun lang => .code (some lang) value
  | target (title : Option String) (cs : List Node) : Slot "link URL" fun url => .link url title cs
  | title (url : String) (cs : List Node) : Slot "title" fun title => .link url (some title) cs
  | source (alt : String) (title : Option String) : Slot "source" fun url => .image url alt title
  | alt (url : String) (title : Option String) : Slot "alternative" fun alt => .image url alt title
  | caption (url alt : String) : Slot "title" fun title => .image url alt (some title)
  | html : Slot "markup" Node.html
  | math : Slot "formula" Node.math
  | inlineMath : Slot "formula" Node.inlineMath
  | reference : Slot "label" Node.footnoteReference
  | definition (cs : List Node) : Slot "label" fun label => .footnoteDefinition label cs
  | name : Slot "name" Node.unknown

/-- Whatever the value is, the markup contains it as it is. -/
def Inserts (place : String → Node) : Prop :=
  ∃ before after : String, ∀ value, Html.renderNode (place value) = before ++ value ++ after

/-- What there is to report on a node, by its markup. -/
inductive Remark : Node → Diagnostic → Prop where
  | dropped {n : Node} (h : n.IsDropped) :
    Remark n ⟨.warning, "Node kind '" ++ n.kind ++ "' has no HTML output and is dropped",
      some "V001"⟩
  | lowered {level : UInt8} {number : Nat} {cs : List Node}
    (hmarkup : Html.renderNode (.heading level cs) =
      Html.element ("h" ++ toString number) (Html.renderNodes cs))
    (hne : number ≠ level.toNat) :
    Remark (.heading level cs) ⟨.warning, "Heading level " ++ toString level.toNat ++
      " is rendered as h" ++ toString number, some "V002"⟩
  | raw {what value : String} {place : String → Node} (hslot : Slot what place)
    (hinserts : Inserts place) (hmarkup : ∃ c ∈ value.toList, c ∈ ['<', '>', '&', '"']) :
    Remark (place value) ⟨.info, "Raw markup in " ++ what ++ " is inserted unescaped: " ++
      String.ofList (Text.quoted (value.toList.take 40)), some "V003"⟩
  | untargeted {url : String} {title : Option String} {cs : List Node}
    (hmarkup : Html.renderNode (.link url title cs) =
      "<a href=\"\">" ++ Html.renderNodes cs ++ "</a>") :
    Remark (.link url title cs) ⟨.warning, "Link has an empty URL", some "V004"⟩

/-- What is found in a node itself. -/
def own? : Node → Option Diagnostic
  | .heading level _ => if level > maxHeadingLevel then some (tooDeep level) else none
  | .link url _ _ => if url.isEmpty then some emptyUrl else (rawMarkup "link URL" url).head?
  | .text value => (rawMarkup "text" value).head?
  | .inlineCode value | .code _ value => (rawMarkup "code" value).head?
  | n => if n.isDropped then some (dropped n) else none

/-- What is found in a node where it stands. -/
def finding? (v : Visit) : Option Diagnostic :=
  if v.above.any Node.isDropped then none else own? v.node

section Walk

lemma toList_head?_rawMarkup (what value : String) :
    (rawMarkup what value).head?.toList = rawMarkup what value := by
  unfold rawMarkup
  split <;> rfl

lemma checkNode_eq (n : Node) :
    checkNode n = (own? n).toList ++ if n.isDropped then [] else checkNodes n.children := by
  cases n with
  | heading level cs =>
    simp only [checkNode, own?]
    split <;> rfl
  | link url title cs =>
    simp only [checkNode, own?]
    split
    · rfl
    · rw [toList_head?_rawMarkup]
      rfl
  | text value | inlineCode value | code lang value =>
    simp only [checkNode, own?, toList_head?_rawMarkup]
    exact (List.append_nil _).symm
  | _ => rfl

/-- The walk on a forest, wherever the forest stands. -/
lemma filterMap_visitsOf (above : List Node) (ns : List Node) :
    (Node.visitsOf above ns).filterMap finding? =
      if above.any Node.isDropped then [] else checkNodes ns := by
  -- The nodes below `n` stand in it too, so the statement is one for any nodes above.
  induction ns using Node.forest_induction generalizing above with
  | nil => simp [Node.visitsOf, checkNodes]
  | cons n ns ihchildren ihtail =>
    rw [Node.visitsOf, Node.visits_eq, List.cons_append, List.filterMap_cons, List.filterMap_append,
      ihchildren, ihtail, checkNodes, checkNode_eq]
    by_cases habove : above.any Node.isDropped = true
    · simp [finding?, habove]
    · have hbelow : (n :: above).any Node.isDropped = n.isDropped := by
        rw [List.any_cons, eq_false_of_ne_true habove, Bool.or_false]
      simp only [finding?, hbelow, eq_false_of_ne_true habove, Bool.false_eq_true, if_false]
      cases own? n <;> simp

end Walk

section Remarks

variable {n : Node} {x : Diagnostic} {what value url : String} {level : UInt8} {number : Nat}

lemma hasMarkup_iff : hasMarkup value = true ↔ ∃ c ∈ value.toList, c ∈ ['<', '>', '&', '"'] := by
  simp [hasMarkup, isMarkup, List.any_eq_true, or_assoc]

lemma head?_rawMarkup_eq_some_iff :
    (rawMarkup what value).head? = some x ↔ hasMarkup value = true ∧
      x = ⟨.info, "Raw markup in " ++ what ++ " is inserted unescaped: " ++
        String.ofList (Text.quoted (value.toList.take 40)), some "V003"⟩ := by
  unfold rawMarkup
  split
  · next h => exact ⟨fun hx => ⟨h, (Option.some.inj hx).symm⟩, fun hx => congrArg some hx.2.symm⟩
  · next h => exact ⟨nofun, fun hx => absurd hx.1 h⟩

/-- The number in the tag of a heading can be read off its markup. -/
lemma number_eq_of_element {number' : Nat} {body : String}
    (h : Html.element ("h" ++ toString number) body = Html.element ("h" ++ toString number') body) :
    number = number' := by
  have hdigits (k : Nat) : '>' ∉ Nat.toDigits 10 k := fun hmem =>
    absurd (Nat.isDigit_of_mem_toDigits (by decide) (by decide) hmem) (by decide)
  have hclose : ">".toList = ['>'] := rfl
  have hchars := congrArg String.toList h
  simp only [Html.element, String.toList_append, Nat.toString_eq_repr, Nat.toList_repr,
    List.append_assoc, hclose, List.singleton_append] at hchars
  have htag := List.append_cancel_left (List.append_cancel_left hchars)
  have hnumber := congrArg (Nat.ofDigitChars 10 · 0)
    (delimiter_cancel (hdigits _) (hdigits _) htag).1
  simpa only [Nat.ofDigitChars_ten_toDigits] using hnumber

/-- A heading is lowered to the deepest tag or keeps its level. -/
lemma lowered_iff (cs : List Node) :
    (Html.renderNode (.heading level cs) =
      Html.element ("h" ++ toString number) (Html.renderNodes cs) ∧ number ≠ level.toNat) ↔
      level > maxHeadingLevel ∧ number = maxHeadingLevel.toNat := by
  have hmarkup : Html.renderNode (.heading level cs) = Html.element
      ("h" ++ toString (min level maxHeadingLevel).toNat) (Html.renderNodes cs) := rfl
  rw [hmarkup]
  by_cases hdeep : level > maxHeadingLevel
  · have hmin : min level maxHeadingLevel = maxHeadingLevel := if_neg (UInt8.not_le.mpr hdeep)
    have hne : maxHeadingLevel.toNat ≠ level.toNat := (UInt8.lt_iff_toNat_lt.mp hdeep).ne
    rw [hmin]
    constructor
    · rintro ⟨h, -⟩
      exact ⟨hdeep, (number_eq_of_element h).symm⟩
    · rintro ⟨-, rfl⟩
      exact ⟨rfl, hne⟩
  · have hmin : min level maxHeadingLevel = level := if_pos (UInt8.not_lt.mp hdeep)
    rw [hmin]
    exact ⟨fun h => absurd (number_eq_of_element h.1).symm h.2, fun h => absurd h.1 hdeep⟩

lemma target_empty_iff {title : Option String} {cs : List Node} :
    Html.renderNode (.link url title cs) = "<a href=\"\">" ++ Html.renderNodes cs ++ "</a>" ↔
      url.isEmpty = true := by
  rw [String.isEmpty_iff]
  constructor
  · intro h
    have hlength := congrArg String.length h
    have hopening : "<a href=\"".length = 9 := by decide
    have hquote : "\">".length = 2 := by decide
    have hbare : "<a href=\"\">".length = 11 := by decide
    simp only [Html.renderNode, String.length_append, hopening, hquote, hbare] at hlength
    exact String.length_eq_zero_iff.mp (by omega)
  · rintro rfl
    rfl

lemma inserts_text : Inserts Node.text :=
  ⟨"", "", fun value => by simp only [Html.renderNode, String.empty_append, String.append_empty]⟩

lemma inserts_inlineCode : Inserts Node.inlineCode :=
  ⟨"<" ++ "code" ++ ">", "</" ++ "code" ++ ">", fun value => by
    simp only [Html.renderNode, Html.element, String.append_assoc]⟩

lemma inserts_code (lang : Option String) : Inserts (Node.code lang) :=
  ⟨"<pre>" ++ ("<" ++ "code" ++ ">"), "</" ++ "code" ++ ">" ++ "</pre>", fun value => by
    simp only [Html.renderNode, Html.element, String.append_assoc]⟩

lemma inserts_target (title : Option String) (cs : List Node) :
    Inserts fun url => .link url title cs :=
  ⟨"<a href=\"", "\">" ++ Html.renderNodes cs ++ "</a>", fun value => by
    simp only [Html.renderNode, String.append_assoc]⟩

lemma not_inserts_of_constant {place : String → Node}
    (h : ∀ s t, Html.renderNode (place s) = Html.renderNode (place t)) : ¬Inserts place := by
  rintro ⟨before, after, hinserts⟩
  have hmarkup := h "" "a"
  rw [hinserts, hinserts] at hmarkup
  have hlength := congrArg String.length hmarkup
  have hone : "a".length = 1 := by decide
  simp only [String.length_append, String.length_empty, hone] at hlength
  omega

lemma own?_of_inserts {place : String → Node} (hslot : Slot what place) (hinserts : Inserts place)
    (hmarkup : hasMarkup value = true) : own? (place value) = (rawMarkup what value).head? := by
  cases hslot with
  | text | inlineCode | code => rfl
  | target title cs =>
    apply if_neg
    rw [String.isEmpty_iff]
    rintro rfl
    cases hmarkup
  | _ => exact absurd hinserts (not_inserts_of_constant fun _ _ => rfl)

lemma own?_of_remark (h : Remark n x) : own? n = some x := by
  cases h with
  | dropped h =>
    have hdropped := Node.isDropped_iff.mpr h
    cases n with
    | delete | image | «break» | html | math | inlineMath | footnoteReference
    | footnoteDefinition | unknown => rfl
    | _ => cases hdropped
  | lowered hmarkup hne =>
    obtain ⟨hdeep, rfl⟩ := (lowered_iff _).mp ⟨hmarkup, hne⟩
    exact if_pos hdeep
  | raw hslot hinserts hmarkup =>
    have hraw := hasMarkup_iff.mpr hmarkup
    rw [own?_of_inserts hslot hinserts hraw]
    exact head?_rawMarkup_eq_some_iff.mpr ⟨hraw, rfl⟩
  | untargeted hmarkup => exact if_pos (target_empty_iff.mp hmarkup)

lemma remark_of_rawMarkup {place : String → Node} (hslot : Slot what place)
    (hinserts : Inserts place) (h : (rawMarkup what value).head? = some x) :
    Remark (place value) x := by
  obtain ⟨hraw, rfl⟩ := head?_rawMarkup_eq_some_iff.mp h
  exact .raw hslot hinserts (hasMarkup_iff.mp hraw)

lemma remark_of_own? (h : own? n = some x) : Remark n x := by
  cases n with
  | heading level cs =>
    obtain ⟨hdeep, hx⟩ := Option.ite_none_right_eq_some.mp h
    cases hx
    obtain ⟨hmarkup, hne⟩ := (lowered_iff cs).mpr ⟨hdeep, rfl⟩
    exact .lowered hmarkup hne
  | link url title cs =>
    simp only [own?] at h
    split at h
    · next hempty =>
      cases h
      exact .untargeted (target_empty_iff.mpr hempty)
    · exact remark_of_rawMarkup (.target title cs) (inserts_target title cs) h
  | text value => exact remark_of_rawMarkup .text inserts_text h
  | inlineCode value => exact remark_of_rawMarkup .inlineCode inserts_inlineCode h
  | code lang value => exact remark_of_rawMarkup (.code lang) (inserts_code lang) h
  | delete | image | «break» | html | math | inlineMath | footnoteReference
  | footnoteDefinition | unknown =>
    cases h
    exact .dropped (Node.isDropped_iff.mp rfl)
  | _ => cases h

theorem own?_eq_some_iff : own? n = some x ↔ Remark n x :=
  ⟨remark_of_own?, own?_of_remark⟩

end Remarks

lemma isReached_iff (v : Visit) : v.above.any Node.isDropped = false ↔ v.IsReached := by
  simp only [List.any_eq_false, Node.isDropped_iff, Visit.IsReached]

theorem finding?_eq_some_iff (v : Visit) (x : Diagnostic) :
    finding? v = some x ↔ v.IsReached ∧ Remark v.node x := by
  rw [← isReached_iff, ← own?_eq_some_iff, finding?]
  cases v.above.any Node.isDropped <;> simp

end Lint

/-- The findings are those of the nodes in pre-order, and a node has the finding that its markup
shows where rendering comes to it. -/
theorem Document.lint_eq_filterMap_visits (d : Document) :
    d.lint = (Node.visitsOf [] d.children).filterMap Lint.finding? ∧
      ∀ v x, Lint.finding? v = some x ↔ v.IsReached ∧ Lint.Remark v.node x := by
  refine ⟨?_, Lint.finding?_eq_some_iff⟩
  rw [Lint.filterMap_visitsOf]
  rfl

end Folio
