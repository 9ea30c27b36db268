import Folio.Lint
import Folio.Proofs.Siblings
import Mathlib.Data.List.FinRange
import Mathlib.Tactic.IntervalCases

/-!
# Elements

The markup of an element is its opening, for a link its target, its content and its closing. A node
without findings is either a text or an element whose parts contain no markup of their own.
-/

namespace Folio

namespace Html

/-- The kinds of elements, a heading with the number in its tag. -/
inductive Element where
  | heading (level : Fin 7)
  | paragraph
  | orderedList
  | bulletList
  | listItem
  | table
  | tableRow
  | tableCell
  | strong
  | emphasis
  | link
  | inlineCode
  | code
  | blockquote
  | thematicBreak
deriving DecidableEq

namespace Element

/-- How the markup of an element begins; a link goes on with its target. -/
def opening : Element → List Char
  | heading level => ['<', 'h', Char.ofNat (48 + level), '>']
  | paragraph => "<p>".toList
  | orderedList => "<ol>".toList
  | bulletList => "<ul>".toList
  | listItem => "<li>".toList
  | table => "<table>".toList
  | tableRow => "<tr>".toList
  | tableCell => "<td>".toList
  | strong => "<strong>".toList
  | emphasis => "<em>".toList
  | link => "<a href=\"".toList
  | inlineCode => "<code>".toList
  | code => "<pre><code>".toList
  | blockquote => "<blockquote>".toList
  | thematicBreak => "<hr />".toList

def closing : Element → List Char
  | heading level => ['<', '/', 'h', Char.ofNat (48 + level), '>']
  | paragraph => "</p>".toList
  | orderedList => "</ol>".toList
  | bulletList => "</ul>".toList
  | listItem => "</li>".toList
  | table => "</table>".toList
  | tableRow => "</tr>".toList
  | tableCell => "</td>".toList
  | strong => "</strong>".toList
  | emphasis => "</em>".toList
  | link => "</a>".toList
  | inlineCode => "</code>".toList
  | code => "</code></pre>".toList
  | blockquote => "</blockquote>".toList
  | thematicBreak => []

/-- The target of a link and the end of its tag. -/
def target (e : Element) (url : String) : List Char :=
  if e = link then url.toList ++ ['"', '>'] else []

/-- The content is a text that is inserted as it is. -/
def isVerbatim (e : Element) : Bool :=
  e = inlineCode || e = code

def content (e : Element) (value : String) (children : List Node) : List Char :=
  if e.isVerbatim then value.toList else (renderNodes children).toList

end Element

/-- The element of a node; text has none, nor has a heading without a tag of its own. -/
def element? : Node → Option Element
  | .heading level _ =>
    if h : level.toNat < 7 then some (.heading ⟨level.toNat, h⟩) else none
  | .paragraph _ => some .paragraph
  | .list true .. => some .orderedList
  | .list false .. => some .bulletList
  | .listItem .. => some .listItem
  | .table _ => some .table
  | .tableRow _ => some .tableRow
  | .tableCell _ => some .tableCell
  | .strong _ => some .strong
  | .emphasis _ => some .emphasis
  | .link .. => some .link
  | .inlineCode _ => some .inlineCode
  | .code .. => some .code
  | .blockquote _ => some .blockquote
  | .thematicBreak => some .thematicBreak
  | _ => none

def urlOf : Node → String
  | .link url _ _ => url
  | _ => ""

def valueOf : Node → String
  | .inlineCode value | .code _ value => value
  | _ => ""

namespace Element

def all : List Element :=
  (List.finRange 7).map heading ++ [paragraph, orderedList, bulletList, listItem, table, tableRow,
    tableCell, strong, emphasis, link, inlineCode, code, blockquote, thematicBreak]

lemma mem_all (e : Element) : e ∈ all := by
  cases e <;> simp [all, List.mem_finRange]

/-- Openings are a prefix code. -/
lemma eq_of_opening_prefix {e e' : Element} (h : e.opening <+: e'.opening) : e = e' := by
  have hall : ∀ e ∈ all, ∀ e' ∈ all, e.opening.isPrefixOf e'.opening = true → e = e' := by
    decide +kernel
  exact hall e e.mem_all e' e'.mem_all (List.isPrefixOf_iff_prefix.mpr h)

end Element

section Parts

variable {n : Node} {e : Element}

lemma toList_headingTag {level : UInt8} (h : level.toNat < 7) :
    (headingTag level).toList = ['h', Char.ofNat (48 + level.toNat)] := by
  have hmin : min level maxHeadingLevel = level := if_pos (Nat.le_of_lt_succ h)
  rw [headingTag, hmin]
  generalize level.toNat = k at h
  interval_cases k <;> rfl

lemma toList_element (tag body : String) :
    (element tag body).toList = ('<' :: tag.toList ++ ['>']) ++
      (body.toList ++ ('<' :: '/' :: tag.toList ++ ['>'])) := by
  simp [element]

lemma element?_heading {level : UInt8} {cs : List Node}
    (h : element? (.heading level cs) = some e) :
    ∃ hlevel : level.toNat < 7, e = .heading ⟨level.toNat, hlevel⟩ := by
  rw [element?] at h
  split at h
  · next hlevel => exact ⟨hlevel, (Option.some.inj h).symm⟩
  · cases h

/-- The markup of an element, part by part. -/
lemma toList_renderNode (h : element? n = some e) :
    (renderNode n).toList = e.opening ++ (e.target (urlOf n) ++
      (e.content (valueOf n) n.children ++ e.closing)) := by
  cases n with
  | heading level cs =>
    obtain ⟨hlevel, rfl⟩ := element?_heading h
    rw [renderNode, toList_element, toList_headingTag hlevel]
    rfl
  | list ordered start cs =>
    cases ordered <;> cases h <;> rw [renderNode, toList_element] <;> rfl
  | link url title cs =>
    cases h
    rw [Element.target, if_pos rfl]
    simp only [renderNode, String.toList_append, List.append_assoc]
    rfl
  | code lang value =>
    cases h
    rw [renderNode, String.toList_append, String.toList_append, toList_element]
    simp only [List.append_assoc]
    rfl
  | thematicBreak => cases h; rfl
  | _ => cases h <;> rw [renderNode, toList_element] <;> rfl

lemma urlOf_eq_empty (h : element? n = some e) (he : e ≠ .link) : urlOf n = "" := by
  cases n <;> first | rfl | exact absurd (Option.some.inj h).symm he

lemma valueOf_eq_empty (h : element? n = some e) (he : e.isVerbatim = false) : valueOf n = "" := by
  cases n <;> first | rfl | (cases h; cases he)

lemma children_eq_nil (h : element? n = some e)
    (he : e.isVerbatim = true ∨ e = .thematicBreak) : n.children = [] := by
  cases n with
  | heading level cs =>
    obtain ⟨hlevel, rfl⟩ := element?_heading h
    rcases he with he | he <;> cases he
  | list ordered start cs => cases ordered <;> cases h <;> rcases he with he | he <;> cases he
  | _ => cases h <;> first | rfl | (rcases he with he | he <;> cases he)

end Parts

section Findings

open Lint

variable {n : Node}

lemma hasMarkup_of_rawMarkup {what value : String} (h : rawMarkup what value = []) :
    hasMarkup value = false := by
  unfold rawMarkup at h
  split at h
  · cases h
  · next hvalue => simpa using hvalue

lemma not_mem_of_hasMarkup {value : String} (h : hasMarkup value = false) {c : Char}
    (hc : isMarkup c = true) : c ∉ value.toList := by
  intro hmem
  have hany : hasMarkup value = true := List.any_eq_true.mpr ⟨c, hmem, hc⟩
  rw [h] at hany
  cases hany

/-- A node without findings is a text or an element. -/
lemma exists_element_of_checkNode (h : checkNode n = []) (hn : n.isText = false) :
    ∃ e, element? n = some e := by
  cases n with
  | heading level cs =>
    have hlevel : ¬ level > maxHeadingLevel := by
      intro hgt
      rw [checkNode, if_pos hgt] at h
      cases h
    exact ⟨_, dif_pos (Nat.lt_succ_of_le (Nat.le_of_not_lt hlevel))⟩
  | list ordered start cs => cases ordered <;> exact ⟨_, rfl⟩
  | text value => cases hn
  | delete | image | «break» | html | math | inlineMath | footnoteReference
  | footnoteDefinition | unknown => cases h
  | _ => exact ⟨_, rfl⟩

lemma checkNodes_children (h : checkNode n = []) : checkNodes n.children = [] := by
  cases n with
  | heading level cs => exact (List.append_eq_nil_iff.mp h).2
  | link url title cs => exact (List.append_eq_nil_iff.mp h).2
  | delete | footnoteDefinition => cases h
  | paragraph | blockquote | list | listItem | table | tableRow | tableCell | strong
  | emphasis => exact h
  | _ => rfl

lemma quote_not_mem_urlOf (h : checkNode n = []) : '"' ∉ (urlOf n).toList := by
  cases n with
  | link url title cs =>
    have hurl := (List.append_eq_nil_iff.mp h).1
    split at hurl
    · cases hurl
    · exact not_mem_of_hasMarkup (hasMarkup_of_rawMarkup hurl) rfl
  | _ => exact List.not_mem_nil

lemma lt_not_mem_valueOf (h : checkNode n = []) : '<' ∉ (valueOf n).toList := by
  cases n with
  | inlineCode value => exact not_mem_of_hasMarkup (hasMarkup_of_rawMarkup h) rfl
  | code lang value => exact not_mem_of_hasMarkup (hasMarkup_of_rawMarkup h) rfl
  | _ => exact List.not_mem_nil

lemma lt_not_mem_text {value : String} (h : checkNode (.text value) = []) : '<' ∉ value.toList :=
  not_mem_of_hasMarkup (hasMarkup_of_rawMarkup h) rfl

end Findings

end Html

end Folio
