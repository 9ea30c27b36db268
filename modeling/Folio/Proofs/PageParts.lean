import Folio.Proofs.Escaping
import Mathlib.Data.List.Infix

/-!
# What a page shows

A page is written from five parts: its language, its title, its description and its address, which
may both be missing, and its fragment. The first four are escaped, so that each of them ends where
the template goes on, and the fragment is what is left; the parts can be told from the page.
-/

namespace Folio

namespace Page

def pageOpening : String := "<!DOCTYPE html>\n<html lang=\""

/-- The end of an attribute and of its tag. -/
def slotClosing : String := "\">"

/-- What stands between the tag with the language and the title. -/
def headOpening : String :=
  "\n<head>\n" ++ "    <meta charset=\"utf-8\">\n" ++
    "    <meta name=\"viewport\" content=\"width=device-width, initial-scale=1\">\n" ++
    "    <meta name=\"generator\" content=\"mdseo " ++ version ++ "\">\n" ++ "    <title>"

def titleClosing : String := "</title>"

def descriptionOpening : String := "\n    <meta name=\"description\" content=\""

def canonicalOpening : String := "\n    <link rel=\"canonical\" href=\""

/-- What stands between the last tag of metadata and the fragment. -/
def bodyOpening : String := "\n</head>\n<body>\n<article class=\"mdseo\">\n"

def bodyClosing : String := "\n</article>\n</body>\n</html>"

/-- An optional tag that begins with `opening` and holds an escaped text. -/
def optionalTag (opening : String) : Option String → String
  | some text => opening ++ (escape text ++ slotClosing)
  | none => ""

section Template

lemma descriptionTag_eq (text : Option String) :
    descriptionTag text = optionalTag descriptionOpening text := by
  cases text with
  | none => rfl
  | some text => exact String.append_assoc

lemma canonicalTag_eq (url : Option String) :
    canonicalTag url = optionalTag canonicalOpening url := by
  cases url with
  | none => rfl
  | some url => exact String.append_assoc

/-- A page, part by part. -/
lemma page_eq (d : Document) (settings : PageSettings) :
    d.page settings = pageOpening ++ (escape (lang settings) ++ (slotClosing ++ (headOpening ++
      (escape (title d settings) ++ (titleClosing ++ (optionalTag descriptionOpening
        settings.description ++ (optionalTag canonicalOpening settings.canonicalUrl ++
          (bodyOpening ++ (d.render ++ bodyClosing))))))))) := by
  have hclosing : "\">\n<head>\n" = slotClosing ++ "\n<head>\n" := by decide +kernel
  unfold Document.page headOpening
  rw [hclosing, descriptionTag_eq, canonicalTag_eq]
  simp only [String.append_assoc]
  rfl

lemma toList_slotClosing : slotClosing.toList = ['"', '>'] := by decide +kernel

lemma toList_titleClosing : titleClosing.toList = '<' :: "/title>".toList := by decide +kernel

end Template

section Slots

variable {s t : String} {x y : List Char}

/-- An escaped text ends at the first quotation mark or bracket. -/
lemma slot_cancel {c : Char} (hc : c = '<' ∨ c = '>' ∨ c = '"')
    (h : (escape s).toList ++ c :: x = (escape t).toList ++ c :: y) : s = t ∧ x = y := by
  obtain ⟨hst, hxy⟩ := delimiter_cancel (notMem_escape hc s) (notMem_escape hc t) h
  exact ⟨escape_injective (String.toList_inj.mp hst), hxy⟩

lemma attribute_cancel (h : (escape s).toList ++ (slotClosing.toList ++ x) =
    (escape t).toList ++ (slotClosing.toList ++ y)) : s = t ∧ x = y := by
  rw [toList_slotClosing] at h
  obtain ⟨hst, hxy⟩ := slot_cancel (.inr (.inr rfl)) h
  exact ⟨hst, (List.cons.inj hxy).2⟩

lemma title_cancel (h : (escape s).toList ++ (titleClosing.toList ++ x) =
    (escape t).toList ++ (titleClosing.toList ++ y)) : s = t ∧ x = y := by
  rw [toList_titleClosing] at h
  obtain ⟨hst, hxy⟩ := slot_cancel (.inl rfl) h
  exact ⟨hst, List.append_cancel_left hxy⟩

/-- Whether an optional tag is there shows in how the page goes on. -/
lemma optionalTag_cancel {opening : String} {u v : Option String} (hx : ¬opening.toList <+: x)
    (hy : ¬opening.toList <+: y)
    (h : (optionalTag opening u).toList ++ x = (optionalTag opening v).toList ++ y) :
    u = v ∧ x = y := by
  cases u with
  | none =>
    cases v with
    | none => exact ⟨rfl, h⟩
    | some t =>
      rw [optionalTag, optionalTag, String.toList_append, List.append_assoc] at h
      exact absurd ⟨_, h.symm⟩ hx
  | some s =>
    cases v with
    | none =>
      rw [optionalTag, optionalTag, String.toList_append, List.append_assoc] at h
      exact absurd ⟨_, h⟩ hy
    | some t =>
      simp only [optionalTag, String.toList_append, List.append_assoc] at h
      obtain ⟨rfl, hxy⟩ := attribute_cancel (List.append_cancel_left h)
      exact ⟨rfl, hxy⟩

lemma not_prefix_append {u v : List Char} (huv : ¬u <+: v) (hvu : ¬v <+: u) (x : List Char) :
    ¬u <+: v ++ x := by
  intro h
  rcases List.prefix_or_prefix_of_prefix h (List.prefix_append v x) with hprefix | hprefix
  · exact huv hprefix
  · exact hvu hprefix

lemma not_canonical_prefix (x : List Char) :
    ¬canonicalOpening.toList <+: bodyOpening.toList ++ x :=
  not_prefix_append (by decide +kernel) (by decide +kernel) x

/-- Behind a missing description there is the tag of the address, or the body begins. -/
lemma not_description_prefix (url : Option String) (x : List Char) :
    ¬descriptionOpening.toList <+:
      (optionalTag canonicalOpening url).toList ++ (bodyOpening.toList ++ x) := by
  cases url with
  | none => exact not_prefix_append (by decide +kernel) (by decide +kernel) x
  | some url =>
    rw [optionalTag, String.toList_append, List.append_assoc]
    exact not_prefix_append (by decide +kernel) (by decide +kernel) _

end Slots

end Page

/-- Two pages are the same exactly if they show the same language, title, description, address and
fragment. -/
theorem Document.page_eq_page_iff (d₁ d₂ : Document) (s₁ s₂ : PageSettings) :
    d₁.page s₁ = d₂.page s₂ ↔
      Page.lang s₁ = Page.lang s₂ ∧ Page.title d₁ s₁ = Page.title d₂ s₂ ∧
        s₁.description = s₂.description ∧ s₁.canonicalUrl = s₂.canonicalUrl ∧
          d₁.render = d₂.render := by
  rw [Page.page_eq, Page.page_eq]
  constructor
  · intro h
    have hchars := congrArg String.toList h
    simp only [String.toList_append] at hchars
    obtain ⟨hlang, hhead⟩ := Page.attribute_cancel (List.append_cancel_left hchars)
    obtain ⟨htitle, hmeta⟩ := Page.title_cancel (List.append_cancel_left hhead)
    obtain ⟨hdescription, hlink⟩ := Page.optionalTag_cancel
      (Page.not_description_prefix _ _) (Page.not_description_prefix _ _) hmeta
    obtain ⟨hcanonical, hbody⟩ := Page.optionalTag_cancel
      (Page.not_canonical_prefix _) (Page.not_canonical_prefix _) hlink
    have hfragment := List.append_cancel_right (List.append_cancel_left hbody)
    exact ⟨hlang, htitle, hdescription, hcanonical, String.toList_inj.mp hfragment⟩
  · rintro ⟨hlang, htitle, hdescription, hcanonical, hfragment⟩
    rw [hlang, htitle, hdescription, hcanonical, hfragment]

end Folio
