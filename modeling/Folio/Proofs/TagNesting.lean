import Folio.Proofs.Elements

/-!
# Tags of a fragment

`scan` reads the tags of any text, or fails on a character of markup that belongs to no tag. A
document without raw markup renders to a fragment whose tags are those of the rendered nodes of its
tree, each nested as its node is.
-/

namespace Folio

namespace Html

/-- A tag by what it does: it starts an element, a link with its target, or stops one, or stands for
a thematic break. -/
inductive Tag where
  | start (name : String) (target : Option String)
  | stop (name : String)
  | rule
deriving DecidableEq, Repr

namespace Tag

/-- What stands in a tag between `<` and `>`. -/
def chars : Tag → List Char
  | start name none => name.toList
  | start name (some url) => name.toList ++ " href=\"".toList ++ url.toList ++ ['"']
  | stop name => '/' :: name.toList
  | rule => "hr /".toList

/-- Every tag that starts an element has a tag that stops it, and what is between them is nested. -/
inductive Nested : List Tag → Prop where
  | nil : Nested []
  | rule {ts : List Tag} (after : Nested ts) : Nested (rule :: ts)
  | pair {name : String} {target : Option String} {inner ts : List Tag} (inside : Nested inner)
    (after : Nested ts) : Nested (start name target :: (inner ++ stop name :: ts))

/-- The tags of an element with some tags in it. -/
def enclosed (name : String) (target : Option String) (inner : List Tag) : List Tag :=
  start name target :: (inner ++ [stop name])

end Tag

open Folio.Html.Tag

/-- What stands in the tags of a text. The first argument holds what was read of a tag that is not
yet finished. There is no markup outside of tags, no tag within a tag, and no `&` at all. -/
def scan : Option (List Char) → List Char → Option (List (List Char))
  | none, [] => some []
  | some _, [] => none
  | none, c :: cs =>
    if c = '<' then scan (some []) cs
    else if c = '>' ∨ c = '"' ∨ c = '&' then none
    else scan none cs
  | some read, c :: cs =>
    if c = '>' then (scan none cs).map (read :: ·)
    else if c = '<' ∨ c = '&' then none
    else scan (some (read ++ [c])) cs

mutual

/-- The tags of a node: those of its element around those of its children, and none for text and
for the kinds that are not rendered. -/
def tags : Node → List Tag
  | .heading level cs => enclosed (headingTag level) none (tagsOf cs)
  | .paragraph cs => enclosed "p" none (tagsOf cs)
  | .blockquote cs => enclosed "blockquote" none (tagsOf cs)
  | .list ordered _ cs => enclosed (if ordered then "ol" else "ul") none (tagsOf cs)
  | .listItem _ cs => enclosed "li" none (tagsOf cs)
  | .table cs => enclosed "table" none (tagsOf cs)
  | .tableRow cs => enclosed "tr" none (tagsOf cs)
  | .tableCell cs => enclosed "td" none (tagsOf cs)
  | .strong cs => enclosed "strong" none (tagsOf cs)
  | .emphasis cs => enclosed "em" none (tagsOf cs)
  | .link url _ cs => enclosed "a" (some url) (tagsOf cs)
  | .inlineCode _ => enclosed "code" none []
  | .code _ _ => enclosed "pre" none (enclosed "code" none [])
  | .thematicBreak => [rule]
  | _ => []

def tagsOf : List Node → List Tag
  | [] => []
  | n :: ns => tags n ++ tagsOf ns

end

section Nesting

lemma Tag.Nested.append {ts us : List Tag} (hts : Nested ts) (hus : Nested us) :
    Nested (ts ++ us) := by
  induction hts with
  | nil => exact hus
  | rule _ ih => exact .rule ih
  | @pair name target inner ts inside _ _ ih =>
    rw [List.cons_append, List.append_assoc]
    exact .pair inside ih

lemma Tag.Nested.enclosed {ts : List Tag} (h : Nested ts) (name : String)
    (target : Option String) : Nested (enclosed name target ts) := .pair h .nil

lemma nested_tags {n : Node} (hchildren : Nested (tagsOf n.children)) : Nested (tags n) := by
  cases n with
  | inlineCode => exact Nested.nil.enclosed _ _
  | code => exact (Nested.nil.enclosed _ _).enclosed _ _
  | thematicBreak => exact .rule .nil
  | text | delete | image | «break» | html | math | inlineMath | footnoteReference
  | footnoteDefinition | unknown => exact .nil
  | _ => exact hchildren.enclosed _ _

lemma nested_tagsOf (ns : List Node) : Nested (tagsOf ns) := by
  induction ns using Node.forest_induction with
  | nil => exact .nil
  | cons n ns ihchildren ihtail => exact (nested_tags ihchildren).append ihtail

end Nesting

section Scanning

/-- A text has these tags, whatever comes after it. -/
def Scans (cs : List Char) (ts : List Tag) : Prop :=
  ∀ rest, scan none (cs ++ rest) = (scan none rest).map (ts.map chars ++ ·)

variable {cs ds : List Char} {ts us : List Tag}

lemma scans_nil : Scans [] [] := by
  intro rest
  simp

lemma Scans.append (hcs : Scans cs ts) (hds : Scans ds us) : Scans (cs ++ ds) (ts ++ us) := by
  intro rest
  rw [List.append_assoc, hcs, hds, Option.map_map]
  refine congrArg (Option.map · _) (funext fun found => ?_)
  simp

lemma scans_of_noMarkup (h : ∀ c ∈ cs, Lint.isMarkup c = false) : Scans cs [] := by
  induction cs with
  | nil => exact scans_nil
  | cons c cs ih =>
    intro rest
    have hc := h c List.mem_cons_self
    simp only [Lint.isMarkup, Bool.or_eq_false_iff, beq_eq_false_iff_ne] at hc
    obtain ⟨⟨⟨hlt, hgt⟩, hamp⟩, hquote⟩ := hc
    rw [List.cons_append, scan, if_neg hlt, if_neg (by simp [hgt, hamp, hquote])]
    exact ih (fun d hd => h d (List.mem_cons_of_mem c hd)) rest

/-- Characters that may stand in a tag. -/
def InTag (cs : List Char) : Prop :=
  ∀ c ∈ cs, c ≠ '<' ∧ c ≠ '>' ∧ c ≠ '&'

instance : DecidablePred InTag := fun cs => List.decidableBAll _ cs

lemma InTag.append (hcs : InTag cs) (hds : InTag ds) : InTag (cs ++ ds) := by
  intro c hc
  rcases List.mem_append.mp hc with hc | hc
  · exact hcs c hc
  · exact hds c hc

lemma scan_tag (hcs : InTag cs) (read rest : List Char) :
    scan (some read) (cs ++ '>' :: rest) = (scan none rest).map ((read ++ cs) :: ·) := by
  induction cs generalizing read with
  | nil => simp [scan]
  | cons c cs ih =>
    obtain ⟨hlt, hgt, hamp⟩ := hcs c List.mem_cons_self
    rw [List.cons_append, scan, if_neg hgt, if_neg (by simp [hlt, hamp]),
      ih fun d hd => hcs d (List.mem_cons_of_mem c hd)]
    simp

lemma scans_tag {t : Tag} (h : InTag t.chars) : Scans ('<' :: t.chars ++ ['>']) [t] := by
  intro rest
  rw [List.cons_append, List.cons_append, scan, if_pos rfl, List.append_assoc]
  exact scan_tag h [] rest

/-- The markup of an element whose start tag is `t`. -/
lemma Scans.element (h : Scans cs ts) (name : String) (target : Option String)
    (hstart : InTag (start name target).chars) (hname : InTag name.toList) :
    Scans ('<' :: (start name target).chars ++ ['>'] ++
      (cs ++ ('<' :: (stop name).chars ++ ['>']))) (enclosed name target ts) := by
  have hslash : InTag ['/'] := by decide
  have hstop : InTag (stop name).chars := hslash.append hname
  exact (scans_tag hstart).append (h.append (scans_tag hstop))

lemma Scans.named {body : String} (h : Scans body.toList ts) (name : String)
    (hname : InTag name.toList) :
    Scans (Html.element name body).toList (enclosed name none ts) := by
  rw [toList_element]
  exact h.element name none hname hname

lemma amp_notMem_of_scan {state : Option (List Char)} {found : List (List Char)}
    (h : scan state cs = some found) : '&' ∉ cs := by
  fun_induction scan state cs generalizing found with
  | case1 => exact List.not_mem_nil
  | case2 => cases h
  | case3 cs ih => exact List.not_mem_cons_of_ne_of_not_mem (by decide) (ih h)
  | case4 => cases h
  | case5 c cs _ hc ih =>
    exact List.not_mem_cons_of_ne_of_not_mem (fun heq => hc (.inr (.inr heq.symm))) (ih h)
  | case6 read cs ih =>
    obtain ⟨found', hfound, -⟩ := Option.map_eq_some_iff.mp h
    exact List.not_mem_cons_of_ne_of_not_mem (by decide) (ih hfound)
  | case7 => cases h
  | case8 read c cs _ hc ih =>
    exact List.not_mem_cons_of_ne_of_not_mem (fun heq => hc (.inr heq.symm)) (ih h)

end Scanning

section Fragments

open Lint

/-- No raw markup is reported. -/
def NoRaw (xs : List Diagnostic) : Prop :=
  ∀ x ∈ xs, x.code ≠ some "V003"

variable {n : Node} {ns : List Node}

lemma NoRaw.left {xs ys : List Diagnostic} (h : NoRaw (xs ++ ys)) : NoRaw xs :=
  fun x hx => h x (List.mem_append_left ys hx)

lemma NoRaw.right {xs ys : List Diagnostic} (h : NoRaw (xs ++ ys)) : NoRaw ys :=
  fun x hx => h x (List.mem_append_right xs hx)

lemma NoRaw.hasMarkup {what value : String} (h : NoRaw (rawMarkup what value)) :
    hasMarkup value = false := by
  unfold rawMarkup at h
  split at h
  · exact absurd rfl (h _ List.mem_cons_self)
  · next hvalue => exact eq_false_of_ne_true hvalue

lemma NoRaw.url {url : String} {title : Option String} {cs : List Node}
    (h : NoRaw (checkNode (.link url title cs))) : Lint.hasMarkup url = false := by
  have hurl := h.left
  split at hurl
  · next hempty =>
    rw [String.isEmpty_iff.mp hempty]
    rfl
  · exact hurl.hasMarkup

lemma isMarkup_of_hasMarkup {value : String} (h : hasMarkup value = false) :
    ∀ c ∈ value.toList, isMarkup c = false := by
  intro c hc
  exact eq_false_of_ne_true fun hmarkup => not_mem_of_hasMarkup h hmarkup hc

lemma inTag_headingTag (level : UInt8) : InTag (headingTag level).toList := by
  have hlevel : (min level maxHeadingLevel).toNat < 7 :=
    Nat.lt_succ_of_le (UInt8.le_iff_toNat_le.mp Std.min_le_right)
  rw [headingTag]
  generalize (min level maxHeadingLevel).toNat = k at hlevel
  interval_cases k <;> decide

lemma inTag_of_noMarkup (h : ∀ c ∈ cs, isMarkup c = false) : InTag cs := by
  intro c hc
  have hplain := h c hc
  simp only [isMarkup, Bool.or_eq_false_iff, beq_eq_false_iff_ne] at hplain
  exact ⟨hplain.1.1.1, hplain.1.1.2, hplain.1.2⟩

lemma inTag_start_link {url : String} (hurl : hasMarkup url = false) :
    InTag (start "a" (some url)).chars := by
  have hname : InTag "a".toList := by decide
  have htarget : InTag " href=\"".toList := by decide
  have hquote : InTag ['"'] := by decide
  have hinside := inTag_of_noMarkup (isMarkup_of_hasMarkup hurl)
  exact ((hname.append htarget).append hinside).append hquote

lemma scans_link {url : String} {ts : List Tag} {cs : List Char} (hurl : hasMarkup url = false)
    (hcs : Scans cs ts) :
    Scans ("<a href=\"".toList ++ (url.toList ++ ("\">".toList ++ (cs ++ "</a>".toList))))
      (enclosed "a" (some url) ts) := by
  have hlink := hcs.element "a" (some url) (inTag_start_link hurl) (by decide)
  simpa [chars] using hlink

/-- A node without raw markup has its tags, if its children have theirs. -/
lemma scans_renderNode (hn : NoRaw (checkNode n))
    (hchildren : NoRaw (checkNodes n.children) →
      Scans (renderNodes n.children).toList (tagsOf n.children)) :
    Scans (renderNode n).toList (tags n) := by
  cases n with
  | heading level cs => exact (hchildren hn.right).named _ (inTag_headingTag level)
  | link url title cs =>
    simp only [renderNode, String.toList_append, List.append_assoc]
    exact scans_link hn.url (hchildren hn.right)
  | list ordered start cs =>
    cases ordered <;> exact (hchildren hn).named _ (by decide)
  | text value => exact scans_of_noMarkup (isMarkup_of_hasMarkup hn.hasMarkup)
  | inlineCode value =>
    exact (scans_of_noMarkup (isMarkup_of_hasMarkup hn.hasMarkup)).named _ (by decide)
  | code lang value =>
    have hcode := (scans_of_noMarkup (isMarkup_of_hasMarkup hn.hasMarkup)).named "code" (by decide)
    have hpre : renderNode (.code lang value) = element "pre" (element "code" value) :=
      String.toList_inj.mp (by simp [renderNode, element])
    rw [hpre]
    exact hcode.named _ (by decide)
  | thematicBreak => exact scans_tag (t := rule) (by decide)
  | delete | image | «break» | html | math | inlineMath | footnoteReference
  | footnoteDefinition | unknown => exact scans_nil
  | _ => exact (hchildren hn).named _ (by decide)

lemma scans_renderNodes (hns : NoRaw (checkNodes ns)) :
    Scans (renderNodes ns).toList (tagsOf ns) := by
  induction ns using Node.forest_induction with
  | nil => exact scans_nil
  | cons n ns ihchildren ihtail =>
    have hn := scans_renderNode hns.left ihchildren
    have htail := ihtail hns.right
    cases ns with
    | nil => simpa [tagsOf, renderNodes] using hn
    | cons m ns =>
      have hbreak : Scans ['\n'] [] := scans_of_noMarkup (by simp [isMarkup])
      have hjoin : (renderNodes (n :: m :: ns)).toList =
          (renderNode n).toList ++ (['\n'] ++ (renderNodes (m :: ns)).toList) := by
        simp [renderNodes]
      rw [hjoin]
      exact hn.append (hbreak.append htail)

lemma mem_enclosed_start {outer name url : String} {target : Option String} {ts : List Tag} :
    start name (some url) ∈ enclosed outer target ts ↔
      outer = name ∧ target = some url ∨ start name (some url) ∈ ts := by
  simp [enclosed, eq_comm]

/-- The targets in the tags of a node are free of markup, if those in its children are. -/
lemma noMarkup_of_mem_tags {name url : String} (hn : NoRaw (checkNode n))
    (hchildren : NoRaw (checkNodes n.children) → start name (some url) ∈ tagsOf n.children →
      hasMarkup url = false)
    (h : start name (some url) ∈ tags n) : hasMarkup url = false := by
  cases n with
  | link target title cs =>
    rcases mem_enclosed_start.mp h with ⟨-, htarget⟩ | hmem
    · cases htarget
      exact hn.url
    · exact hchildren hn.right hmem
  | heading level cs =>
    exact hchildren hn.right ((mem_enclosed_start.mp h).resolve_left nofun)
  | inlineCode | code => simp [tags, mem_enclosed_start] at h
  | thematicBreak | text | delete | image | «break» | html | math | inlineMath | footnoteReference
  | footnoteDefinition | unknown => simp [tags] at h
  | _ => exact hchildren hn ((mem_enclosed_start.mp h).resolve_left nofun)

lemma noMarkup_of_mem_tagsOf {name url : String} (hns : NoRaw (checkNodes ns))
    (h : start name (some url) ∈ tagsOf ns) : hasMarkup url = false := by
  induction ns using Node.forest_induction with
  | nil => cases h
  | cons n ns ihchildren ihtail =>
    rcases List.mem_append.mp h with hn | htail
    · exact noMarkup_of_mem_tags hns.left ihchildren hn
    · exact ihtail hns.right htail

end Fragments

end Html

/-- If no raw markup is reported in a document, then all markup in its fragment is in tags: those of
the nodes that are rendered, in their order and each nested as its node is. The targets in them are
free of markup, and there is no `&`. -/
theorem Document.scan_render {d : Document} (h : ∀ x ∈ d.lint, x.code ≠ some "V003") :
    Html.scan none d.render.toList = some ((Html.tagsOf d.children).map Html.Tag.chars) ∧
      Html.Tag.Nested (Html.tagsOf d.children) ∧
      (∀ name url, .start name (some url) ∈ Html.tagsOf d.children →
        ∀ c ∈ url.toList, c ∉ ['<', '>', '"', '&']) ∧
      '&' ∉ d.render.toList := by
  have hscan : Html.scan none d.render.toList =
      some ((Html.tagsOf d.children).map Html.Tag.chars) := by
    have hrest := Html.scans_renderNodes h []
    rw [List.append_nil] at hrest
    rw [Document.render, hrest]
    simp [Html.scan]
  refine ⟨hscan, Html.nested_tagsOf d.children, ?_, Html.amp_notMem_of_scan hscan⟩
  intro name url hmem c hc
  have hplain := Html.isMarkup_of_hasMarkup (Html.noMarkup_of_mem_tagsOf h hmem) c hc
  simp only [Lint.isMarkup, Bool.or_eq_false_iff, beq_eq_false_iff_ne] at hplain
  simp [hplain]

/-- Neither a dropped node nor a heading that is too deep nor a link without a target is in the
way. -/
theorem Document.scan_render_dropped :
    let d : Document := ⟨[.heading 9 [.text "a"], .thematicBreak,
      .paragraph [.link "" none [.strong [.text "b"]], .delete [.text "<i>&"],
        .link "x" none [], .code none "'"]]⟩
    (∀ x ∈ d.lint, x.code ≠ some "V003") ∧
      Html.scan none d.render.toList = some ["h6".toList, "/h6".toList, "hr /".toList, "p".toList,
        "a href=\"\"".toList, "strong".toList, "/strong".toList, "/a".toList,
        "a href=\"x\"".toList, "/a".toList, "pre".toList, "code".toList, "/code".toList,
        "/pre".toList, "/p".toList] := by
  intro d
  have hquiet : ∀ x ∈ d.lint, x.code ≠ some "V003" := by decide +kernel
  have htags : (Html.tagsOf d.children).map Html.Tag.chars = ["h6".toList, "/h6".toList,
      "hr /".toList, "p".toList, "a href=\"\"".toList, "strong".toList, "/strong".toList,
      "/a".toList, "a href=\"x\"".toList, "/a".toList, "pre".toList, "code".toList,
      "/code".toList, "/pre".toList, "/p".toList] := by decide +kernel
  rw [← htags]
  exact ⟨hquiet, (scan_render hquiet).1⟩

end Folio
