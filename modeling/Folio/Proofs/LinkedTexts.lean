import Folio.Proofs.TreeRecursion

/-!
# Links in texts

Which links there are in a forest before and after the literals in its texts are linked, and before
and after a container is made a node. Only the links of literals are added, and none is lost unless
the container drops all that is in it.
-/

namespace Folio

namespace Node

/-- A node of a forest, at any depth. -/
inductive Among (m : Node) : List Node → Prop where
  | here {ns : List Node} (h : m ∈ ns) : Among m ns
  | deeper {n : Node} {ns : List Node} (hn : n ∈ ns) (h : Among m n.children) : Among m ns

def isLink : Node → Bool
  | link .. => true
  | _ => false

section Among

variable {m n : Node} {ns ms : List Node}

lemma not_among_nil (m : Node) : ¬m.Among [] := by
  intro h
  cases h with
  | here h | deeper h => cases h

lemma Among.cons (h : m.Among ns) (n : Node) : m.Among (n :: ns) := by
  cases h with
  | here h => exact .here (List.mem_cons_of_mem n h)
  | deeper hk h => exact .deeper (List.mem_cons_of_mem n hk) h

lemma among_cons : m.Among (n :: ns) ↔ m = n ∨ m.Among n.children ∨ m.Among ns := by
  constructor
  · intro h
    cases h with
    | here h =>
      rcases List.mem_cons.mp h with rfl | hmem
      · exact .inl rfl
      · exact .inr (.inr (.here hmem))
    | deeper hk h =>
      rcases List.mem_cons.mp hk with rfl | hmem
      · exact .inr (.inl h)
      · exact .inr (.inr (.deeper hmem h))
  · rintro (rfl | h | h)
    · exact .here List.mem_cons_self
    · exact .deeper List.mem_cons_self h
    · exact h.cons n

lemma among_append : m.Among (ns ++ ms) ↔ m.Among ns ∨ m.Among ms := by
  induction ns with
  | nil => simp [not_among_nil]
  | cons n ns ih => rw [List.cons_append, among_cons, among_cons, ih, or_assoc, or_assoc]

lemma among_text_cons (h : m.isText = false) (value : String) :
    m.Among (text value :: ns) ↔ m.Among ns := by
  rw [among_cons]
  constructor
  · rintro (rfl | hnil | hns)
    · cases h
    · exact absurd hnil (not_among_nil m)
    · exact hns
  · exact fun hns => .inr (.inr hns)

lemma among_singleton : m.Among [n] ↔ m = n ∨ m.Among n.children := by
  rw [among_cons, or_iff_left (not_among_nil m)]

lemma isText_of_isLink (h : m.isLink = true) : m.isText = false := by
  cases m <;> first | rfl | cases h

lemma ne_of_isLink (hm : m.isLink = true) (hn : n.isLink = false) : m ≠ n := by
  rintro rfl
  rw [hm] at hn
  cases hn

lemma children_of_isText (h : n.isText = true) : n.children = [] := by
  obtain ⟨value, rfl⟩ := exists_eq_text h
  rfl

end Among

end Node

namespace Tree

open Node

/-- The node of such a container has the nodes in it below it. -/
def keepsNodes : Tag → Bool
  | .image .. | .codeBlock _ | .htmlBlock | .metadata | .definitionList | .definitionTitle
  | .definition => false
  | _ => true

section Literals

variable {m n : Node} {ns : List Node} {value : List Char} {last : Nat} {fs : List Literal.Found}

lemma linkLiterals_cons (hn : n.isText = false) (find : List Char → List Literal.Found)
    (ns : List Node) : linkLiterals find (n :: ns) = n :: linkLiterals find ns := by
  cases n <;> first | rfl | cases hn

lemma isText_of_mem_textPiece {cs : List Char} (h : n ∈ textPiece cs) : n.isText = true := by
  unfold textPiece at h
  split at h
  · cases h
  · rw [List.mem_singleton.mp h]
    rfl

/-- The pieces of a text that was cut are texts and links around literals. -/
lemma mem_cutText_cases (h : n ∈ cutText value last fs) :
    n.isText = true ∨ ∃ f ∈ fs, ∃ url,
      n = .link url none [.text (String.ofList (slice value f.start f.stop))] := by
  induction fs generalizing last with
  | nil =>
    unfold cutText at h
    split at h
    · rw [List.mem_singleton.mp h]
      exact .inl rfl
    · exact .inl (isText_of_mem_textPiece h)
  | cons f fs ih =>
    have hlater {last : Nat} (h : n ∈ cutText value last fs) : n.isText = true ∨ ∃ g ∈ f :: fs,
        ∃ url, n = .link url none [.text (String.ofList (slice value g.start g.stop))] :=
      (ih h).imp_right fun ⟨g, hg, hlink⟩ => ⟨g, List.mem_cons_of_mem f hg, hlink⟩
    simp only [cutText] at h
    split at h
    · exact hlater h
    · rcases List.mem_append.mp h with hpiece | hlink
      · exact .inl (isText_of_mem_textPiece hpiece)
      · rcases List.mem_cons.mp hlink with rfl | hrest
        · exact .inr ⟨f, List.mem_cons_self, _, rfl⟩
        · exact hlater hrest

lemma not_exists_isLink (h : ∀ n ∈ ns, n.isText = true) : ¬∃ m ∈ ns, m.isLink = true := by
  rintro ⟨m, hm, hlink⟩
  have htext := h m hm
  rw [isText_of_isLink hlink] at htext
  cases htext

/-- A text is cut for a link exactly if some literal in it has a target. -/
lemma exists_isLink_cutText :
    (∃ m ∈ cutText value last fs, m.isLink = true) ↔
      ∃ f ∈ fs, (literalTarget? f.kind (slice value f.start f.stop)).isSome = true := by
  induction fs generalizing last with
  | nil =>
    apply iff_of_false
    · apply not_exists_isLink
      intro n hn
      unfold cutText at hn
      split at hn
      · rw [List.mem_singleton.mp hn]
        rfl
      · exact isText_of_mem_textPiece hn
    · simp
  | cons f fs ih =>
    rw [List.exists_mem_cons_iff]
    simp only [cutText]
    cases htarget : literalTarget? f.kind (slice value f.start f.stop) with
    | none => simpa using ih
    | some url =>
      apply iff_of_true
      · exact ⟨_, List.mem_append_right _ List.mem_cons_self, rfl⟩
      · exact .inl rfl

lemma mem_cutText_of_among (hm : m.isText = false) (h : m.Among (cutText value last fs)) :
    m ∈ cutText value last fs := by
  cases h with
  | here h => exact h
  | deeper hn h =>
    rcases mem_cutText_cases hn with htext | ⟨f, -, url, rfl⟩
    · rw [children_of_isText htext] at h
      exact absurd h (not_among_nil m)
    · exact absurd ((among_text_cons hm _).mp h) (not_among_nil m)

/-- Linking literals adds the links that the texts are cut for. -/
lemma among_linkLiterals (find : List Char → List Literal.Found) (hm : m.isText = false) :
    m.Among (linkLiterals find ns) ↔
      m.Among ns ∨
        ∃ value, Node.text value ∈ ns ∧ m ∈ cutText value.toList 0 (find value.toList) := by
  induction ns with
  | nil => simp [linkLiterals, not_among_nil]
  | cons n ns ih =>
    cases htext : n.isText with
    | true =>
      obtain ⟨value, rfl⟩ := exists_eq_text htext
      rw [linkLiterals, among_append, ih, among_text_cons hm]
      have hcut : m.Among (cutText value.toList 0 (find value.toList)) ↔
          m ∈ cutText value.toList 0 (find value.toList) :=
        ⟨mem_cutText_of_among hm, .here⟩
      simp only [List.mem_cons, Node.text.injEq, or_and_right, exists_or, exists_eq_left, hcut]
      exact or_left_comm
    | false =>
      have hne (value : String) : Node.text value ≠ n := by
        rintro rfl
        cases htext
      rw [linkLiterals_cons htext, among_cons, among_cons, ih]
      simp only [List.mem_cons, hne, false_or, or_assoc]

end Literals

section Nodes

variable {m : Node} {ns : List Node}

lemma among_prependText (hm : m.isText = false) (value : String) :
    m.Among (prependText value ns) ↔ m.Among ns := by
  cases ns with
  | nil => exact among_text_cons hm value
  | cons n ns =>
    cases n with
    | text rest => rw [prependText, among_text_cons hm, among_text_cons hm]
    | _ => exact among_text_cons hm value

/-- Joining texts loses no other node. -/
lemma among_joinTexts (hm : m.isText = false) : m.Among (joinTexts ns) ↔ m.Among ns := by
  induction ns with
  | nil => rfl
  | cons n ns ih =>
    cases htext : n.isText with
    | true =>
      obtain ⟨value, rfl⟩ := exists_eq_text htext
      rw [joinTexts_text, among_prependText hm, ih, among_text_cons hm]
    | false => rw [joinTexts_cons htext, among_cons, among_cons, ih]

/-- A heading may be cut out of the first text, and all nodes behind that stay. -/
lemma among_children_liftHeading (hm : m.isText = false) :
    m.Among (liftHeading ns).children ↔ m.Among ns := by
  unfold liftHeading
  split
  · next value rest =>
    dsimp only
    split
    · next level title _ =>
      simp only [children, among_append, among_text_cons hm, apply_ite (m.Among), not_among_nil,
        ite_self, false_or]
    · rfl
  · rfl

lemma isLink_liftHeading : (liftHeading ns).isLink = false := by
  unfold liftHeading
  split
  · dsimp only
    split <;> rfl
  · rfl

lemma nodeOfContainer_of_not_keepsNodes (settings : Settings) {tag : Tag}
    (hkeeps : keepsNodes tag = false) (offset : Nat) (ns : List Node) (literal : String)
    (ticks : List Bool) :
    (nodeOfContainer settings tag offset ns literal ticks).isLink = false ∧
      (nodeOfContainer settings tag offset ns literal ticks).children = [] := by
  cases tag <;> first | cases hkeeps; done | exact ⟨rfl, rfl⟩

/-- Below the node of a container that keeps its nodes and is no link. -/
lemma among_children_nodeOfContainer (settings : Settings) {tag : Tag}
    (hkeeps : keepsNodes tag = true) (htag : isLinkTag tag = false) (offset : Nat)
    (ns : List Node) (literal : String) (ticks : List Bool) (hm : m.isText = false) :
    (nodeOfContainer settings tag offset ns literal ticks).isLink = false ∧
      (m.Among (nodeOfContainer settings tag offset ns literal ticks).children ↔
        m.Among (if settings.linkLiterals then linkLiterals Literal.find ns else ns)) := by
  have hfound : (settings.linkLiterals && !isLinkTag tag) = settings.linkLiterals := by
    rw [htag, Bool.not_false, Bool.and_true]
  cases tag with
  | paragraph =>
    simp only [nodeOfContainer, hfound, paragraphNode]
    split
    · exact ⟨isLink_liftHeading, among_children_liftHeading hm⟩
    · exact ⟨rfl, .rfl⟩
  | link => cases htag
  | image | codeBlock | htmlBlock | metadata | definitionList | definitionTitle | definition =>
    cases hkeeps
  | _ =>
    simp only [nodeOfContainer, hfound]
    exact ⟨rfl, .rfl⟩

end Nodes

end Tree

end Folio
