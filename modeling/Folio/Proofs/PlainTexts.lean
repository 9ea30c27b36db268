import Folio.Proofs.DeepHeadings

/-!
# The plain text of linked literals

Literals are found one behind another, so that the pieces a text is cut into make up the text again.
Linking them changes the nodes that a text stands in and not what it says.
-/

namespace Folio

namespace Literal

open Folio.Tree (slice)

/-- Literals of which each begins behind the one before, the first at `last` or behind it. -/
def InOrder (last : Nat) : List Found → Prop
  | [] => True
  | f :: fs => last ≤ f.start ∧ f.start < f.stop ∧ InOrder f.stop fs

section Order

variable {f : Found} {fs : List Found}

lemma InOrder.mono {m n : Nat} (h : InOrder n fs) (hm : m ≤ n) : InOrder m fs := by
  cases fs with
  | nil => trivial
  | cons f fs => exact ⟨Nat.le_trans hm h.1, h.2⟩

lemma inOrder_findFrom {before rest : List Char} {skip i : Nat} :
    InOrder (i + skip - before.length) (findFrom before skip i rest) := by
  induction rest generalizing before skip i with
  | nil => trivial
  | cons c rest ih =>
    have hpassed (skip : Nat) : InOrder (i + 1 + skip) (findFrom [] skip (i + 1) rest) :=
      @ih [] skip (i + 1)
    cases skip with
    | succ skip => exact (hpassed skip).mono (by omega)
    | zero =>
      rw [findFrom]
      split
      · next back ahead kind haround =>
        have hback := (allSolid_around haround).1
        exact ⟨by dsimp only; omega, by dsimp only; omega, hpassed ahead⟩
      · have hrest := @ih (c :: before) 0 (i + 1)
        refine hrest.mono ?_
        rw [List.length_cons]
        omega

lemma inOrder_find (cs : List Char) : InOrder 0 (find cs) :=
  @inOrder_findFrom [] cs 0 0

/-- The characters around which literals are looked for. -/
def isTrigger (c : Char) : Bool :=
  c == ':' || c == '.' || c == '@'

lemma isTrigger_of_around {before after : List Char} {c : Char} {found : Nat × Nat × LiteralKind}
    (h : around before c after = some found) : isTrigger c = true := by
  unfold around at h
  split at h
  · rfl
  · rfl
  · rfl
  · cases h

lemma exists_trigger_of_mem_findFrom {before rest done : List Char} {skip : Nat}
    (h : f ∈ findFrom before skip (done.length + before.length) rest) :
    ∃ c ∈ slice (done ++ before.reverse ++ rest) f.start f.stop, isTrigger c = true := by
  induction rest generalizing before done skip with
  | nil => cases h
  | cons c rest ih =>
    have hpassed {skip : Nat} (h : f ∈ findFrom [] skip (done.length + before.length + 1) rest) :
        ∃ d ∈ slice (done ++ before.reverse ++ c :: rest) f.start f.stop, isTrigger d = true := by
      have hrest := @ih [] (done ++ before.reverse ++ [c]) skip (by simpa [Nat.add_assoc] using h)
      simpa using hrest
    cases skip with
    | succ skip => exact hpassed h
    | zero =>
      rw [findFrom] at h
      split at h
      · next back ahead kind haround =>
        rcases List.mem_cons.mp h with rfl | hlater
        · have hback := (allSolid_around haround).1
          rw [slice_around done before rest c back ahead hback]
          exact ⟨c, by simp, isTrigger_of_around haround⟩
        · exact hpassed hlater
      · have hrest := @ih (c :: before) done 0 (by simpa [Nat.add_assoc] using h)
        simpa using hrest

/-- In each literal there is the character around which it was found. -/
theorem exists_trigger_of_mem_find {cs : List Char} (h : f ∈ find cs) :
    ∃ c ∈ slice cs f.start f.stop, isTrigger c = true := by
  have htrigger : ∃ c ∈ slice ([] ++ [].reverse ++ cs) f.start f.stop, isTrigger c = true :=
    exists_trigger_of_mem_findFrom h
  simpa using htrigger

end Order

end Literal

namespace Tree

open Literal (Found InOrder inOrder_find)

/-- The plain text of some nodes, one behind another. -/
def texts (ns : List Node) : List Char :=
  (Node.plainTexts ns).toList

/-- The first literal in a text that is linked. -/
def firstLinked? (value : List Char) : Option Found :=
  (Literal.find value).find? fun f =>
    (literalTarget? f.kind (slice value f.start f.stop)).isSome

section Texts

variable {n : Node} {ns ms : List Node} {value : List Char} {fs : List Found}

@[simp]
lemma texts_nil : texts [] = [] := rfl

@[simp]
lemma texts_cons (n : Node) (ns : List Node) :
    texts (n :: ns) = n.plainText.toList ++ texts ns := by
  rw [texts, Node.plainTexts, String.toList_append]
  rfl

@[simp]
lemma texts_append (ns ms : List Node) : texts (ns ++ ms) = texts ns ++ texts ms := by
  induction ns with
  | nil => rfl
  | cons n ns ih => rw [List.cons_append, texts_cons, texts_cons, ih, List.append_assoc]

lemma texts_prependText (value : String) (ns : List Node) :
    texts (prependText value ns) = value.toList ++ texts ns := by
  cases ns with
  | nil => simp [prependText, Node.plainText]
  | cons n ns => cases n <;> simp [prependText, Node.plainText]

lemma texts_joinTexts (ns : List Node) : texts (joinTexts ns) = texts ns := by
  induction ns with
  | nil => rfl
  | cons n ns ih =>
    cases htext : n.isText with
    | true =>
      obtain ⟨value, rfl⟩ := Node.exists_eq_text htext
      rw [joinTexts_text, texts_prependText, ih, texts_cons]
      rfl
    | false => rw [joinTexts_cons htext, texts_cons, texts_cons, ih]

lemma texts_textPiece (cs : List Char) : texts (textPiece cs) = cs := by
  unfold textPiece
  split
  · next hempty => rw [List.isEmpty_iff.mp hempty]; rfl
  · simp [Node.plainText]

lemma slice_append_drop {i j : Nat} (h : i ≤ j) (cs : List Char) :
    slice cs i j ++ cs.drop j = cs.drop i := by
  have hdrop : cs.drop j = (cs.drop i).drop (j - i) := by
    rw [List.drop_drop, Nat.add_sub_cancel' h]
  rw [slice, hdrop, List.take_append_drop]

lemma texts_cutText {last : Nat} (h : InOrder last fs) :
    texts (cutText value last fs) = value.drop last := by
  induction fs generalizing last with
  | nil =>
    unfold cutText
    split
    · next hlast => simp [hlast, Node.plainText]
    · exact texts_textPiece _
  | cons f fs ih =>
    obtain ⟨hlast, hlt, hfs⟩ := h
    simp only [cutText]
    split
    · exact ih (hfs.mono (by omega))
    · rw [texts_append, texts_textPiece, texts_cons, ih hfs]
      simp only [Node.plainText, Node.plainTexts, String.append_empty, String.toList_ofList]
      rw [slice_append_drop (by omega), slice_append_drop hlast]

/-- Linking the literals in texts does not change what they say. -/
theorem texts_linkLiterals (ns : List Node) : texts (linkLiterals Literal.find ns) = texts ns := by
  induction ns with
  | nil => rfl
  | cons n ns ih =>
    cases n with
    | text value =>
      rw [linkLiterals, texts_append, texts_cutText (inOrder_find _), ih, texts_cons,
        List.drop_zero]
      rfl
    | _ => exact (texts_cons _ _).trans ((congrArg _ ih).trans (texts_cons _ _).symm)

/-- A text in which no literal is linked stays as it is. -/
lemma cutText_of_firstLinked?_eq_none (h : firstLinked? value = none) :
    cutText value 0 (Literal.find value) = [.text (String.ofList value)] := by
  rw [firstLinked?, List.find?_eq_none] at h
  generalize Literal.find value = fs at h
  induction fs with
  | nil => rfl
  | cons f fs ih =>
    have hnone := Option.not_isSome_iff_eq_none.mp (h f List.mem_cons_self)
    simp only [cutText, hnone]
    exact ih fun g hg => h g (List.mem_cons_of_mem f hg)

/-- A text is cut where the first literal that is linked begins. -/
lemma cutText_of_firstLinked? {f : Found} (h : firstLinked? value = some f) :
    ∃ url more, cutText value 0 (Literal.find value) = textPiece (value.take f.start) ++
        .link url none [.text (String.ofList (slice value f.start f.stop))] :: more ∧
      texts (.link url none [.text (String.ofList (slice value f.start f.stop))] :: more) =
        value.drop f.start := by
  have hcut : ∃ url more, cutText value 0 (Literal.find value) = textPiece (value.take f.start) ++
      .link url none [.text (String.ofList (slice value f.start f.stop))] :: more := by
    rw [firstLinked?] at h
    generalize Literal.find value = fs at h
    induction fs with
    | nil => cases h
    | cons g fs ih =>
      simp only [cutText]
      rw [List.find?_cons] at h
      cases htarget : literalTarget? g.kind (slice value g.start g.stop) with
      | none => exact ih (by simpa [htarget] using h)
      | some url =>
        obtain rfl : g = f := by simpa [htarget] using h
        exact ⟨_, _, by rw [slice, List.drop_zero, Nat.sub_zero]⟩
  obtain ⟨url, more, hcut⟩ := hcut
  refine ⟨url, more, hcut, ?_⟩
  have htexts : texts (cutText value 0 (Literal.find value)) = value.drop 0 :=
    texts_cutText (inOrder_find value)
  rw [hcut, texts_append, texts_textPiece, List.drop_zero] at htexts
  exact List.append_cancel_left (htexts.trans (List.take_append_drop f.start value).symm)

lemma mem_find_of_firstLinked? {f : Found} (h : firstLinked? value = some f) :
    f ∈ Literal.find value ∧
      (literalTarget? f.kind (slice value f.start f.stop)).isSome = true :=
  ⟨List.mem_of_find?_eq_some h, List.find?_some (p := fun f : Found =>
    (literalTarget? f.kind (slice value f.start f.stop)).isSome) h⟩

end Texts

end Tree

end Folio
