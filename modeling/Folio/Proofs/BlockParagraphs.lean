import Folio.Proofs.LineTokens

/-!
# Paragraphs among the blocks

Blocks are moved between the containers that are open, but what a paragraph holds does not change
any more: what is true of every paragraph where it is read is true of all of them in the end.
-/

namespace Folio.Markdown

variable {P : Nat → Content → Prop}

mutual

/-- A property of all paragraphs in a block, given the start and the content of each. -/
def Block.EveryParagraph (P : Nat → Content → Prop) : Block → Prop
  | .paragraph _ start _ content => P start content
  | .quote blocks | .list _ blocks | .item blocks | .footnote _ blocks =>
    EveryParagraphIn P blocks
  | _ => True

def EveryParagraphIn (P : Nat → Content → Prop) : List Block → Prop
  | [] => True
  | b :: bs => b.EveryParagraph P ∧ EveryParagraphIn P bs

end

/-- The block is neither a paragraph nor a container of blocks. -/
def Block.isLeaf : Block → Bool
  | .heading .. | .code .. | .html _ | .rule | .table .. | .task _ => true
  | _ => false

structure BlockState.EveryParagraph (P : Nat → Content → Prop) (st : BlockState) : Prop where
  stack : ∀ opened ∈ st.stack, EveryParagraphIn P opened.2
  blocks : EveryParagraphIn P st.blocks

lemma everyParagraphIn_iff {bs : List Block} :
    EveryParagraphIn P bs ↔ ∀ b ∈ bs, b.EveryParagraph P := by
  induction bs with
  | nil => simp [EveryParagraphIn]
  | cons b bs ih => rw [EveryParagraphIn, ih, List.forall_mem_cons]

lemma everyParagraph_of_isLeaf {b : Block} (h : b.isLeaf = true) : b.EveryParagraph P := by
  cases b <;> first | exact trivial | cases h

lemma EveryParagraphIn.reverse {bs : List Block} (h : EveryParagraphIn P bs) :
    EveryParagraphIn P bs.reverse := by
  rw [everyParagraphIn_iff] at h ⊢
  exact fun b hb => h b (List.mem_reverse.mp hb)

lemma EveryParagraphIn.map {bs : List Block} {f : Block → Block}
    (hf : ∀ b, b.EveryParagraph P → (f b).EveryParagraph P) (h : EveryParagraphIn P bs) :
    EveryParagraphIn P (bs.map f) := by
  rw [everyParagraphIn_iff] at h ⊢
  intro b hb
  obtain ⟨b', hb', rfl⟩ := List.mem_map.mp hb
  exact hf b' (h b' hb')

lemma Block.EveryParagraph.tighten {b : Block} (h : b.EveryParagraph P) :
    b.tighten.EveryParagraph P := by
  unfold Block.tighten
  split
  · exact EveryParagraphIn.map (fun b hb => by cases b <;> exact hb) h
  · exact h

lemma everyParagraph_containerBlock {bs : List Block} (h : EveryParagraphIn P bs) (c : Container) :
    (c.block bs).EveryParagraph P := by
  cases c with
  | list tight mark number =>
    cases tight with
    | true => exact h.map fun _ => Block.EveryParagraph.tighten
    | false => exact h
  | _ => exact h

section State

variable {st : BlockState}

namespace BlockState

namespace EveryParagraph

lemma add (h : st.EveryParagraph P) {b : Block} (hb : b.EveryParagraph P) :
    (st.add b).EveryParagraph P := by
  unfold BlockState.add
  split
  · next c bs rest hstack =>
    obtain ⟨hinner, houter⟩ := List.forall_mem_cons.mp (hstack ▸ h.stack)
    exact ⟨List.forall_mem_cons.mpr ⟨⟨hb, hinner⟩, houter⟩, h.blocks⟩
  · next hstack => exact ⟨h.stack, hb, h.blocks⟩

lemma add_leaf (h : st.EveryParagraph P) {b : Block} (hb : b.isLeaf = true) :
    (st.add b).EveryParagraph P :=
  h.add (everyParagraph_of_isLeaf hb)

lemma push (h : st.EveryParagraph P) (c : Container) : (st.push c).EveryParagraph P :=
  ⟨List.forall_mem_cons.mpr ⟨trivial, h.stack⟩, h.blocks⟩

lemma pop (h : st.EveryParagraph P) : st.pop.EveryParagraph P := by
  unfold BlockState.pop
  split
  · exact h
  · next c bs rest hstack =>
    obtain ⟨hinner, houter⟩ := List.forall_mem_cons.mp (hstack ▸ h.stack)
    refine add ?_ (everyParagraph_containerBlock hinner.reverse c)
    exact ⟨houter, h.blocks⟩

lemma popTimes (h : st.EveryParagraph P) (n : Nat) : (st.popTimes n).EveryParagraph P := by
  induction n generalizing st with
  | zero => exact h
  | succ n ih => exact ih h.pop

lemma finishBareItem (h : st.EveryParagraph P) : st.finishBareItem.EveryParagraph P := by
  unfold BlockState.finishBareItem
  split
  · split
    · exact ⟨h.pop.stack, h.pop.blocks⟩
    · exact ⟨h.stack, h.blocks⟩
  · exact ⟨h.stack, h.blocks⟩

lemma loosenAround (h : st.EveryParagraph P) : st.loosenAround.EveryParagraph P := by
  unfold BlockState.loosenAround
  split
  · next c tight mark number bs rest hstack =>
    have hall := hstack ▸ h.stack
    simp only [List.forall_mem_cons] at hall
    exact ⟨by simpa only [List.forall_mem_cons] using hall, h.blocks⟩
  · exact h

lemma finishList (h : st.EveryParagraph P) : st.finishList.EveryParagraph P := by
  have hloosen {st : BlockState} (h : st.EveryParagraph P) :
      (if st.afterBlank then { st.loosenAround with afterBlank := false }
        else st).EveryParagraph P := by
    split
    · exact ⟨h.loosenAround.stack, h.loosenAround.blocks⟩
    · exact h
  unfold BlockState.finishList
  dsimp only
  split
  · exact hloosen h.finishBareItem.pop
  · exact hloosen h.finishBareItem

lemma continueList (h : st.EveryParagraph P) (mark : Char) (number : Nat) :
    (st.continueList mark number).EveryParagraph P := by
  have hbegin {st : BlockState} (h : st.EveryParagraph P) :
      ({ st.push (.list true mark number) with afterBlank := false } : BlockState).EveryParagraph
        P := ⟨(h.push _).stack, h.blocks⟩
  have hbare := h.finishBareItem
  unfold BlockState.continueList
  dsimp only
  split
  · exact hbegin hbare
  · next tight mark' number' bs rest hstack =>
    obtain ⟨hinner, houter⟩ := List.forall_mem_cons.mp (hstack ▸ hbare.stack)
    split
    · split
      · exact ⟨List.forall_mem_cons.mpr ⟨hinner, houter⟩, hbare.blocks⟩
      · exact ⟨List.forall_mem_cons.mpr ⟨hinner, houter⟩, hbare.blocks⟩
    · exact hbegin hbare.finishList
  · exact hbegin hbare.finishList

lemma noteBlank (h : st.EveryParagraph P) : st.noteBlank.EveryParagraph P := by
  unfold BlockState.noteBlank
  split
  · exact h
  · next hstack =>
    split
    · obtain ⟨hinner, houter⟩ := List.forall_mem_cons.mp (hstack ▸ h.stack)
      exact ⟨List.forall_mem_cons.mpr ⟨hinner, houter⟩, h.blocks⟩
    · exact ⟨h.stack, h.blocks⟩
  · exact ⟨h.stack, h.blocks⟩

lemma define (h : st.EveryParagraph P) (key : List Char) (d : Definition) :
    (st.define key d).EveryParagraph P := by
  unfold BlockState.define
  split
  · exact h
  · exact ⟨h.stack, h.blocks⟩

end EveryParagraph

end BlockState

end State

section Steps

variable {s : Source} {st : BlockState}

/-- A property of the paragraphs that are read at a position. -/
def ReadParagraphs (s : Source) (P : Nat → Content → Prop) : Prop :=
  ∀ (st : BlockState) (mode : PipeMode) (i : Nat) (tokens : List Token) (next : Nat),
    mode ≠ .cell →
    paragraphFuel s st (s.size + 1 - i) mode [] Braces.none i = .paragraph tokens next →
    P i ⟨tokens.reverse, next, st.prefixes, false⟩

namespace BlockState.EveryParagraph

lemma paragraphBlock (hread : ReadParagraphs s P) (h : st.EveryParagraph P) (i : Nat) :
    (paragraphBlock s st i).1.EveryParagraph P := by
  have hst : ({ st with task := none } : BlockState).EveryParagraph P := ⟨h.stack, h.blocks⟩
  unfold Markdown.paragraphBlock
  dsimp only
  split
  · next tokens next heq =>
    refine hst.add (hread _ _ i tokens next ?_ heq)
    split <;> exact fun hcell => by cases hcell
  · exact hst.add_leaf (by rfl)
  · exact hst.add_leaf (by rfl)

lemma definitionsFuel (hread : ReadParagraphs s P) (h : st.EveryParagraph P) (fuel i : Nat) :
    (definitionsFuel s fuel st i).1.EveryParagraph P := by
  induction fuel generalizing st i with
  | zero => exact h
  | succ fuel ih =>
    rw [Markdown.definitionsFuel]
    split
    · exact h.paragraphBlock hread i
    · dsimp only
      split
      · exact h.define _ _
      · exact ih (h.define _ _) _

lemma openContainersFuel (h : st.EveryParagraph P) (fuel : Nat) (c : Cursor) :
    (openContainersFuel s fuel st c).1.EveryParagraph P := by
  induction fuel generalizing st c with
  | zero => exact h
  | succ fuel ih =>
    rw [Markdown.openContainersFuel]
    dsimp only
    split
    · exact h
    split
    · -- A footnote ends the one before it.
      refine ih (push ?_ _) _
      split
      · exact ⟨h.finishList.pop.stack, h.finishList.pop.blocks⟩
      · exact ⟨h.finishList.stack, h.finishList.blocks⟩
    split
    · next m _ _ =>
      have hitem := (h.continueList m.mark m.number).push (.item m.indent)
      split
      · exact ⟨hitem.stack, hitem.blocks⟩
      split
      · exact ih hitem _
      split
      · have hbare : ({ (st.continueList m.mark m.number).push (.item m.indent) with
            bareItem := true } : BlockState).EveryParagraph P := ⟨hitem.stack, hitem.blocks⟩
        exact hbare.add_leaf (by rfl)
      · refine ih ?_ _
        exact ⟨hitem.stack, hitem.blocks⟩
    split
    · exact ih (h.finishList.push _) _
    · exact h

lemma leafBlock (hread : ReadParagraphs s P) (h : st.EveryParagraph P) (c : Cursor) :
    (leafBlock s st c).1.EveryParagraph P := by
  have hlist := h.finishList
  unfold Markdown.leafBlock
  split
  · exact h.noteBlank
  dsimp only
  split
  · refine add_leaf ?_ (b := .code none _) rfl
    exact ⟨hlist.stack, hlist.blocks⟩
  split
  · exact hlist.add_leaf (by rfl)
  split
  · exact hlist.add_leaf (by rfl)
  split
  · unfold markedHeading
    dsimp only
    split
    · exact hlist.add_leaf (by rfl)
    · exact hlist.add_leaf (by rfl)
  split
  · exact hlist.add_leaf (by rfl)
  · exact hlist.definitionsFuel hread _ _

lemma block (hread : ReadParagraphs s P) (h : st.EveryParagraph P) (i : Nat) :
    (block s st i).1.EveryParagraph P := by
  unfold Markdown.block
  dsimp only
  have hpopped := h.popTimes (st.containers.length -
    keptCount st.containers (skipPrefixes s st.prefixes (Cursor.new i)).1)
  have hopened := hpopped.openContainersFuel (s := s) (s.size + 1 - i)
    (skipPrefixes s st.prefixes (Cursor.new i)).2
  split
  · next heq =>
    rw [heq] at hopened
    exact hopened
  · next heq =>
    rw [heq] at hopened
    exact hopened.leafBlock hread _

lemma blocksFuel (hread : ReadParagraphs s P) (h : st.EveryParagraph P) (fuel i : Nat) :
    (blocksFuel s fuel st i).EveryParagraph P := by
  induction fuel generalizing st i with
  | zero => exact h
  | succ fuel ih =>
    rw [Markdown.blocksFuel]
    split
    · exact h
    · exact ih (h.block hread i) _

end BlockState.EveryParagraph

/-- What is true of all paragraphs where they are read is true of all paragraphs of the source. -/
theorem everyParagraph_readBlocks (dialect : Dialect) (hread : ReadParagraphs s P) :
    EveryParagraphIn P (readBlocks dialect s).blocks := by
  have hinitial : (BlockState.initial dialect).EveryParagraph P :=
    ⟨List.forall_mem_nil _, trivial⟩
  exact ((hinitial.blocksFuel hread _ _).popTimes _).blocks

end Steps

end Folio.Markdown
