import Folio.Parse
import Folio.Proofs.Brackets
import Folio.Proofs.Siblings
import Mathlib.Data.List.DropRight

/-!
# Trees by recursion on brackets

`forestNodes` defines the nodes of a forest of spans by recursion on it, without open containers.
The builder computes the same nodes from the events of the forest. What joins the two is
`Represents`: the open containers of a reading, each with the spans read in it, say what the frames
of the builder hold.
-/

namespace Folio.Tree

/-- The nodes that a leaf stands for. A line break within a text is text, and the box of a task
stands for nothing. -/
def leafNodes : Event → List Node
  | .text value => [.text value]
  | .softBreak => [.text "\n"]
  | .code value => [.inlineCode value]
  | .inlineMath value => [.inlineMath value]
  | .displayMath value => [.math value]
  | .html value | .inlineHtml value => [.html value]
  | .footnoteReference label => [.footnoteReference label]
  | .hardBreak => [.break]
  | .rule => [.thematicBreak]
  | .taskMarker _ | .start .. | .stop => []

/-- Adds text in front of siblings: text next to text is one node. -/
def prependText (value : String) : List Node → List Node
  | .text rest :: ns => .text (value ++ rest) :: ns
  | ns => .text value :: ns

def joinTexts : List Node → List Node
  | [] => []
  | .text value :: ns => prependText value (joinTexts ns)
  | n :: ns => n :: joinTexts ns

def literalText : List Span → String
  | [] => ""
  | .leaf (.text value) _ :: ss | .leaf (.html value) _ :: ss => value ++ literalText ss
  | _ :: ss => literalText ss

mutual

/-- The states of the boxes in a span, in order, except those that belong to an item in it. -/
def boxes : Span → List Bool
  | .leaf (.taskMarker checked) _ => [checked]
  | .leaf .. => []
  | .container .item _ _ => []
  | .container _ _ inside => allBoxes inside

def allBoxes : List Span → List Bool
  | [] => []
  | s :: ss => boxes s ++ allBoxes ss

end

def withoutFinalBreak (s : String) : String :=
  if s.toList.getLast? = some '\n' then String.ofList s.toList.dropLast else s

def withoutFinalBreaks (s : String) : String :=
  String.ofList (s.toList.rdropWhile (· == '\n'))

def isLinkTag : Tag → Bool
  | .link .. => true
  | _ => false

/-- The one node of a container, made from its tag, its place in the source, the nodes of what is
in it, and the literal text and the boxes there. -/
def nodeOfContainer (settings : Settings) (tag : Tag) (offset : Nat) (inside : List Node)
    (literal : String) (ticks : List Bool) : Node :=
  let children :=
    if settings.linkLiterals && !isLinkTag tag then linkLiterals Literal.find inside else inside
  match tag with
  | .heading level => .heading level children
  | .paragraph => paragraphNode settings offset children
  | .blockQuote => .blockquote children
  | .list start => .list start.isSome start children
  | .item => .listItem ticks.getLast? children
  | .table => .table children
  | .tableHead | .tableRow => .tableRow children
  | .tableCell => .tableCell children
  | .strong => .strong children
  | .emphasis => .emphasis children
  | .strikethrough => .delete children
  | .link form url title => .link (linkTarget form url) (nonEmpty? title) children
  | .image _ url title => .image url (String.join (children.map Node.plainText)) (nonEmpty? title)
  | .codeBlock info => .code (language? info) (withoutFinalBreak literal)
  | .htmlBlock => .html (withoutFinalBreaks literal)
  | .footnoteDefinition label => .footnoteDefinition label children
  | .metadata | .definitionList | .definitionTitle | .definition => .unknown "unsupported"

mutual

def spanNodes (settings : Settings) : Span → List Node
  | .leaf e _ => leafNodes e
  | .container tag offset inside =>
    [nodeOfContainer settings tag offset (joinTexts (siblingNodes settings inside))
      (literalText inside) (allBoxes inside)]

def siblingNodes (settings : Settings) : List Span → List Node
  | [] => []
  | s :: ss => spanNodes settings s ++ siblingNodes settings ss

end

def forestNodes (settings : Settings) (ss : List Span) : List Node :=
  joinTexts (siblingNodes settings ss)

/-- The frame holds what was read in an open container, and `pending` are further boxes there that
are not read to their end. A literal container is known by its text alone. -/
structure FrameHolds (settings : Settings) (pending : List Bool) (o : OpenSpan) (f : Frame) :
    Prop where
  tag : f.tag = o.tag
  offset : f.offset = o.offset
  literal : f.isLiteral = true → f.literal = literalText o.inside
  nodes : f.isLiteral = false → f.nodes.reverse = forestNodes settings o.inside
  checked : f.isItem = true → f.checked = (allBoxes o.inside ++ pending).getLast?

/-- The frames hold what was read in the open containers. `pending` are the boxes in containers
further inside that look for their item here. -/
def Represents (settings : Settings) : List Bool → List OpenSpan → List Frame → Prop
  | _, [], [] => True
  | pending, o :: os, f :: fs =>
    FrameHolds settings pending o f ∧
      Represents settings (if f.isItem then [] else allBoxes o.inside ++ pending) os fs
  | _, _, _ => False

/-- The builder holds what was read, apart from boxes in a container that has just been closed. -/
structure Holds (settings : Settings) (pending : List Bool) (r : Reading) (b : Builder) : Prop where
  frames : Represents settings pending r.opened b.frames
  done : b.done.reverse = forestNodes settings r.top

section JoinTexts

variable {n : Node}

def appendText (value : String) : List Node → List Node
  | [] => [.text value]
  | [.text old] => [.text (old ++ value)]
  | n :: ns => n :: appendText value ns

lemma joinTexts_text (value : String) (ns : List Node) :
    joinTexts (.text value :: ns) = prependText value (joinTexts ns) := rfl

lemma joinTexts_cons (h : n.isText = false) (ns : List Node) :
    joinTexts (n :: ns) = n :: joinTexts ns := by
  cases n <;> first | rfl | cases h

lemma prependText_cons (h : n.isText = false) (value : String) (ns : List Node) :
    prependText value (n :: ns) = .text value :: n :: ns := by
  cases n <;> first | rfl | cases h

lemma prependText_append (h : n.isText = false) (value : String) (ns : List Node) :
    prependText value (ns ++ [n]) = prependText value ns ++ [n] := by
  cases ns with
  | nil => exact prependText_cons h value []
  | cons m ns => cases m <;> rfl

lemma appendText_cons_cons (value : String) (m k : Node) (ns : List Node) :
    appendText value (m :: k :: ns) = m :: appendText value (k :: ns) := by
  cases m <;> rfl

lemma prependText_appendText (value later : String) (ns : List Node) :
    prependText value (appendText later ns) = appendText later (prependText value ns) := by
  match ns with
  | [] => rfl
  | [m] => cases m <;> simp [appendText, prependText, String.append_assoc]
  | m :: k :: ns =>
    rw [appendText_cons_cons]
    cases m <;> simp only [prependText, appendText_cons_cons]

lemma joinTexts_append_text (ns : List Node) (value : String) :
    joinTexts (ns ++ [.text value]) = appendText value (joinTexts ns) := by
  induction ns with
  | nil => rfl
  | cons m ns ih =>
    cases hm : m.isText with
    | true =>
      cases m with
      | text old => rw [List.cons_append, joinTexts_text, joinTexts_text, ih, prependText_appendText]
      | _ => cases hm
    | false =>
      rw [List.cons_append, joinTexts_cons hm, joinTexts_cons hm, ih]
      cases joinTexts ns with
      | nil => cases m <;> first | rfl | cases hm
      | cons k ks => rw [appendText_cons_cons]

lemma joinTexts_append (h : n.isText = false) (ns : List Node) :
    joinTexts (ns ++ [n]) = joinTexts ns ++ [n] := by
  induction ns with
  | nil => rw [List.nil_append, joinTexts_cons h]; rfl
  | cons m ns ih =>
    cases hm : m.isText with
    | true =>
      cases m with
      | text old => rw [List.cons_append, joinTexts_text, joinTexts_text, ih, prependText_append h]
      | _ => cases hm
    | false => rw [List.cons_append, joinTexts_cons hm, joinTexts_cons hm, ih, List.cons_append]

lemma appendText_append (value : String) (ns : List Node) (m : Node) :
    appendText value (ns ++ [m]) = ns ++ appendText value [m] := by
  match ns with
  | [] => rfl
  | [k] => exact appendText_cons_cons value k m []
  | k :: l :: ns =>
    have h := appendText_append value (l :: ns) m
    rw [List.cons_append, List.cons_append, appendText_cons_cons]
    exact congrArg (k :: ·) h

lemma reverse_addText (value : String) (ns : List Node) :
    (addText value ns).reverse = appendText value ns.reverse := by
  cases ns with
  | nil => rfl
  | cons m ns =>
    rw [List.reverse_cons, appendText_append]
    cases m <;> simp [addText, appendText]

end JoinTexts

section Siblings

variable (settings : Settings)

lemma siblingNodes_append (ss ts : List Span) :
    siblingNodes settings (ss ++ ts) = siblingNodes settings ss ++ siblingNodes settings ts := by
  induction ss with
  | nil => rfl
  | cons s ss ih => rw [List.cons_append, siblingNodes, siblingNodes, ih, List.append_assoc]

lemma siblingNodes_snoc (ss : List Span) (s : Span) :
    siblingNodes settings (ss ++ [s]) = siblingNodes settings ss ++ spanNodes settings s := by
  rw [siblingNodes_append, siblingNodes, siblingNodes, List.append_nil]

lemma allBoxes_append (ss ts : List Span) : allBoxes (ss ++ ts) = allBoxes ss ++ allBoxes ts := by
  induction ss with
  | nil => rfl
  | cons s ss ih => rw [List.cons_append, allBoxes, allBoxes, ih, List.append_assoc]

lemma allBoxes_snoc (ss : List Span) (s : Span) :
    allBoxes (ss ++ [s]) = allBoxes ss ++ boxes s := by
  rw [allBoxes_append, allBoxes, allBoxes, List.append_nil]

lemma literalText_cons (s : Span) (ss : List Span) :
    literalText (s :: ss) = literalText [s] ++ literalText ss := by
  cases s with
  | leaf e h => cases e <;> simp [literalText]
  | container tag offset inside => simp [literalText]

lemma literalText_snoc (ss : List Span) (s : Span) :
    literalText (ss ++ [s]) = literalText ss ++ literalText [s] := by
  induction ss with
  | nil => simp [literalText]
  | cons t ss ih => rw [List.cons_append, literalText_cons, ih, literalText_cons t ss,
      String.append_assoc]

lemma isItem_iff (f : Frame) : f.isItem = true ↔ f.tag = .item := by
  unfold Frame.isItem
  split <;> simp_all

lemma boxes_container (tag : Tag) (offset : Nat) (inside : List Span) :
    boxes (.container tag offset inside) = if tag = .item then [] else allBoxes inside := by
  cases tag <;> simp [boxes]

end Siblings

section Close

lemma codeValue_eq (s : String) : codeValue s = withoutFinalBreak s := by
  unfold codeValue withoutFinalBreak
  split
  · next h => rw [if_pos h]
  · next h => rw [if_neg h]

lemma htmlValue_eq (s : String) : htmlValue s = withoutFinalBreaks s := rfl

lemma plainTexts_eq_join (ns : List Node) : Node.plainTexts ns = String.join (ns.map Node.plainText) := by
  induction ns with
  | nil => rfl
  | cons n ns ih => rw [Node.plainTexts, ih, List.map_cons, String.join_cons]

lemma close_eq_nodeOfContainer {settings : Settings} {o : OpenSpan} {f : Frame}
    (h : FrameHolds settings [] o f) :
    f.close settings = nodeOfContainer settings o.tag o.offset (forestNodes settings o.inside)
      (literalText o.inside) (allBoxes o.inside) := by
  obtain ⟨tag, offset, nodes, literal, checked⟩ := f
  obtain ⟨otag, ooffset, inside⟩ := o
  obtain ⟨rfl, rfl, hliteral, hnodes, hchecked⟩ := h
  unfold Frame.close nodeOfContainer
  cases tag with
  | codeBlock info =>
    have hlit : literal = literalText inside := hliteral rfl
    simp only [containerNode, hlit, codeValue_eq]
  | htmlBlock =>
    have hlit : literal = literalText inside := hliteral rfl
    simp only [containerNode, hlit, htmlValue_eq]
  | item =>
    have hticks : checked = (allBoxes inside).getLast? := by simpa using hchecked rfl
    simp only [containerNode, hnodes rfl, hticks]
    rfl
  | image form url title =>
    simp only [containerNode, hnodes rfl, plainTexts_eq_join]
    rfl
  | metadata => rfl
  | definitionList => rfl
  | definitionTitle => rfl
  | definition => rfl
  | _ =>
    simp only [containerNode, hnodes rfl]
    rfl

lemma isText_liftHeading (ns : List Node) : (liftHeading ns).isText = false := by
  unfold liftHeading
  split
  · dsimp only
    split <;> rfl
  · rfl

/-- No container becomes a text. -/
lemma isText_nodeOfContainer (settings : Settings) (tag : Tag) (offset : Nat) (ns : List Node)
    (literal : String) (ticks : List Bool) :
    (nodeOfContainer settings tag offset ns literal ticks).isText = false := by
  cases tag with
  | paragraph =>
    simp only [nodeOfContainer, paragraphNode]
    split
    · exact isText_liftHeading _
    · rfl
  | _ => rfl

/-- No container becomes a text node, so closing one never joins texts around it. -/
lemma isText_close (settings : Settings) (f : Frame) : (f.close settings).isText = false := by
  obtain ⟨tag, offset, nodes, literal, checked⟩ := f
  unfold Frame.close
  cases tag with
  | paragraph =>
    simp only [containerNode, paragraphNode]
    split
    · exact isText_liftHeading _
    · rfl
  | _ => rfl

end Close

section Step

variable {settings : Settings} {s : Span} {pending : List Bool} {r : Reading} {b : Builder}

/-- `g` adds the nodes of a span to its siblings, of which the latest comes first. -/
def Gathers (settings : Settings) (s : Span) (g : List Node → List Node) : Prop :=
  ∀ ns ms, ns.reverse = joinTexts ms → (g ns).reverse = joinTexts (ms ++ spanNodes settings s)

lemma gathers_addText {value : String} (h : spanNodes settings s = [.text value]) :
    Gathers settings s (addText value) := by
  intro ns ms hns
  rw [h, joinTexts_append_text, reverse_addText, hns]

lemma gathers_cons {n : Node} (h : spanNodes settings s = [n]) (hn : n.isText = false) :
    Gathers settings s (n :: ·) := by
  intro ns ms hns
  rw [h, joinTexts_append hn, List.reverse_cons, hns]

lemma gathers_id (h : spanNodes settings s = []) : Gathers settings s id := by
  intro ns ms hns
  rw [h, List.append_nil, id, hns]

lemma FrameHolds.gather {o : OpenSpan} {f : Frame} {g : List Node → List Node}
    (h : FrameHolds settings (boxes s) o f) (hg : Gathers settings s g)
    (hs : f.isLiteral = true → literalText [s] = "") :
    FrameHolds settings [] { o with inside := o.inside ++ [s] } { f with nodes := g f.nodes } where
  tag := h.tag
  offset := h.offset
  literal hf := by rw [literalText_snoc, hs hf, String.append_empty]; exact h.literal hf
  nodes hf := by
    rw [forestNodes, siblingNodes_snoc]
    exact hg _ _ (h.nodes hf)
  checked hf := by rw [allBoxes_snoc, List.append_nil]; exact h.checked hf

lemma FrameHolds.takeLiteral {o : OpenSpan} {f : Frame} (h : FrameHolds settings (boxes s) o f)
    (hf : f.isLiteral = true) :
    FrameHolds settings [] { o with inside := o.inside ++ [s] }
      { f with literal := f.literal ++ literalText [s] } where
  tag := h.tag
  offset := h.offset
  literal _ := by rw [literalText_snoc, ← h.literal hf]
  nodes hf' := by
    have hfalse : f.isLiteral = false := hf'
    rw [hf] at hfalse
    cases hfalse
  checked hf := by rw [allBoxes_snoc, List.append_nil]; exact h.checked hf

/-- The builder takes in a span by its nodes, unless its text belongs to a literal container. -/
lemma Holds.mapNodes {g : List Node → List Node} (h : Holds settings (boxes s) r b)
    (hg : Gathers settings s g)
    (hs : (∃ f ∈ b.frames.head?, f.isLiteral = true) → literalText [s] = "") :
    Holds settings [] (r.extend [s]) (b.mapNodes g) := by
  obtain ⟨opened, top⟩ := r
  obtain ⟨frames, done⟩ := b
  obtain ⟨hframes, hdone⟩ := h
  cases opened with
  | nil =>
    cases frames with
    | cons f fs => cases hframes
    | nil =>
      refine ⟨trivial, ?_⟩
      simp only [Reading.extend, Builder.mapNodes]
      rw [forestNodes, siblingNodes_snoc]
      exact hg _ _ hdone
  | cons o os =>
    cases frames with
    | nil => cases hframes
    | cons f fs =>
      refine ⟨⟨hframes.1.gather hg fun hf => hs ⟨f, rfl, hf⟩, ?_⟩, hdone⟩
      have htail := hframes.2
      rwa [allBoxes_snoc, List.append_nil]

lemma Holds.addLiteral {g : List Node → List Node} {value : String}
    (h : Holds settings (boxes s) r b) (hg : Gathers settings s g) (hs : literalText [s] = value) :
    Holds settings [] (r.extend [s]) (Builder.addLiteral value (Builder.mapNodes g) b) := by
  obtain ⟨opened, top⟩ := r
  obtain ⟨frames, done⟩ := b
  cases frames with
  | nil => exact h.mapNodes hg (by simp)
  | cons f fs =>
    cases hf : f.isLiteral with
    | false =>
      simp only [Builder.addLiteral, hf, Bool.false_eq_true, if_false]
      exact h.mapNodes hg (by simp [hf])
    | true =>
      obtain ⟨hframes, hdone⟩ := h
      cases opened with
      | nil => cases hframes
      | cons o os =>
        simp only [Builder.addLiteral, hf, if_true, ← hs]
        refine ⟨⟨hframes.1.takeLiteral hf, ?_⟩, hdone⟩
        have htail := hframes.2
        rwa [allBoxes_snoc, List.append_nil]

/-- A box ticks the innermost item, from however far inside. -/
lemma Represents.markItem (c : Bool) {os : List OpenSpan} {fs : List Frame}
    (h : Represents settings pending os fs) :
    Represents settings (pending ++ [c]) os (markItem c fs) := by
  induction fs generalizing pending os with
  | nil =>
    cases os with
    | nil => trivial
    | cons o os => cases h
  | cons f fs ih =>
    cases os with
    | nil => cases h
    | cons o os =>
      obtain ⟨hf, hfs⟩ := h
      cases hitem : f.isItem with
      | true =>
        rw [Tree.markItem, if_pos hitem]
        refine ⟨⟨hf.tag, hf.offset, hf.literal, hf.nodes, fun _ => ?_⟩, ?_⟩
        · rw [← List.append_assoc, List.getLast?_concat]
        · rw [if_pos hitem] at hfs
          exact (if_pos hitem).symm ▸ hfs
      | false =>
        rw [Tree.markItem, if_neg (by simp [hitem])]
        rw [if_neg (by simp [hitem])] at hfs
        refine ⟨⟨hf.tag, hf.offset, hf.literal, hf.nodes, by simp [hitem]⟩, ?_⟩
        rw [if_neg (by simp [hitem]), ← List.append_assoc]
        exact ih hfs

lemma mapNodes_id (b : Builder) : b.mapNodes id = b := by
  obtain ⟨frames, done⟩ := b
  cases frames <;> rfl

lemma Holds.push_leaf {e : Event} (h : Holds settings [] r b) (he : e.isLeaf = true) :
    ∃ b', b.push settings e = .ok b' ∧ Holds settings [] (r.extend [.leaf e he]) b' := by
  cases e with
  | start | stop => cases he
  | text value => exact ⟨_, rfl, h.addLiteral (gathers_addText rfl) (String.append_empty)⟩
  | html value => exact ⟨_, rfl, h.addLiteral (gathers_cons rfl rfl) (String.append_empty)⟩
  | softBreak => exact ⟨_, rfl, h.mapNodes (gathers_addText rfl) fun _ => rfl⟩
  | taskMarker checked =>
    have hmark : Holds settings [checked] r { b with frames := Tree.markItem checked b.frames } :=
      ⟨h.frames.markItem checked, h.done⟩
    have htaken := hmark.mapNodes (s := .leaf (.taskMarker checked) he) (gathers_id rfl) fun _ => rfl
    rw [mapNodes_id] at htaken
    exact ⟨_, rfl, htaken⟩
  | _ => exact ⟨_, rfl, h.mapNodes (gathers_cons rfl rfl) fun _ => rfl⟩

/-- Whatever event a reading can take, the builder can, and holds the new reading. -/
theorem Holds.push {r' : Reading} {e : Event} (h : Holds settings [] r b)
    (hr : r.push e = some r') :
    ∃ b', b.push settings e = .ok b' ∧ Holds settings [] r' b' := by
  cases he : e.isLeaf with
  | true =>
    rw [Reading.push_leaf r he] at hr
    obtain rfl := Option.some.inj hr
    exact h.push_leaf he
  | false =>
    obtain ⟨opened, top⟩ := r
    obtain ⟨frames, done⟩ := b
    obtain ⟨hframes, hdone⟩ := h
    cases e with
    | start tag offset =>
      obtain rfl := Option.some.inj hr
      refine ⟨_, rfl, ⟨⟨rfl, rfl, fun _ => rfl, fun _ => rfl, fun _ => rfl⟩, ?_⟩, hdone⟩
      have hpending : (if (Frame.new tag offset).isItem then [] else allBoxes [] ++ []) =
          ([] : List Bool) := ite_self _
      exact hpending.symm ▸ hframes
    | stop =>
      cases opened with
      | nil => cases hr
      | cons o os =>
        cases frames with
        | nil => cases hframes
        | cons f fs =>
          obtain rfl := Option.some.inj hr
          obtain ⟨hf, hfs⟩ := hframes
          have hclosed : Holds settings (boxes (.container o.tag o.offset o.inside)) ⟨os, top⟩
              ⟨fs, done⟩ := by
            rw [boxes_container, ← hf.tag]
            rw [List.append_nil] at hfs
            simp only [isItem_iff] at hfs
            exact ⟨hfs, hdone⟩
          refine ⟨_, rfl, hclosed.mapNodes (gathers_cons ?_ (isText_close settings f)) fun _ => rfl⟩
          rw [close_eq_nodeOfContainer hf]
          rfl
    | _ => cases he

/-- A run of the builder holds at every point what a reading of the same events has read. -/
theorem Holds.pushAll {r' : Reading} {es : List Event} (h : Holds settings [] r b)
    (hr : r.pushAll es = some r') :
    ∃ b', b.pushAll settings es = .ok b' ∧ Holds settings [] r' b' := by
  induction es generalizing r b with
  | nil =>
    obtain rfl := Option.some.inj hr
    exact ⟨b, rfl, h⟩
  | cons e es ih =>
    obtain ⟨r₁, hpush, hrest⟩ := Option.bind_eq_some_iff.mp hr
    obtain ⟨b₁, hb₁, h₁⟩ := h.push hpush
    obtain ⟨b', hb', h'⟩ := ih h₁ hrest
    exact ⟨b', by rw [Builder.pushAll, hb₁]; exact hb', h'⟩

lemma holds_empty (settings : Settings) : Holds settings [] .empty .empty :=
  ⟨trivial, rfl⟩

end Step

theorem ofEvents_eventsOf (settings : Settings) (ss : List Span) :
    ofEvents settings (eventsOf ss) = .ok ⟨forestNodes settings ss⟩ := by
  obtain ⟨⟨frames, done⟩, hb, hframes, hdone⟩ :=
    (holds_empty settings).pushAll (Reading.empty.pushAll_eventsOf ss)
  rw [ofEvents, hb]
  cases frames with
  | nil => exact congrArg (fun ns => Except.ok (Document.mk ns)) hdone
  | cons f fs => cases hframes

/-- Balanced events are those of exactly one forest of spans, and the builder makes of them the
nodes that recursion on this forest gives. -/
theorem ofEvents_eq_forestNodes (options : ParseOptions) (source : String) (es : List Event)
    (h : Balanced es) :
    (∃! ss, eventsOf ss = es) ∧
      ∀ ss, eventsOf ss = es →
        ofEvents (options.settings source) es =
          .ok ⟨forestNodes (options.settings source) ss⟩ := by
  constructor
  · obtain ⟨ss, hss⟩ := balanced_iff_exists_spans.mp h
    exact ⟨ss, hss, fun ts hts => eventsOf_injective (hts.trans hss.symm)⟩
  · rintro ss rfl
    exact ofEvents_eventsOf _ ss

/-- Each box ticks the item that it stands in, and texts around a line break are one node. -/
theorem ofEvents_nested_items :
    let es : List Event := [.start .item 0, .taskMarker true, .start .paragraph 6, .text "a",
      .softBreak, .text "b", .stop, .start (.list none) 10, .start .item 10, .taskMarker true,
      .taskMarker false, .code "c", .stop, .stop, .stop]
    Balanced es ∧
      ofEvents (ParseOptions.default.settings "- [x] a\nb") es =
        .ok ⟨[.listItem (some true) [.paragraph [.text "a\nb"],
          .list false none [.listItem (some false) [.inlineCode "c"]]]]⟩ := by
  intro es
  let ss : List Span := [.container .item 0 [.leaf (.taskMarker true) rfl,
    .container .paragraph 6 [.leaf (.text "a") rfl, .leaf .softBreak rfl, .leaf (.text "b") rfl],
    .container (.list none) 10 [.container .item 10 [.leaf (.taskMarker true) rfl,
      .leaf (.taskMarker false) rfl, .leaf (.code "c") rfl]]]]
  have hss : eventsOf ss = es := rfl
  have hes : Balanced es := balanced_eventsOf ss
  refine ⟨hes, ?_⟩
  rw [(ofEvents_eq_forestNodes .default "- [x] a\nb" es hes).2 ss hss]
  rfl

end Folio.Tree
