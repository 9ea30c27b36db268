import Folio.Markdown.Events
import Folio.Proofs.BlockParagraphs
import Folio.Proofs.Brackets

/-!
# The events of a source

The events that a source is read into are balanced, and the paragraphs among them are those of its
blocks, each with the events of its box and of its text inside.
-/

namespace Folio

section Balance

variable {es es' : List Event}

lemma Balanced.nil : Balanced [] :=
  balanced_eventsOf []

lemma Balanced.leaf {e : Event} (h : e.isLeaf = true) : Balanced [e] :=
  balanced_eventsOf [.leaf e h]

lemma Balanced.append (h : Balanced es) (h' : Balanced es') : Balanced (es ++ es') := by
  obtain ⟨ss, rfl⟩ := balanced_iff_exists_spans.mp h
  obtain ⟨ss', rfl⟩ := balanced_iff_exists_spans.mp h'
  rw [← eventsOf_append]
  exact balanced_eventsOf _

lemma Balanced.container (h : Balanced es) (tag : Tag) (offset : Nat) :
    Balanced (.start tag offset :: (es ++ [.stop])) := by
  obtain ⟨ss, rfl⟩ := balanced_iff_exists_spans.mp h
  have hspan := balanced_eventsOf [.container tag offset ss]
  rwa [eventsOf, eventsOf, Span.events, List.append_nil] at hspan

lemma Balanced.flatMap {α : Type} {xs : List α} {f : α → List Event}
    (h : ∀ x ∈ xs, Balanced (f x)) : Balanced (xs.flatMap f) := by
  induction xs with
  | nil => exact .nil
  | cons x xs ih =>
    obtain ⟨hx, hrest⟩ := List.forall_mem_cons.mp h
    rw [List.flatMap_cons]
    exact hx.append (ih hrest)

/-- A container ends in one place. -/
lemma Balanced.eq_of_append_stop {post post' : List Event} (h : Balanced es) (h' : Balanced es')
    (heq : es ++ .stop :: post = es' ++ .stop :: post') : es = es' := by
  -- If one of them went on longer, it would close more than it opens.
  have hlonger {es es' : List Event} {more : List Event} (h : Balanced es) (h' : Balanced es')
      (heq : es' = es ++ .stop :: more) : False := by
    have hprefix : es ++ [.stop] <+: es' := ⟨more, by rw [heq, List.append_assoc]; rfl⟩
    have hle := h'.opened _ hprefix
    have hclosed := h.closed
    simp only [openings, closings, List.countP_append] at hle hclosed
    simp [Event.isStart, Event.isStop] at hle
    omega
  rcases List.append_eq_append_iff.mp heq with ⟨more, hes', hpost⟩ | ⟨more, hes, hpost⟩
  · cases more with
    | nil => simpa using hes'.symm
    | cons e more =>
      rw [List.cons_append] at hpost
      obtain ⟨rfl, -⟩ := List.cons.inj hpost
      exact (hlonger h h' hes').elim
  · cases more with
    | nil => simpa using hes
    | cons e more =>
      rw [List.cons_append] at hpost
      obtain ⟨rfl, -⟩ := List.cons.inj hpost
      exact (hlonger h' h hes).elim

end Balance

/-- A property of the offset and the inside of every paragraph that is opened in these events. -/
def EachParagraph (Q : Nat → List Event → Prop) (es : List Event) : Prop :=
  ∀ pre offset rest, es = pre ++ .start .paragraph offset :: rest →
    ∃ inner post, rest = inner ++ .stop :: post ∧ Balanced inner ∧ Q offset inner

section Paragraphs

variable {Q : Nat → List Event → Prop} {es es' : List Event}

lemma EachParagraph.nil : EachParagraph Q [] := by
  intro pre offset rest heq
  cases pre <;> cases heq

lemma EachParagraph.append (h : EachParagraph Q es) (h' : EachParagraph Q es') :
    EachParagraph Q (es ++ es') := by
  intro pre offset rest heq
  rcases List.append_eq_append_iff.mp heq with ⟨more, rfl, hlater⟩ | ⟨more, hes, hrest⟩
  · exact h' more offset rest hlater
  · cases more with
    | nil => exact h' [] offset rest hrest.symm
    | cons e more =>
      rw [List.cons_append] at hrest
      obtain ⟨rfl, rfl⟩ := List.cons.inj hrest
      obtain ⟨inner, post, rfl, hinner, hQ⟩ := h pre offset more hes
      exact ⟨inner, post ++ es', by rw [List.append_assoc]; rfl, hinner, hQ⟩

lemma EachParagraph.cons {e : Event} (he : ∀ offset, e ≠ .start .paragraph offset)
    (h : EachParagraph Q es) : EachParagraph Q (e :: es) := by
  intro pre offset rest heq
  cases pre with
  | nil => exact absurd (List.cons.inj heq).1 (he offset)
  | cons e' pre => exact h pre offset rest (List.cons.inj heq).2

lemma EachParagraph.flatMap {α : Type} {xs : List α} {f : α → List Event}
    (h : ∀ x ∈ xs, EachParagraph Q (f x)) : EachParagraph Q (xs.flatMap f) := by
  induction xs with
  | nil => exact .nil
  | cons x xs ih =>
    obtain ⟨hx, hrest⟩ := List.forall_mem_cons.mp h
    rw [List.flatMap_cons]
    exact hx.append (ih hrest)

lemma EachParagraph.container (h : EachParagraph Q es) {tag : Tag} (htag : tag ≠ .paragraph)
    (offset : Nat) : EachParagraph Q (.start tag offset :: (es ++ [.stop])) := by
  refine .cons (fun offset' heq => htag (Event.start.inj heq).1) (h.append ?_)
  exact .cons (fun offset' heq => by cases heq) .nil

/-- A paragraph with no other one in it. -/
lemma EachParagraph.paragraph {offset : Nat} (h : EachParagraph Q es) (hes : Balanced es)
    (hQ : Q offset es) : EachParagraph Q (.start .paragraph offset :: (es ++ [.stop])) := by
  intro pre offset' rest heq
  cases pre with
  | nil =>
    obtain ⟨hstart, rfl⟩ := List.cons.inj heq
    cases hstart
    exact ⟨es, [], rfl, hes, hQ⟩
  | cons e pre =>
    have hclosed : EachParagraph Q (es ++ [.stop]) :=
      h.append (.cons (fun offset' heq => by cases heq) .nil)
    exact hclosed pre offset' rest (List.cons.inj heq).2

/-- The inside of a paragraph that is known to end in one place. -/
lemma EachParagraph.inside {pre inner post : List Event} {offset : Nat}
    (h : EachParagraph Q (pre ++ .start .paragraph offset :: (inner ++ .stop :: post)))
    (hinner : Balanced inner) : Q offset inner := by
  obtain ⟨inner', post', heq, hinner', hQ⟩ := h pre offset _ rfl
  rwa [hinner.eq_of_append_stop hinner' heq]

end Paragraphs

namespace Markdown

/-- Balanced events whose paragraphs have a property. -/
structure Parsed (Q : Nat → List Event → Prop) (es : List Event) : Prop where
  balanced : Balanced es
  paragraphs : EachParagraph Q es

section Parsed

variable {Q : Nat → List Event → Prop} {es es' : List Event}

namespace Parsed

lemma nil : Parsed Q [] :=
  ⟨.nil, .nil⟩

lemma leaf {e : Event} (h : e.isLeaf = true) : Parsed Q [e] := by
  refine ⟨.leaf h, .cons (fun offset heq => ?_) .nil⟩
  subst heq
  cases h

lemma append (h : Parsed Q es) (h' : Parsed Q es') : Parsed Q (es ++ es') :=
  ⟨h.balanced.append h'.balanced, h.paragraphs.append h'.paragraphs⟩

lemma flatMap {α : Type} {xs : List α} {f : α → List Event} (h : ∀ x ∈ xs, Parsed Q (f x)) :
    Parsed Q (xs.flatMap f) :=
  ⟨.flatMap fun x hx => (h x hx).balanced, .flatMap fun x hx => (h x hx).paragraphs⟩

lemma container (h : Parsed Q es) {tag : Tag} (htag : tag ≠ .paragraph) (offset : Nat) :
    Parsed Q (.start tag offset :: (es ++ [.stop])) :=
  ⟨h.balanced.container tag offset, h.paragraphs.container htag offset⟩

lemma paragraph {offset : Nat} (h : Parsed Q es) (hQ : Q offset es) :
    Parsed Q (.start .paragraph offset :: (es ++ [.stop])) :=
  ⟨h.balanced.container .paragraph offset, h.paragraphs.paragraph h.balanced hQ⟩

end Parsed

mutual

lemma parsed_inlineEvents (p : Inline) : Parsed Q p.events := by
  cases p with
  | span kind cs =>
    rw [Inline.events]
    exact (parsed_eventsOf cs).container (by cases kind <;> exact Tag.noConfusion) 0
  | link form url title cs | image form url title cs =>
    rw [Inline.events]
    exact (parsed_eventsOf cs).container Tag.noConfusion 0
  | math display value => cases display <;> exact .leaf rfl
  | _ =>
    rw [Inline.events]
    exact .leaf rfl

/-- Running text has no paragraphs in it. -/
lemma parsed_eventsOf (ps : List Inline) : Parsed Q (Inline.eventsOf ps) := by
  cases ps with
  | nil =>
    rw [Inline.eventsOf]
    exact .nil
  | cons p ps =>
    rw [Inline.eventsOf]
    exact (parsed_inlineEvents p).append (parsed_eventsOf ps)

end

lemma parsed_taskEvents (task : Option Bool) : Parsed Q (taskEvents task) := by
  cases task with
  | none => exact .nil
  | some checked => exact .leaf rfl

section Blocks

variable (r : Reading) {P : Nat → Content → Prop}

lemma parsed_text (task : Option Bool) (ps : List Inline) :
    Parsed Q (taskEvents task ++ Inline.eventsOf ps) :=
  (parsed_taskEvents task).append (parsed_eventsOf ps)

lemma parsed_row {tag : Tag} (htag : tag ≠ .paragraph) (cells : List Content) :
    Parsed Q (r.row tag cells) :=
  .container (.flatMap fun _ _ => (parsed_eventsOf _).container Tag.noConfusion 0) htag 0

mutual

lemma parsed_blockEvents
    (hPQ : ∀ start task content, P start content →
      Q (r.source.byteOffset start) (taskEvents task ++ r.content content))
    (b : Block) (hb : b.EveryParagraph P) : Parsed Q (b.events r) := by
  cases b with
  | paragraph bare start task content =>
    cases bare with
    | true =>
      rw [Block.events]
      exact parsed_text task _
    | false =>
      rw [Block.events]
      exact (parsed_text task _).paragraph (hPQ start task content hb)
  | heading level task content trailing =>
    rw [Block.events]
    exact (parsed_text task _).container Tag.noConfusion 0
  | code info text =>
    rw [Block.events]
    exact Parsed.container (.leaf (e := .text _) rfl) Tag.noConfusion 0
  | html text =>
    rw [Block.events]
    exact Parsed.container (.leaf (e := .html _) rfl) Tag.noConfusion 0
  | rule =>
    rw [Block.events]
    exact .leaf rfl
  | table header rows =>
    rw [Block.events]
    have hrows : Parsed Q (rows.flatMap (r.row .tableRow)) :=
      .flatMap fun _ _ => parsed_row r Tag.noConfusion _
    exact ((parsed_row r Tag.noConfusion header).append hrows).container Tag.noConfusion 0
  | quote blocks | list start blocks | item blocks | footnote label blocks =>
    rw [Block.events]
    exact (parsed_blocksEvents hPQ blocks hb).container Tag.noConfusion 0
  | task checked =>
    rw [Block.events]
    exact .leaf rfl

/-- Blocks are balanced, and their paragraphs are those among the events. -/
lemma parsed_blocksEvents
    (hPQ : ∀ start task content, P start content →
      Q (r.source.byteOffset start) (taskEvents task ++ r.content content))
    (bs : List Block) (hbs : EveryParagraphIn P bs) : Parsed Q (blocksEvents r bs) := by
  cases bs with
  | nil =>
    rw [blocksEvents]
    exact .nil
  | cons b bs =>
    rw [blocksEvents]
    exact (parsed_blockEvents hPQ b hbs.1).append (parsed_blocksEvents hPQ bs hbs.2)

end

end Blocks

end Parsed

/-- The events of a source are balanced. What holds of the paragraphs among its blocks shows in
what is inside of the paragraphs among the events. -/
theorem parsed_events (dialect : Dialect) (source : List Char) {P : Nat → Content → Prop}
    {Q : Nat → List Event → Prop}
    (hP : EveryParagraphIn P (readBlocks dialect source.toArray).blocks)
    (hPQ : ∀ (r : Reading) start task content, r.source = source.toArray → P start content →
      Q (r.source.byteOffset start) (taskEvents task ++ r.content content)) :
    Parsed Q (events dialect source) :=
  parsed_blocksEvents _ (fun start task content h => hPQ _ start task content rfl h) _ hP.reverse

theorem balanced_events (dialect : Dialect) (source : List Char) :
    Balanced (events dialect source) := by
  have hnone : EveryParagraphIn (fun _ _ => True) (readBlocks dialect source.toArray).blocks :=
    everyParagraph_readBlocks dialect fun _ _ _ _ _ _ _ => trivial
  exact (parsed_events (Q := fun _ _ => True) dialect source hnone
    fun _ _ _ _ _ _ => trivial).balanced

end Markdown

end Folio
