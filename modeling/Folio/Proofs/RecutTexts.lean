import Folio.Proofs.UnbalancedEvents
import Mathlib.Logic.Relation

/-!
# Texts in other pieces

How a text is cut into events does not matter, nor whether a line break in it is an event of its own
or part of the text, unless it stands in a block that is taken literally. The builder is in the same
state behind the pieces as behind the whole, whatever comes before and after.
-/

namespace Folio

/-- The container with this tag is opened last of those that are open behind the events. -/
def Innermost (tag : Tag) (es : List Event) : Prop :=
  ∃ before offset inside, es = before ++ .start tag offset :: inside ∧ Balanced inside

/-- Code and blocks of markup. -/
inductive Tag.IsVerbatim : Tag → Prop where
  | code (info : Option String) : IsVerbatim (.codeBlock info)
  | markup : IsVerbatim .htmlBlock

/-- The second sequence of events says the same as the first one and cuts one text of it in two, or
spells out one line break of it. -/
inductive Recut : List Event → List Event → Prop where
  | cut (front : List Event) (value more : String) (rest : List Event) :
    Recut (front ++ .text (value ++ more) :: rest) (front ++ .text value :: .text more :: rest)
  | lineBreak (front rest : List Event) (h : ∀ tag, Innermost tag front → ¬tag.IsVerbatim) :
    Recut (front ++ .softBreak :: rest) (front ++ .text "\n" :: rest)

namespace Tree

variable {settings : Settings} {front : List Event} {b : Builder}

lemma addText_addText (value more : String) (ns : List Node) :
    addText more (addText value ns) = addText (value ++ more) ns := by
  cases ns with
  | nil => rfl
  | cons n ns =>
    cases n with
    | text before => simp only [addText, String.append_assoc]
    | _ => rfl

lemma isVerbatim_of_isLiteral {f : Frame} (h : f.isLiteral = true) : f.tag.IsVerbatim := by
  obtain ⟨tag, offset, nodes, literal, checked⟩ := f
  cases tag with
  | codeBlock info => exact .code info
  | htmlBlock => exact .markup
  | _ => cases h

namespace Builder

lemma mapNodes_mapNodes (g k : List Node → List Node) (b : Builder) :
    (b.mapNodes g).mapNodes k = b.mapNodes (k ∘ g) := by
  obtain ⟨frames, done⟩ := b
  cases frames <;> rfl

/-- Two texts one behind the other leave the builder in the state in which their whole leaves it. -/
lemma push_text_append (settings : Settings) (b : Builder) (value more : String) :
    b.push settings (.text value) >>= (·.push settings (.text more)) =
      b.push settings (.text (value ++ more)) := by
  have hjoin (b : Builder) :
      (b.mapNodes (addText value)).mapNodes (addText more) =
        b.mapNodes (addText (value ++ more)) := by
    rw [mapNodes_mapNodes]
    exact congrArg (mapNodes · b) (funext (addText_addText value more))
  obtain ⟨frames, done⟩ := b
  refine congrArg Except.ok ?_
  cases frames with
  | nil => exact hjoin ⟨[], done⟩
  | cons f fs =>
    cases hf : f.isLiteral with
    | true =>
      have hstill (literal : String) : ({ f with literal } : Frame).isLiteral = true := hf
      simp only [addLiteral, hf, hstill, if_true, String.append_assoc]
    | false =>
      have hstill (nodes : List Node) : ({ f with nodes } : Frame).isLiteral = false := hf
      simp only [addLiteral, mapNodes, hf, hstill, Bool.false_eq_true, if_false, addText_addText]

lemma push_softBreak (settings : Settings) (h : ∀ f ∈ b.frames.head?, f.isLiteral = false) :
    b.push settings .softBreak = b.push settings (.text "\n") := by
  obtain ⟨frames, done⟩ := b
  cases frames with
  | nil => rfl
  | cons f fs => simp only [push, addLiteral, h f rfl, Bool.false_eq_true, if_false]

/-- The innermost frame is that of the innermost container. -/
lemma isVerbatim_of_pushAll {r : Reading} (hread : Reading.empty.pushAll front = some r)
    (hb : Holds settings [] r b) {f : Frame} (hf : f ∈ b.frames.head?)
    (hliteral : f.isLiteral = true) : ∃ tag, Innermost tag front ∧ tag.IsVerbatim := by
  obtain ⟨fs, hframes⟩ := List.head?_eq_some_iff.mp hf
  have hrepresents := hb.frames
  rw [hframes] at hrepresents
  cases hopened : r.opened with
  | nil =>
    rw [hopened] at hrepresents
    cases hrepresents
  | cons o os =>
    rw [hopened] at hrepresents
    have htag : f.tag = o.tag := hrepresents.1.tag
    obtain ⟨before, inside, heq, hinside⟩ := Reading.exists_innermost_of_pushAll hread hopened
    exact ⟨o.tag, ⟨before, o.offset, inside, heq, hinside⟩, htag ▸ isVerbatim_of_isLiteral hliteral⟩

end Builder

/-- What comes of events depends on some of them only by the state behind these, or not at all, if
what is in front of them is refused. -/
lemma ofEvents_congr {es es' : List Event}
    (h : ∀ r b, Reading.empty.pushAll front = some r → Holds settings [] r b →
      b.pushAll settings es = b.pushAll settings es') :
    ofEvents settings (front ++ es) = ofEvents settings (front ++ es') := by
  cases hread : Reading.empty.pushAll front with
  | none =>
    obtain ⟨first, later, r, rfl, hfirst, hopened⟩ :=
      Reading.exists_unopened_of_pushAll_eq_none hread
    rw [List.append_assoc, List.append_assoc]
    exact (ofEvents_of_unopened hfirst hopened _).trans (ofEvents_of_unopened hfirst hopened _).symm
  | some r =>
    obtain ⟨b, hb, hholds⟩ := (holds_empty settings).pushAll hread
    rw [ofEvents, ofEvents, Builder.pushAll_append, Builder.pushAll_append, hb]
    exact congrArg (· >>= Builder.finish) (h r b hread hholds)

lemma ofEvents_eq_of_recut (settings : Settings) {es es' : List Event} (h : Recut es es') :
    ofEvents settings es = ofEvents settings es' := by
  cases h with
  | cut front value more rest =>
    refine ofEvents_congr fun r b _ _ => ?_
    have hpieces := Builder.push_text_append settings b value more
    rw [Builder.pushAll, ← hpieces, bind_assoc]
    rfl
  | lineBreak front rest h =>
    refine ofEvents_congr fun r b hread hholds => ?_
    have hplain : ∀ f ∈ b.frames.head?, f.isLiteral = false := by
      intro f hf
      by_contra hliteral
      obtain ⟨tag, hinnermost, hverbatim⟩ :=
        Builder.isVerbatim_of_pushAll hread hholds hf (by simpa using hliteral)
      exact h tag hinnermost hverbatim
    rw [Builder.pushAll, Builder.pushAll, Builder.push_softBreak settings hplain]

/-- Events that differ only in how their texts are cut, at any number of places, and in line breaks
that are spelled out, are built into the same tree or refused for the same reason. -/
theorem ofEvents_eq_of_eqvGen_recut (options : ParseOptions) (source : String)
    {es es' : List Event} (h : Relation.EqvGen Recut es es') :
    ofEvents (options.settings source) es = ofEvents (options.settings source) es' := by
  induction h with
  | rel es es' h => exact ofEvents_eq_of_recut _ h
  | refl es => rfl
  | symm es es' _ ih => exact ih.symm
  | trans es es' es'' _ _ ih ih' => exact ih.trans ih'

/-- A literal, a line break and a block of code in one piece each. -/
def inOnePiece : List Event :=
  [.start .paragraph 0, .text "a www.b.org", .softBreak, .text "c", .stop,
    .start (.codeBlock none) 16, .text "x\ny", .stop]

def inPieces : List Event :=
  [.start .paragraph 0, .text "a ww", .text "w.b.org", .text "\n", .text "c", .stop,
    .start (.codeBlock none) 16, .text "", .text "x\ny", .stop]

/-- The literal is found across the cut in it. -/
theorem ofEvents_eq_of_eqvGen_recut_literal :
    Relation.EqvGen Recut inOnePiece inPieces ∧
      ofEvents (ParseOptions.default.settings "a www.b.org\nc\n\n    x\n    y") inPieces =
        .ok ⟨[.paragraph [.text "a ", .link "http://www.b.org" none [.text "www.b.org"],
          .text "\nc"], .code none "x\ny"]⟩ := by
  have hparagraph : ∀ tag, Innermost tag [.start .paragraph 0, .text "a www.b.org"] →
      ¬tag.IsVerbatim := by
    rintro tag ⟨before, offset, inside, heq, -⟩ hverbatim
    have hmem : Event.start tag offset ∈ [Event.start .paragraph 0, .text "a www.b.org"] := by
      rw [heq]
      exact List.mem_append_right _ List.mem_cons_self
    obtain ⟨rfl, -⟩ : tag = .paragraph ∧ offset = 0 := by simpa using hmem
    cases hverbatim
  have hbreak := Recut.lineBreak [.start .paragraph 0, .text "a www.b.org"]
    [.text "c", .stop, .start (.codeBlock none) 16, .text "x\ny", .stop] hparagraph
  have hliteral := Recut.cut [.start .paragraph 0] "a ww" "w.b.org"
    [.text "\n", .text "c", .stop, .start (.codeBlock none) 16, .text "x\ny", .stop]
  have hcode := Recut.cut [.start .paragraph 0, .text "a ww", .text "w.b.org", .text "\n",
    .text "c", .stop, .start (.codeBlock none) 16] "" "x\ny" [.stop]
  have hrecut : Relation.EqvGen Recut inOnePiece inPieces :=
    .trans _ _ _ (.rel _ _ hbreak) (.trans _ _ _ (.rel _ _ hliteral) (.rel _ _ hcode))
  refine ⟨hrecut, ?_⟩
  rw [← ofEvents_eq_of_eqvGen_recut .default _ hrecut]
  rfl

/-- In a block of code a line break of its own counts for nothing. -/
example : ofEvents (ParseOptions.default.settings "")
    [.start (.codeBlock none) 0, .text "a", .softBreak, .text "b", .stop] =
      .ok ⟨[.code none "ab"]⟩ := rfl

end Tree

end Folio
