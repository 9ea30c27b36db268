import Folio.Proofs.TreeRecursion

/-!
# Unbalanced events

A reading gets through events as long as no container is closed that was not opened, and what is
open in the end is what was opened and not closed. The builder goes with it: it yields a tree for
balanced events only, and for others it says what is wrong with them.
-/

namespace Folio

section Depth

variable {es front rest : List Event}

end Depth

namespace Reading

variable {r r' : Reading} {e : Event} {es : List Event}

lemma events_of_pushAll (h : r.pushAll es = some r') : r'.events = r.events ++ es := by
  induction es generalizing r with
  | nil =>
    obtain rfl := Option.some.inj h
    rw [List.append_nil]
  | cons e es ih =>
    obtain ⟨r₁, hpush, hrest⟩ := Option.bind_eq_some_iff.mp h
    rw [ih hrest, events_of_push hpush, List.append_assoc, List.singleton_append]

/-- The only thing that cannot be read is the end of a container when none is open. -/
lemma push_eq_none_iff : r.push e = none ↔ e = .stop ∧ r.opened = [] := by
  obtain ⟨opened, top⟩ := r
  cases e with
  | stop => cases opened <;> simp [push]
  | _ => simp [push, Event.isLeaf]

/-- A reading that stops on its way does so at the first container that was not opened. -/
lemma exists_unopened_of_pushAll_eq_none (h : r.pushAll es = none) :
    ∃ front rest r', es = front ++ .stop :: rest ∧ r.pushAll front = some r' ∧
      r'.opened = [] := by
  induction es generalizing r with
  | nil => cases h
  | cons e es ih =>
    rw [pushAll] at h
    rcases hpush : r.push e with _ | r₁
    · obtain ⟨rfl, hopened⟩ := push_eq_none_iff.mp hpush
      exact ⟨[], es, r, rfl, rfl, hopened⟩
    · rw [hpush] at h
      obtain ⟨front, rest, r', rfl, hfront, hopened⟩ := ih h
      refine ⟨e :: front, rest, r', rfl, ?_, hopened⟩
      rw [pushAll, hpush]
      exact hfront

/-- The container that is open innermost is opened in front of balanced events. -/
lemma exists_innermost_of_pushAll {o : OpenSpan} {os : List OpenSpan}
    (h : empty.pushAll es = some r) (hopened : r.opened = o :: os) :
    ∃ front inside, es = front ++ .start o.tag o.offset :: inside ∧ Balanced inside := by
  have hevents := events_of_pushAll h
  rw [events, hopened] at hevents
  refine ⟨eventsOf r.top ++ openEvents os, eventsOf o.inside, ?_, balanced_eventsOf o.inside⟩
  simpa [openEvents, empty, events, eventsOf] using hevents.symm

end Reading

namespace Tree

variable {settings : Settings} {es : List Event} {r : Reading} {b : Builder}

lemma Represents.length_eq {pending : List Bool} {os : List OpenSpan} {fs : List Frame}
    (h : Represents settings pending os fs) : fs.length = os.length := by
  induction fs generalizing pending os with
  | nil =>
    cases os with
    | nil => rfl
    | cons o os => cases h
  | cons f fs ih =>
    cases os with
    | nil => cases h
    | cons o os => rw [List.length_cons, List.length_cons, ih h.2]

lemma Builder.pushAll_append (b : Builder) (es es' : List Event) :
    b.pushAll settings (es ++ es') = b.pushAll settings es >>= (pushAll settings · es') := by
  induction es generalizing b with
  | nil => rfl
  | cons e es ih =>
    rw [List.cons_append, pushAll, pushAll, bind_assoc]
    exact congrArg _ (funext ih)

/-- When nothing is open, the builder fails at the end of a container, whatever comes later. -/
lemma ofEvents_of_unopened {front : List Event} (hread : Reading.empty.pushAll front = some r)
    (hopened : r.opened = []) (later : List Event) :
    ofEvents settings (front ++ .stop :: later) = .error .nothingOpen := by
  obtain ⟨⟨frames, done⟩, hb, hframes, -⟩ := (holds_empty settings).pushAll hread
  have hlength := hframes.length_eq
  rw [hopened] at hlength
  obtain rfl : frames = [] := List.length_eq_zero_iff.mp hlength
  rw [ofEvents, Builder.pushAll_append, hb]
  rfl

end Tree

end Folio
