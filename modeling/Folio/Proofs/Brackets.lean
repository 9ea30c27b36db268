import Folio.Event
import Mathlib.Data.List.Infix
import Mathlib.Tactic.Lemma

/-!
# The bracket structure of events

A sequence of events is balanced if no container is closed before it is opened and all are closed
in the end. Such a sequence is written by exactly one forest of spans, leaves and containers, which
a reading from the front finds: it keeps the containers that are open, each with the spans read in
it so far.
-/

namespace Folio

namespace Event

def isLeaf : Event → Bool
  | start .. | stop => false
  | _ => true

def isStart : Event → Bool
  | start .. => true
  | _ => false

def isStop : Event → Bool
  | stop => true
  | _ => false

end Event

def openings (es : List Event) : Nat := es.countP Event.isStart

def closings (es : List Event) : Nat := es.countP Event.isStop

/-- The events close what they open, and `n` containers that were open before. -/
structure BalancedFrom (n : Nat) (es : List Event) : Prop where
  opened : ∀ p, p <+: es → closings p ≤ n + openings p
  closed : closings es = n + openings es

structure Balanced (es : List Event) : Prop where
  opened : ∀ p, p <+: es → closings p ≤ openings p
  closed : closings es = openings es

/-- A leaf, or a container with what is in it. -/
inductive Span where
  | leaf (e : Event) (isLeaf : e.isLeaf = true)
  | container (tag : Tag) (offset : Nat) (inside : List Span)

mutual

def Span.events : Span → List Event
  | .leaf e _ => [e]
  | .container tag offset inside => .start tag offset :: (eventsOf inside ++ [.stop])

def eventsOf : List Span → List Event
  | [] => []
  | s :: ss => s.events ++ eventsOf ss

end

structure OpenSpan where
  tag : Tag
  offset : Nat
  inside : List Span

/-- What has been read of a sequence of events: the containers that are open, innermost first, and
the spans outside of all containers. -/
structure Reading where
  opened : List OpenSpan
  top : List Span

namespace Reading

def empty : Reading := ⟨[], []⟩

/-- Adds spans to the innermost container, or outside of all if none is open. -/
def extend (r : Reading) (ss : List Span) : Reading :=
  match r.opened with
  | [] => { r with top := r.top ++ ss }
  | o :: os => { r with opened := { o with inside := o.inside ++ ss } :: os }

/-- The reading after one more event; nothing can be closed when nothing is open. -/
def push (r : Reading) (e : Event) : Option Reading :=
  match e with
  | .start tag offset => some { r with opened := ⟨tag, offset, []⟩ :: r.opened }
  | .stop =>
    match r.opened with
    | [] => none
    | o :: os => some (extend { r with opened := os } [.container o.tag o.offset o.inside])
  | e => if h : e.isLeaf then some (r.extend [.leaf e h]) else none

def pushAll : Reading → List Event → Option Reading
  | r, [] => some r
  | r, e :: es => r.push e >>= (pushAll · es)

def openEvents : List OpenSpan → List Event
  | [] => []
  | o :: os => openEvents os ++ .start o.tag o.offset :: eventsOf o.inside

def events (r : Reading) : List Event :=
  eventsOf r.top ++ openEvents r.opened

end Reading

section Depth

variable {e : Event} {es : List Event} {m n : Nat}

lemma isStart_isStop_of_isLeaf (h : e.isLeaf = true) : e.isStart = false ∧ e.isStop = false := by
  cases e <;> simp_all [Event.isLeaf, Event.isStart, Event.isStop]

lemma openings_cons : openings (e :: es) = openings es + if e.isStart then 1 else 0 := by
  simp [openings, List.countP_cons]

lemma closings_cons : closings (e :: es) = closings es + if e.isStop then 1 else 0 := by
  simp [closings, List.countP_cons]

lemma BalancedFrom.tail (h : BalancedFrom n (e :: es))
    (hm : m + (if e.isStop then 1 else 0) = n + if e.isStart then 1 else 0) :
    BalancedFrom m es where
  opened p hp := by
    have h1 := h.opened (e :: p) (by simpa using hp)
    rw [openings_cons, closings_cons] at h1
    omega
  closed := by
    have h1 := h.closed
    rw [openings_cons, closings_cons] at h1
    omega

lemma BalancedFrom.cons (h : BalancedFrom m es)
    (hm : m + (if e.isStop then 1 else 0) = n + if e.isStart then 1 else 0) :
    BalancedFrom n (e :: es) where
  opened p hp := by
    rcases List.prefix_cons_iff.mp hp with rfl | ⟨q, rfl, hq⟩
    · simp [closings]
    · have h1 := h.opened q hq
      rw [openings_cons, closings_cons]
      omega
  closed := by
    have h1 := h.closed
    rw [openings_cons, closings_cons]
    omega

lemma BalancedFrom.pos_of_stop (h : BalancedFrom n (.stop :: es)) : 0 < n := by
  have h1 := h.opened [.stop] (by simp)
  simp [openings, closings, Event.isStart, Event.isStop] at h1
  omega

lemma balanced_iff_balancedFrom_zero : Balanced es ↔ BalancedFrom 0 es := by
  constructor
  · intro h
    exact ⟨by simpa using h.opened, by simpa using h.closed⟩
  · intro h
    exact ⟨by simpa using h.opened, by simpa using h.closed⟩

end Depth

mutual

lemma BalancedFrom.span_append {n : Nat} {es : List Event} (s : Span) (h : BalancedFrom n es) :
    BalancedFrom n (s.events ++ es) := by
  cases s with
  | leaf e he =>
    have hdepth := isStart_isStop_of_isLeaf he
    exact h.cons (by simp [hdepth])
  | container tag offset inside =>
    have hstop : BalancedFrom (n + 1) (.stop :: es) := h.cons (by simp [Event.isStart, Event.isStop])
    have hin := hstop.spans_append inside
    rw [Span.events, List.cons_append, List.append_assoc]
    exact hin.cons (by simp [Event.isStart, Event.isStop])

lemma BalancedFrom.spans_append {n : Nat} {es : List Event} (ss : List Span)
    (h : BalancedFrom n es) : BalancedFrom n (eventsOf ss ++ es) := by
  cases ss with
  | nil => exact h
  | cons s ss =>
    rw [eventsOf, List.append_assoc]
    exact (h.spans_append ss).span_append s

end

/-- The events of spans are balanced. -/
theorem balanced_eventsOf (ss : List Span) : Balanced (eventsOf ss) := by
  have hnil : BalancedFrom 0 [] := ⟨by simp [closings], by simp [openings, closings]⟩
  have h := hnil.spans_append ss
  rw [List.append_nil] at h
  exact balanced_iff_balancedFrom_zero.mpr h

lemma eventsOf_append (ss ts : List Span) : eventsOf (ss ++ ts) = eventsOf ss ++ eventsOf ts := by
  induction ss with
  | nil => rfl
  | cons s ss ih => rw [List.cons_append, eventsOf, eventsOf, ih, List.append_assoc]

namespace Reading

@[simp] lemma extend_nil (r : Reading) : r.extend [] = r := by
  obtain ⟨opened, top⟩ := r
  cases opened <;> simp [extend]

lemma extend_extend (r : Reading) (ss ts : List Span) :
    (r.extend ss).extend ts = r.extend (ss ++ ts) := by
  obtain ⟨opened, top⟩ := r
  cases opened <;> simp [extend]

lemma length_opened_extend (r : Reading) (ss : List Span) :
    (r.extend ss).opened.length = r.opened.length := by
  obtain ⟨opened, top⟩ := r
  cases opened <;> simp [extend]

lemma events_extend (r : Reading) (ss : List Span) :
    (r.extend ss).events = r.events ++ eventsOf ss := by
  obtain ⟨opened, top⟩ := r
  cases opened <;> simp [extend, events, openEvents, eventsOf_append]

lemma push_leaf (r : Reading) {e : Event} (h : e.isLeaf = true) :
    r.push e = some (r.extend [.leaf e h]) := by
  cases e <;> first | rfl | cases h

lemma events_of_push {r r' : Reading} {e : Event} (h : r.push e = some r') :
    r'.events = r.events ++ [e] := by
  cases he : e.isLeaf with
  | true =>
    rw [push_leaf r he] at h
    obtain rfl := Option.some.inj h
    rw [events_extend, eventsOf, eventsOf, Span.events, List.append_nil]
  | false =>
    cases e with
    | start tag offset =>
      obtain rfl := Option.some.inj h
      simp [events, openEvents, eventsOf]
    | stop =>
      obtain ⟨opened, top⟩ := r
      cases opened with
      | nil => cases h
      | cons o os =>
        obtain rfl := Option.some.inj h
        rw [events_extend]
        simp [events, openEvents, eventsOf, Span.events]
    | _ => cases he

lemma pushAll_append (r : Reading) (es es' : List Event) :
    r.pushAll (es ++ es') = r.pushAll es >>= (pushAll · es') := by
  induction es generalizing r with
  | nil => rfl
  | cons e es ih =>
    rw [List.cons_append, pushAll, pushAll, bind_assoc]
    exact congrArg _ (funext ih)

/-- From its own depth on, a reading can go through balanced events to their end, and then nothing
is open. -/
theorem exists_pushAll_of_balancedFrom {es : List Event} {r : Reading}
    (h : BalancedFrom r.opened.length es) :
    ∃ top, r.pushAll es = some ⟨[], top⟩ ∧ eventsOf top = r.events ++ es := by
  induction es generalizing r with
  | nil =>
    have hlen : r.opened.length = 0 := by simpa [openings, closings] using h.closed.symm
    obtain ⟨opened, top⟩ := r
    obtain rfl : opened = [] := List.length_eq_zero_iff.mp hlen
    exact ⟨top, rfl, by simp [events, openEvents]⟩
  | cons e es ih =>
    have hstep : ∃ r', r.push e = some r' ∧ BalancedFrom r'.opened.length es := by
      cases he : e.isLeaf with
      | true =>
        refine ⟨_, push_leaf r he, ?_⟩
        rw [length_opened_extend]
        exact h.tail (by simp [isStart_isStop_of_isLeaf he])
      | false =>
        cases e with
        | start tag offset => exact ⟨_, rfl, h.tail (by simp [Event.isStart, Event.isStop])⟩
        | stop =>
          have hpos := h.pos_of_stop
          obtain ⟨opened, top⟩ := r
          cases opened with
          | nil => simp at hpos
          | cons o os =>
            refine ⟨_, rfl, ?_⟩
            rw [length_opened_extend]
            exact h.tail (by simp [Event.isStart, Event.isStop])
        | _ => cases he
    obtain ⟨r', hpush, hbal⟩ := hstep
    obtain ⟨top, hall, hev⟩ := ih hbal
    refine ⟨top, by rw [pushAll, hpush]; exact hall, ?_⟩
    rw [hev, events_of_push hpush, List.append_assoc, List.singleton_append]

mutual

/-- Reading the events of a span adds that span. -/
lemma pushAll_span (r : Reading) (s : Span) (es : List Event) :
    r.pushAll (s.events ++ es) = (r.extend [s]).pushAll es := by
  cases s with
  | leaf e h =>
    rw [Span.events, List.singleton_append, pushAll, push_leaf r h]
    rfl
  | container tag offset inside =>
    rw [Span.events, List.cons_append, List.append_assoc, pushAll]
    exact pushAll_spans { r with opened := ⟨tag, offset, []⟩ :: r.opened } inside (.stop :: es)

lemma pushAll_spans (r : Reading) (ss : List Span) (es : List Event) :
    r.pushAll (eventsOf ss ++ es) = (r.extend ss).pushAll es := by
  cases ss with
  | nil => rw [eventsOf, List.nil_append, extend_nil]
  | cons s ss =>
    rw [eventsOf, List.append_assoc, pushAll_span r s, pushAll_spans _ ss, extend_extend,
      List.singleton_append]

end

lemma pushAll_eventsOf (r : Reading) (ss : List Span) :
    r.pushAll (eventsOf ss) = some (r.extend ss) := by
  have h := pushAll_spans r ss []
  rwa [List.append_nil] at h

end Reading

/-- No two forests of spans are written by the same events. -/
theorem eventsOf_injective : Function.Injective eventsOf := by
  intro ss ts h
  have hs := Reading.empty.pushAll_eventsOf ss
  rw [h, Reading.pushAll_eventsOf] at hs
  simpa [Reading.extend, Reading.empty] using hs.symm

/-- Events are balanced exactly if they are the events of a forest of spans. -/
theorem balanced_iff_exists_spans {es : List Event} : Balanced es ↔ ∃ ss, eventsOf ss = es := by
  constructor
  · intro h
    obtain ⟨ss, -, hss⟩ := Reading.exists_pushAll_of_balancedFrom (r := .empty)
      (balanced_iff_balancedFrom_zero.mp h)
    exact ⟨ss, hss⟩
  · rintro ⟨ss, rfl⟩
    exact balanced_eventsOf ss

end Folio
