import Folio.Proofs.TrailingClosers

/-!
# What more than six marks cut off a title

A deep heading has its title cut out of the text of its first node once more, at the front and, if
there is nothing but text, at the end. The nodes stay as they are if there is nothing to cut off, or
nothing but the closing sequence that the line has.
-/

namespace Folio.Tree

open Markdown (closer closer_ne_nil mem_closer)

section Trims

variable {cs : List Char}

/-- Marks end the text, and they are all there is of it or have a blank before them. -/
def EndsClosed (cs : List Char) : Prop :=
  ∃ bare i, cs = bare ++ List.replicate (i + 1) '#' ∧ ∀ c ∈ bare.getLast?, c = ' ' ∨ c = '\t'

lemma trimStart_eq_self_iff :
    Text.trimStart cs = cs ↔ ∀ c ∈ cs.head?, Text.isBlank c = false := by
  cases cs with
  | nil => simp [Text.trimStart]
  | cons c cs =>
    rw [Text.trimStart, List.dropWhile_eq_self_iff]
    simp

lemma trimEnd_eq_self_iff :
    Text.trimEnd cs = cs ↔ ∀ c ∈ cs.getLast?, Text.isBlank c = false := by
  have hself : Text.trimEnd cs = cs ↔ ∀ hne : cs ≠ [], ¬Text.isBlank (cs.getLast hne) = true :=
    List.rdropWhile_eq_self_iff
  rw [hself]
  constructor
  · intro h c hc
    obtain ⟨hne, rfl⟩ := List.mem_getLast?_eq_getLast hc
    exact Bool.eq_false_iff.mpr (h hne)
  · intro h hne
    rw [h _ (List.getLast?_eq_some_getLast hne)]
    exact Bool.false_ne_true

lemma isPrefix_dropClosing (cs : List Char) : dropClosing cs <+: Text.trimEnd cs := by
  unfold dropClosing
  dsimp only
  split
  · exact List.nil_prefix
  · split
    · exact (List.rdropWhile_prefix _ _).trans (List.rdropWhile_prefix _ _)
    · exact List.prefix_rfl

lemma dropEndWhile_marks {bare : List Char} (h : ∀ c ∈ bare.getLast?, c = ' ' ∨ c = '\t')
    (i : Nat) : Text.dropEndWhile (· == '#') (bare ++ List.replicate i '#') = bare := by
  refine Markdown.rdropWhile_eq_of_append (fun c hc => ?_) fun c hc => ?_
  · rw [List.eq_of_mem_replicate hc]
    rfl
  · rcases h c hc with rfl | rfl <;> rfl

/-- From the end of a text that ends this way something is dropped. -/
lemma dropClosing_ne_of_endsClosed (h : EndsClosed cs) (htrim : Text.trimEnd cs = cs) :
    dropClosing cs ≠ cs := by
  obtain ⟨bare, i, rfl, hbare⟩ := h
  unfold dropClosing
  dsimp only
  rw [htrim, dropEndWhile_marks hbare]
  cases hlast : bare.getLast? with
  | none => simp
  | some c =>
    have hblank : (c == ' ' || c == '\t') = true := by
      rcases hbare c hlast with rfl | rfl <;> rfl
    have hlt : bare.length < (bare ++ List.replicate (i + 1) '#').length := by simp
    dsimp only
    rw [hblank, decide_eq_true hlt, Bool.and_true, if_pos rfl]
    intro heq
    have hle : (Text.trimEnd bare).length ≤ bare.length := (List.rdropWhile_prefix _ _).length_le
    rw [heq] at hle
    omega

/-- Nothing is dropped from the end of a text. -/
theorem dropClosing_eq_self_iff (hne : cs ≠ []) :
    dropClosing cs = cs ↔ (∀ c ∈ cs.getLast?, Text.isBlank c = false) ∧ ¬EndsClosed cs := by
  rw [← trimEnd_eq_self_iff]
  constructor
  · intro h
    have htrim : Text.trimEnd cs = cs := by
      have hprefix : Text.trimEnd cs <+: cs := List.rdropWhile_prefix _ _
      have hle := (isPrefix_dropClosing cs).length_le
      rw [h] at hle
      exact hprefix.eq_of_length_le hle
    exact ⟨htrim, fun hends => dropClosing_ne_of_endsClosed hends htrim h⟩
  · rintro ⟨htrim, hends⟩
    obtain ⟨n, hmarks⟩ := Markdown.exists_run '#' cs
    unfold dropClosing
    dsimp only
    rw [htrim]
    generalize Text.dropEndWhile (· == '#') cs = bare at hmarks ⊢
    have hnone (hbare : ∀ c ∈ bare.getLast?, c = ' ' ∨ c = '\t') : cs = bare := by
      cases n with
      | zero => rwa [List.replicate_zero, List.append_nil] at hmarks
      | succ n => exact absurd ⟨bare, n, hmarks, hbare⟩ hends
    cases hlast : bare.getLast? with
    | none =>
      rw [List.getLast?_eq_none_iff] at hlast
      rw [hlast] at hnone
      exact absurd (hnone (by simp)) hne
    | some c =>
      dsimp only
      split
      · next hcut =>
        simp only [Bool.and_eq_true, Bool.or_eq_true, beq_iff_eq, decide_eq_true_eq] at hcut
        have heq := hnone (by
          rw [hlast]
          rintro d ⟨⟩
          exact hcut.1)
        rw [heq] at hcut
        exact absurd hcut.2 (Nat.lt_irrefl _)
      · rfl

/-- In front of a closing sequence the blanks at the end of a title are dropped. -/
lemma dropClosing_append_closer (cs : List Char) (i j : Nat) :
    dropClosing (cs ++ closer i j) = Text.trimEnd cs := by
  have htrim : Text.trimEnd (cs ++ closer i j) = cs ++ closer i j := by
    refine trimEnd_eq_self_iff.mpr fun c hc => ?_
    rw [closer, List.replicate_succ' (n := j), ← List.append_assoc, ← List.append_assoc,
      List.getLast?_concat] at hc
    cases hc
    decide
  have hlast : (cs ++ List.replicate (i + 1) ' ').getLast? = some ' ' := by
    rw [List.replicate_succ', ← List.append_assoc, List.getLast?_concat]
  have hbare : Text.dropEndWhile (· == '#') (cs ++ closer i j) =
      cs ++ List.replicate (i + 1) ' ' := by
    rw [closer, ← List.append_assoc]
    refine dropEndWhile_marks (fun c hc => ?_) (j + 1)
    rw [hlast] at hc
    cases hc
    exact .inl rfl
  have hlt : (cs ++ List.replicate (i + 1) ' ').length < (cs ++ closer i j).length := by
    simp [closer]
  unfold dropClosing
  dsimp only
  rw [htrim, hbare, hlast]
  dsimp only
  rw [decide_eq_true hlt]
  have hspaces : ∀ c ∈ (List.replicate (i + 1) ' ').reverse, Text.isBlank c = true := by
    intro c hc
    rw [List.eq_of_mem_replicate (List.mem_reverse.mp hc)]
    decide
  rw [Bool.and_true, BEq.rfl, Bool.true_or, if_pos rfl, Text.trimEnd, Text.dropEndWhile,
    List.reverse_append, List.dropWhile_append_of_pos hspaces]
  rfl

lemma dropClosing_marks (j : Nat) : dropClosing (List.replicate (j + 1) '#') = [] := by
  have hends : Text.trimEnd (List.replicate (j + 1) '#') = List.replicate (j + 1) '#' := by
    refine trimEnd_eq_self_iff.mpr fun c hc => ?_
    rw [List.eq_of_mem_replicate (List.mem_of_getLast? hc)]
    decide
  have hbare : Text.dropEndWhile (· == '#') (List.replicate (j + 1) '#') = [] :=
    @dropEndWhile_marks [] (by simp) (j + 1)
  unfold dropClosing
  dsimp only
  rw [hends, hbare]
  rfl

/-- A title in front of a closing sequence has no blank left at its ends. -/
lemma dropClosing_trimStart_append_closer (cs : List Char) (i j : Nat) :
    dropClosing (Text.trimStart (cs ++ closer i j)) = Text.trimEnd (Text.trimStart cs) := by
  cases hall : cs.all Text.isBlank with
  | false => rw [trimStart_append_of_not_all hall, dropClosing_append_closer]
  | true =>
    have hspaces : (List.replicate (i + 1) ' ').all Text.isBlank = true := by
      rw [List.all_replicate]
      rfl
    have hnil : Text.trimStart cs = [] :=
      List.dropWhile_eq_nil_iff.mpr (List.all_eq_true.mp hall)
    rw [trimStart_append_of_all hall, closer, trimStart_append_of_all hspaces,
      trimStart_of_head rfl, dropClosing_marks, hnil]
    rfl

/-- If a title is not cut, no blank is in front of it. -/
lemma trimStart_eq_self_of_prefix {title : List Char} (h : title <+: Text.trimStart cs)
    (heq : title = cs) : Text.trimStart cs = cs := by
  have hsuffix : Text.trimStart cs <:+ cs := List.dropWhile_suffix _
  have hle := h.length_le
  rw [heq] at hle
  exact hsuffix.eq_of_length_le hle

end Trims

section Titles

variable {n i j : Nat} {blanks : List Char} {cs : List Node}

/-- What the children of a heading by six marks are like if more marks give it the same ones. They
are on one line, and a text in front begins with a character that is no blank. A text that is alone
ends with no blank and with no closing sequence, unless the line itself has one behind it. In that
case there is nothing but a text. -/
structure ReadsAlike (closed : Bool) (cs : List Node) : Prop where
  unbroken : Node.break ∉ cs
  line : ∀ value, Node.text value ∈ cs → '\n' ∉ value.toList
  head : ∀ value rest, cs = .text value :: rest →
    ∃ c ∈ value.toList.head?, Text.isBlank c = false
  last : ∀ value, cs = [.text value] → ∀ c ∈ value.toList.getLast?, Text.isBlank c = false
  unclosed : closed = false → ∀ value, cs = [.text value] → ¬EndsClosed value.toList
  alone : closed = true → cs = [] ∨ ∃ value, cs = [.text value]

lemma isSingleLine_iff (cs : List Node) : isSingleLine cs = true ↔
    Node.break ∉ cs ∧ ∀ value, Node.text value ∈ cs → '\n' ∉ value.toList := by
  have htext (value : String) :
      (!value.toList.contains '\n') = true ↔ '\n' ∉ value.toList := by
    rw [Bool.not_eq_true', ← Bool.not_eq_true, List.contains_iff_mem]
  rw [isSingleLine, List.all_eq_true]
  constructor
  · intro h
    exact ⟨fun hbreak => absurd (h _ hbreak) Bool.false_ne_true,
      fun value hvalue => (htext value).mp (h _ hvalue)⟩
  · rintro ⟨hbreak, hline⟩ m hm
    cases m with
    | text value => exact (htext value).mpr (hline value hm)
    | «break» => exact absurd hm hbreak
    | _ => rfl

lemma exists_head_iff {cs : List Char} :
    (∃ c ∈ cs.head?, Text.isBlank c = false) ↔ cs ≠ [] ∧ Text.trimStart cs = cs := by
  rw [trimStart_eq_self_iff]
  cases cs <;> simp

lemma textPiece_append_eq_iff {value : String} {title : List Char} (rest : List Node) :
    textPiece title ++ rest = .text value :: rest ↔ title ≠ [] ∧ title = value.toList := by
  cases title with
  | nil => simp [textPiece]
  | cons c title =>
    have htext : String.ofList (c :: title) = value ↔ c :: title = value.toList := by
      constructor
      · rintro rfl
        exact String.toList_ofList.symm
      · intro heq
        rw [heq, String.ofList_toList]
    rw [textPiece_of_ne_nil (List.cons_ne_nil c title), List.singleton_append, List.cons.injEq,
      Node.text.injEq, htext]
    simp

/-- A text that more marks leave as it is. -/
lemma retitled_text_eq_self_iff (value : String) (rest : List Node) :
    retitled (.text value :: rest) = .text value :: rest ↔
      (∃ c ∈ value.toList.head?, Text.isBlank c = false) ∧
        (rest = [] → (∀ c ∈ value.toList.getLast?, Text.isBlank c = false) ∧
          ¬EndsClosed value.toList) := by
  rw [retitled, textPiece_append_eq_iff, exists_head_iff]
  cases rest with
  | cons n rest =>
    simp only [List.isEmpty_cons, Bool.false_eq_true, if_false, reduceCtorEq, false_implies,
      and_true]
    exact ⟨fun ⟨htitle, heq⟩ => ⟨heq ▸ htitle, heq⟩,
      fun ⟨hvalue, heq⟩ => ⟨heq.symm ▸ hvalue, heq⟩⟩
  | nil =>
    simp only [List.isEmpty_nil, if_true, true_implies]
    constructor
    · rintro ⟨htitle, heq⟩
      have hne : value.toList ≠ [] := heq ▸ htitle
      have htrim := trimStart_eq_self_of_prefix
        ((isPrefix_dropClosing _).trans (List.rdropWhile_prefix _ _)) heq
      rw [htrim] at heq
      exact ⟨⟨hne, htrim⟩, (dropClosing_eq_self_iff hne).mp heq⟩
    · rintro ⟨⟨hne, htrim⟩, hends⟩
      rw [htrim, (dropClosing_eq_self_iff hne).mpr hends]
      exact ⟨hne, rfl⟩

/-- Behind a closing sequence of the line a text is left as it is if it has no blank at its ends. -/
lemma retitled_text_append_closer (value : String) (i j : Nat) :
    retitled [.text (value ++ String.ofList (closer i j))] = [.text value] ↔
      (∃ c ∈ value.toList.head?, Text.isBlank c = false) ∧
        ∀ c ∈ value.toList.getLast?, Text.isBlank c = false := by
  have hself : textPiece (Text.trimEnd (Text.trimStart value.toList)) ++ [] = [.text value] ↔
      Text.trimEnd (Text.trimStart value.toList) ≠ [] ∧
        Text.trimEnd (Text.trimStart value.toList) = value.toList :=
    textPiece_append_eq_iff []
  rw [retitled, String.toList_append, String.toList_ofList, List.isEmpty_nil, if_pos rfl,
    dropClosing_trimStart_append_closer, hself, exists_head_iff, ← trimEnd_eq_self_iff]
  constructor
  · rintro ⟨hne, heq⟩
    have htrim := trimStart_eq_self_of_prefix (List.rdropWhile_prefix _ _) heq
    rw [htrim] at heq hne
    exact ⟨⟨heq ▸ hne, htrim⟩, heq⟩
  · rintro ⟨⟨hne, htrim⟩, heq⟩
    rw [htrim, heq]
    exact ⟨hne, rfl⟩

lemma appendText_singleton (text : String) (m : Node) :
    (∃ value, m = .text value ∧ appendText text [m] = [.text (value ++ text)]) ∨
      (m.isText = false ∧ appendText text [m] = [m, .text text]) := by
  cases m with
  | text value => exact .inl ⟨value, rfl, rfl⟩
  | _ => exact .inr ⟨rfl, rfl⟩

lemma appendText_ne_nil (text : String) (ns : List Node) : appendText text ns ≠ [] := by
  rcases ns with _ | ⟨m, _ | ⟨n, ns⟩⟩
  · exact List.cons_ne_nil _ _
  · cases m <;> exact List.cons_ne_nil _ _
  · rw [appendText_cons_cons]
    exact List.cons_ne_nil _ _

/-- A text behind nodes is another last node. -/
lemma getLast?_appendText_ne {text : String} (htext : text.toList ≠ []) (h : cs ≠ []) :
    (appendText text cs).getLast? ≠ cs.getLast? := by
  obtain ⟨ns, m, rfl⟩ := (List.eq_nil_or_concat' cs).resolve_left h
  rw [appendText_append, List.getLast?_concat]
  rcases appendText_singleton text m with ⟨value, rfl, heq⟩ | ⟨hm, heq⟩
  · rw [heq, List.getLast?_concat, ne_eq, Option.some.injEq, Node.text.injEq]
    intro hvalue
    have hlist := congrArg String.toList hvalue
    rw [String.toList_append, List.append_right_eq_self] at hlist
    exact htext hlist
  · rw [heq, List.getLast?_append_of_ne_nil _ (List.cons_ne_nil _ _), List.getLast?_cons_cons,
      List.getLast?_singleton, ne_eq, Option.some.injEq]
    rintro rfl
    cases hm

lemma getLast?_retitled {m : Node} {ns : List Node} (h : ns ≠ []) :
    (retitled (m :: ns)).getLast? = (m :: ns).getLast? := by
  cases htext : m.isText with
  | false => cases m <;> first | (cases htext; done) | rfl
  | true =>
    obtain ⟨value, rfl⟩ := Node.exists_eq_text htext
    rw [retitled, List.getLast?_append_of_ne_nil _ h, ← List.singleton_append,
      List.getLast?_append_of_ne_nil _ h]

/-- What is behind the nodes of a line is not behind what is left of them. -/
lemma retitled_ne_appendText {tail : List Char} (htail : tail ≠ []) (cs : List Node) :
    retitled cs ≠ appendText (String.ofList tail) cs := by
  rcases cs with _ | ⟨m, _ | ⟨n, ns⟩⟩
  · exact (appendText_ne_nil _ []).symm
  · rcases appendText_singleton (String.ofList tail) m with ⟨value, rfl, heq⟩ | ⟨hm, heq⟩
    · rw [heq, retitled, ne_eq, textPiece_append_eq_iff, List.isEmpty_nil, if_pos rfl]
      rintro ⟨-, htitle⟩
      have hends := (isPrefix_dropClosing (Text.trimStart value.toList)).trans
        (List.rdropWhile_prefix _ _)
      have hle := hends.length_le.trans (List.dropWhile_suffix _).length_le
      have hpos := List.length_pos_of_ne_nil htail
      rw [htitle, String.toList_append, String.toList_ofList, List.length_append] at hle
      omega
    · rw [heq]
      cases m <;> first | (cases hm; done) | simp [retitled]
  · intro heq
    have htext : (String.ofList tail).toList ≠ [] := by rwa [String.toList_ofList]
    refine getLast?_appendText_ne htext (List.cons_ne_nil m (n :: ns)) ?_
    rw [← heq, getLast?_retitled (List.cons_ne_nil n ns)]

/-- Behind a closing sequence of the line nothing but a text is left as it is. -/
lemma retitled_append_closer_eq_iff :
    retitled (appendText (String.ofList (closer i j)) cs) = cs ↔
      cs = [] ∨ ∃ value, cs = [.text value] ∧
        (∃ c ∈ value.toList.head?, Text.isBlank c = false) ∧
        ∀ c ∈ value.toList.getLast?, Text.isBlank c = false := by
  have hcloser : (String.ofList (closer i j)).toList ≠ [] := by
    rw [String.toList_ofList]
    exact closer_ne_nil i j
  -- With another node in front the text behind it stays.
  have hlong {m : Node} {ns : List Node} (hcs : cs ≠ [])
      (h : appendText (String.ofList (closer i j)) cs = m :: ns) (hns : ns ≠ []) :
      retitled (appendText (String.ofList (closer i j)) cs) ≠ cs := by
    intro heq
    refine getLast?_appendText_ne hcloser hcs ?_
    rw [h, ← getLast?_retitled hns, ← h, heq]
  match cs with
  | [] =>
    have hnil : retitled [.text (String.ofList (closer i j))] = [] := by
      have htitle := dropClosing_trimStart_append_closer [] i j
      rw [List.nil_append] at htitle
      rw [retitled, String.toList_ofList, List.isEmpty_nil, if_pos rfl, htitle]
      rfl
    exact iff_of_true hnil (.inl rfl)
  | [m] =>
    rcases appendText_singleton (String.ofList (closer i j)) m with ⟨value, rfl, heq⟩ | ⟨hm, heq⟩
    · rw [heq, retitled_text_append_closer]
      simp
    · refine iff_of_false (hlong (List.cons_ne_nil _ _) heq (List.cons_ne_nil _ _)) ?_
      rintro (hnil | ⟨value, hvalue, -⟩)
      · cases hnil
      · cases hvalue
        cases hm
  | m :: n :: ns =>
    have hne := appendText_ne_nil (String.ofList (closer i j)) (n :: ns)
    refine iff_of_false (hlong (List.cons_ne_nil _ _) (appendText_cons_cons _ m n ns) hne) ?_
    rintro (hnil | ⟨value, hvalue, -⟩)
    · cases hnil
    · cases hvalue

lemma isSingleLine_append_closer :
    isSingleLine (appendText (String.ofList (closer i j)) cs) = isSingleLine cs := by
  have hcloser : '\n' ∉ closer i j := by
    intro hmem
    rcases mem_closer hmem with hc | hc <;> exact absurd hc (by decide)
  have hcontains : (closer i j).contains '\n' = false := by
    rw [← Bool.not_eq_true, List.contains_iff_mem]
    exact hcloser
  rcases List.eq_nil_or_concat' cs with rfl | ⟨ns, m, rfl⟩
  · simp only [appendText, isSingleLine, List.all_cons, String.toList_ofList, hcontains]
    rfl
  · rw [appendText_append]
    rcases appendText_singleton (String.ofList (closer i j)) m with ⟨value, rfl, heq⟩ | ⟨hm, heq⟩
    · have hvalue : (value.toList ++ closer i j).contains '\n' = value.toList.contains '\n' := by
        rw [Bool.eq_iff_iff, List.contains_iff_mem, List.contains_iff_mem, List.mem_append,
          or_iff_left hcloser]
      simp only [heq, isSingleLine, List.all_append, List.all_cons, String.toList_append,
        String.toList_ofList, hvalue]
    · simp only [heq, isSingleLine, List.all_append, List.all_cons, String.toList_ofList,
        hcontains]
      rfl

/-- Without a closing sequence the nodes of the line are those of the heading. -/
theorem readsAlike_iff_of_unclosed :
    ReadsAlike false cs ↔ isSingleLine cs = true ∧ retitled cs = cs := by
  rw [isSingleLine_iff]
  constructor
  · intro h
    refine ⟨⟨h.unbroken, h.line⟩, ?_⟩
    cases cs with
    | nil => rfl
    | cons m rest =>
      cases htext : m.isText with
      | false => cases m <;> first | (cases htext; done) | rfl
      | true =>
        obtain ⟨value, rfl⟩ := Node.exists_eq_text htext
        refine (retitled_text_eq_self_iff value rest).mpr ⟨h.head value rest rfl, ?_⟩
        rintro rfl
        exact ⟨h.last value rfl, h.unclosed rfl value rfl⟩
  · rintro ⟨⟨hbreak, hline⟩, hself⟩
    refine ⟨hbreak, hline, ?_, ?_, fun _ => ?_, by simp⟩
    · rintro value rest rfl
      exact ((retitled_text_eq_self_iff value rest).mp hself).1
    · rintro value rfl
      exact (((retitled_text_eq_self_iff value []).mp hself).2 rfl).1
    · rintro value rfl
      exact (((retitled_text_eq_self_iff value []).mp hself).2 rfl).2

/-- With one, the line has it behind the nodes of the heading. -/
theorem readsAlike_iff_of_closed (i j : Nat) : ReadsAlike true cs ↔
    isSingleLine cs = true ∧ retitled (appendText (String.ofList (closer i j)) cs) = cs := by
  rw [isSingleLine_iff, retitled_append_closer_eq_iff]
  constructor
  · intro h
    refine ⟨⟨h.unbroken, h.line⟩, (h.alone rfl).imp id ?_⟩
    rintro ⟨value, rfl⟩
    exact ⟨value, rfl, h.head value [] rfl, h.last value rfl⟩
  · rintro ⟨⟨hbreak, hline⟩, rfl | ⟨value, rfl, hhead, hlast⟩⟩
    · exact ⟨hbreak, hline, by simp, by simp, by simp, fun _ => .inl rfl⟩
    · refine ⟨hbreak, hline, ?_, ?_, by simp, fun _ => .inr ⟨value, rfl⟩⟩
      · rintro _ _ ⟨⟩
        exact hhead
      · rintro _ ⟨⟩
        exact hlast

end Titles

end Folio.Tree
