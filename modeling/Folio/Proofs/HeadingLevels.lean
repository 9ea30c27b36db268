import Folio.Proofs.CutTitles
import Folio.Proofs.TextSpans

/-!
# Deep headings and other headings

A line is read once with up to six marks in front of it, as a heading, and once with more, as a
paragraph that is made a heading afterwards. The first reading cuts a closing sequence off the
source and the second off the text, where escapes are gone and links are cut out. The headings have
the same children exactly if these tell nothing of it.
-/

namespace Folio.Tree

open Literal (Found)
open Markdown (Inline IsEnding TextBehind Unbroken closer closer_ne_nil closing? headingPieces
  isInlineBlank leadingBlanks linePieces marked paragraphPieces titleOf trimmedTitle)

/-- The nodes of the text of a block, its literals linked. They do not depend on the source. -/
def textNodes (ps : List Inline) : List Node :=
  linkLiterals Literal.find (forestNodes (ParseOptions.default.settings "") (spansOf ps))

section TextNodes

variable {n : Nat} {blanks value : List Char} {ps : List Inline} {source : String}

lemma linkLiterals_forestNodes (source : String) (ps : List Inline) :
    linkLiterals Literal.find (forestNodes (ParseOptions.default.settings source) (spansOf ps)) =
      textNodes ps := by
  have hlinks : (ParseOptions.default.settings source).linkLiterals =
      (ParseOptions.default.settings "").linkLiterals := rfl
  rw [textNodes, forestNodes, forestNodes, siblingNodes_spansOf_congr hlinks]

lemma prependText_prependText (x y : String) (ns : List Node) :
    prependText (x ++ y) ns = prependText x (prependText y ns) := by
  cases ns with
  | nil => rfl
  | cons n ns => cases n <;> simp [prependText, String.append_assoc]

/-- A marker in front of a text is in front of its nodes. -/
lemma textNodes_marked (hblanks : ∀ c ∈ blanks, isInlineBlank c = true) (ps : List Inline) :
    textNodes (.text (marked n blanks) :: ps) =
      prependText (String.ofList (marked n blanks)) (textNodes ps) := by
  rw [textNodes, forestNodes_text_cons,
    linkLiterals_prependText (marked_ne_nil n blanks) fun value => find_marked hblanks value]
  rfl

lemma textNodes_marked_append (hblanks : ∀ c ∈ blanks, isInlineBlank c = true)
    (value : List Char) (ps : List Inline) :
    textNodes (.text (marked n blanks ++ value) :: ps) =
      prependText (String.ofList (marked n blanks)) (textNodes (.text value :: ps)) := by
  rw [← textNodes_marked hblanks, textNodes, textNodes, forestNodes_text_cons,
    forestNodes_text_cons, forestNodes_text_cons, String.ofList_append, prependText_prependText]

lemma textNodes_marks (n : Nat) : textNodes [.text (List.replicate n '#')] =
    [.text (String.ofList (List.replicate n '#'))] := by
  have hfind : Literal.find (List.replicate n '#') = [] := by
    refine Literal.findFrom_eq_nil (fun c hc => ?_) [] 0 0
    rw [List.eq_of_mem_replicate hc]
    rfl
  have hnodes : textNodes [.text (List.replicate n '#')] =
      cutText (String.ofList (List.replicate n '#')).toList 0
        (Literal.find (String.ofList (List.replicate n '#')).toList) ++ [] := rfl
  rw [hnodes, String.toList_ofList, hfind]
  rfl

end TextNodes

section Parses

variable {n : Nat} {t : List Char}

lemma forestNodes_container (settings : Settings) (tag : Tag) (offset : Nat)
    (inside : List Span) :
    forestNodes settings [.container tag offset inside] =
      [nodeOfContainer settings tag offset (forestNodes settings inside) (literalText inside)
        (allBoxes inside)] :=
  joinTexts_cons (isText_nodeOfContainer ..) []

lemma parse_of_events {source : String} {tag : Tag} {ps : List Inline}
    (h : Markdown.events ParseOptions.default.dialect source.toList =
      .start tag 0 :: (Inline.eventsOf ps ++ [.stop])) :
    Document.parse .default source =
      .ok ⟨[nodeOfContainer (ParseOptions.default.settings source) tag 0
        (forestNodes (ParseOptions.default.settings source) (spansOf ps))
        (literalText (spansOf ps)) (allBoxes (spansOf ps))]⟩ := by
  have hspans : Markdown.events ParseOptions.default.dialect source.toList =
      eventsOf [.container tag 0 (spansOf ps)] := by
    rw [h, eventsOf, eventsOf, Span.events, eventsOf_spansOf, List.append_nil]
  have hparse : Document.parse .default source =
      ofEvents (ParseOptions.default.settings source)
        (Markdown.events ParseOptions.default.dialect source.toList) := rfl
  rw [hparse, hspans, ofEvents_eventsOf, forestNodes_container]

theorem parse_heading (ht : Unbroken t) (hpos : 0 < n) (hn : n ≤ 6) :
    Document.parse .default (String.ofList (marked n t)) =
      .ok ⟨[.heading (UInt8.ofNat n)
        (textNodes (headingPieces ParseOptions.default.dialect n t))]⟩ := by
  have hevents := Markdown.events_heading ParseOptions.default.dialect ht hpos hn
  rw [← String.toList_ofList (l := marked n t)] at hevents
  have hnode (inside : List Node) (literal : String) (ticks : List Bool) :
      nodeOfContainer (ParseOptions.default.settings (String.ofList (marked n t)))
        (.heading (UInt8.ofNat n)) 0 inside literal ticks =
          .heading (UInt8.ofNat n) (linkLiterals Literal.find inside) := rfl
  rw [parse_of_events hevents, hnode, linkLiterals_forestNodes]

theorem parse_paragraph (ht : Unbroken t) (hn : deepLevel ≤ n) :
    Document.parse .default (String.ofList (marked n t)) =
      .ok ⟨[liftHeading (textNodes (paragraphPieces ParseOptions.default.dialect n t))]⟩ := by
  have hevents := Markdown.events_paragraph ParseOptions.default.dialect ht hn
  rw [← String.toList_ofList (l := marked n t)] at hevents
  have hopens : opensDeep ((Text.dropBytes? 0 (marked n t)).getD []) = true := by
    have hmarks : (marked n t).takeWhile (· == '#') = List.replicate n '#' :=
      takeWhile_marks (by simp)
    rw [Text.dropBytes?, Option.getD_some, opensDeep, hmarks, List.length_replicate]
    exact decide_eq_true hn
  have hnode (inside : List Node) (literal : String) (ticks : List Bool) :
      nodeOfContainer (ParseOptions.default.settings (String.ofList (marked n t))) .paragraph 0
        inside literal ticks = liftHeading (linkLiterals Literal.find inside) := by
    change (if true && opensDeep ((Text.dropBytes? 0 (String.ofList (marked n t)).toList).getD [])
      then _ else _) = _
    rw [String.toList_ofList, hopens]
    rfl
  rw [parse_of_events hevents, hnode, linkLiterals_forestNodes]

lemma isInlineBlank_leadingBlanks (t : List Char) :
    ∀ c ∈ leadingBlanks t, isInlineBlank c = true :=
  fun _ => Markdown.isInlineBlank_of_mem_leadingBlanks

lemma liftHeading_marks (hn : deepLevel ≤ n) :
    liftHeading [.text (String.ofList (List.replicate n '#'))] =
      .heading (UInt8.ofNat (min n 255)) [] := by
  have hmarker : deepMarker? (List.replicate n '#') = some (UInt8.ofNat (min n 255), []) := by
    have heq := deepMarker?_eq (n := n) (w := []) (by simp)
    rw [List.append_nil, if_neg (by omega)] at heq
    exact heq
  have hline : isSingleLine [.text (String.ofList (List.replicate n '#'))] = true := by
    simp [isSingleLine, String.toList_ofList]
  simp only [liftHeading, hline, if_true, String.toList_ofList, hmarker]
  rfl

/-- A heading by more than six marks: its title is cut out of the nodes of the whole line. -/
theorem parse_deepHeading (ht : Unbroken t) (hn : deepLevel ≤ n) (hne : titleOf t ≠ []) :
    Document.parse .default (String.ofList (marked n t)) =
      .ok ⟨[retitledNode n (leadingBlanks t)
        (textNodes (linePieces ParseOptions.default.dialect 6 t))]⟩ := by
  rw [parse_paragraph ht hn]
  have hblanks := isInlineBlank_leadingBlanks t
  obtain ⟨k, rfl⟩ : ∃ k, n = k + 6 := ⟨n - 6, by unfold deepLevel at hn; omega⟩
  have hk : 0 < k := by
    unfold deepLevel at hn
    omega
  obtain ⟨ps, ⟨hline, hparagraph⟩ | ⟨value, hline, hparagraph⟩⟩ :=
    Markdown.paragraphPieces_cases (n := 6) ParseOptions.default.dialect ht hne hk
  · rw [hline, hparagraph, textNodes_marked hblanks, liftHeading_marked hblanks hn]
  · rw [hline, hparagraph, textNodes_marked_append hblanks, liftHeading_marked hblanks hn]

/-- Nothing but blanks behind the marks. -/
lemma parse_blankHeading (ht : Unbroken t) (hn : deepLevel ≤ n) (hnil : titleOf t = []) :
    Document.parse .default (String.ofList (marked n t)) =
      .ok ⟨[.heading (UInt8.ofNat (min n 255)) []]⟩ := by
  have hpieces := Markdown.paragraphPieces_of_blank ht hnil ParseOptions.default.dialect
    (Nat.lt_of_lt_of_le (by decide) hn)
  rw [parse_paragraph ht hn, hpieces, textNodes_marks, liftHeading_marks hn]

/-- Nothing but a closing sequence behind the marks. -/
lemma parse_marksHeading (ht : Unbroken t) (hn : deepLevel ≤ n)
    (hclosing : closing? (titleOf t) = some []) :
    Document.parse .default (String.ofList (marked n t)) =
      .ok ⟨[.heading (UInt8.ofNat (min n 255)) []]⟩ := by
  have hblanks := isInlineBlank_leadingBlanks t
  obtain ⟨j, hpieces⟩ := Markdown.paragraphPieces_of_marks ht hclosing
    ParseOptions.default.dialect (Nat.lt_of_lt_of_le (by decide) hn)
  have hline : isSingleLine [.text (String.ofList (List.replicate (j + 1) '#'))] = true := by
    simp [isSingleLine, String.toList_ofList]
  rw [parse_paragraph ht hn, hpieces, textNodes_marked_append hblanks, textNodes_marks,
    liftHeading_marked hblanks hn, retitledNode, if_pos hline, retitled, String.toList_ofList,
    trimStart_of_head rfl, List.isEmpty_nil, if_pos rfl, dropClosing_marks]
  rfl

end Parses

section Closed

lemma retitledNode_eq_heading_iff (n : Nat) (blanks : List Char) (ns cs : List Node) :
    retitledNode n blanks ns = .heading (UInt8.ofNat (min n 255)) cs ↔
      isSingleLine ns = true ∧ retitled ns = cs := by
  unfold retitledNode
  split
  · next hline => simp [hline]
  · next hline => simp [hline]

variable {ps qs : List Inline} {i j : Nat}

lemma forestNodes_append_text (settings : Settings) (ps : List Inline) (value : List Char) :
    forestNodes settings (spansOf (ps ++ [.text value])) =
      appendText (String.ofList value) (forestNodes settings (spansOf ps)) := by
  have htext : siblingNodes settings (spansOf [.text value]) = [.text (String.ofList value)] := rfl
  rw [forestNodes, spansOf_append, siblingNodes_append, htext, joinTexts_append_text, forestNodes]

/-- An ending behind a text is behind its nodes. -/
lemma textNodes_behind {tail : List Char} (htail : IsEnding tail) (hne : tail ≠ [])
    (h : TextBehind tail ps qs) :
    textNodes qs = appendText (String.ofList tail) (textNodes ps) := by
  rcases h with rfl | ⟨front, value, rfl, rfl⟩
  · rw [textNodes, forestNodes_append_text, linkLiterals_appendText htail hne, textNodes]
  · rw [textNodes, forestNodes_append_text, String.ofList_append, ← appendText_appendText,
      ← forestNodes_append_text, linkLiterals_appendText htail hne, textNodes]

end Closed

section Blanks

variable {t tail : List Char}

/-- The blank that a line ends with, spaces aside, stands at the end of the text of a heading. -/
def ShowsBlanks (t : List Char) (cs : List Node) : Prop :=
  ∃ c ∈ (trimmedTitle (titleOf t)).getLast?, isInlineBlank c = true ∧
    ∃ value, cs.getLast? = some (.text value) ∧ value.toList.getLast? = some c

lemma exists_getLast?_appendText (htail : tail ≠ []) (ns : List Node) :
    ∃ value, (appendText (String.ofList tail) ns).getLast? = some (.text value) ∧
      value.toList.getLast? = tail.getLast? := by
  rcases List.eq_nil_or_concat' ns with rfl | ⟨ms, m, rfl⟩
  · exact ⟨String.ofList tail, rfl, by rw [String.toList_ofList]⟩
  · rw [appendText_append]
    rcases appendText_singleton (String.ofList tail) m with ⟨value, rfl, heq⟩ | ⟨-, heq⟩
    · refine ⟨value ++ String.ofList tail, by rw [heq, List.getLast?_concat], ?_⟩
      rw [String.toList_append, String.toList_ofList, List.getLast?_append_of_ne_nil _ htail]
    · exact ⟨String.ofList tail, by rw [heq]; simp, by rw [String.toList_ofList]⟩

lemma showsBlanks_appendText
    (hne : (trimmedTitle (titleOf t)).rtakeWhile isInlineBlank ≠ []) (ns : List Node) :
    ShowsBlanks t (appendText
      (String.ofList ((trimmedTitle (titleOf t)).rtakeWhile isInlineBlank)) ns) := by
  obtain ⟨value, hlast, hvalue⟩ := exists_getLast?_appendText hne ns
  have hc := List.getLast?_eq_some_getLast hne
  have htitle : (trimmedTitle (titleOf t)).getLast? =
      ((trimmedTitle (titleOf t)).rtakeWhile isInlineBlank).getLast? := by
    conv_lhs => rw [Markdown.trimmedTitle_eq_append, List.getLast?_append_of_ne_nil _ hne]
  exact ⟨_, htitle.trans hc, List.mem_rtakeWhile_imp (List.getLast_mem hne), value, hlast,
    hvalue.trans hc⟩

end Blanks

/-- A line is a heading behind six marks and a space. Behind more marks it is a heading with the
same children only if these read alike, and if they do it is one unless the blanks that the line
ends with stand at their end. -/
theorem deepHeading_agrees (n : Nat) (t : List Char) (hn : deepLevel ≤ n) (ht : Unbroken t) :
    ∃ cs, Document.parse .default (String.ofList (marked 6 t)) = .ok ⟨[.heading 6 cs]⟩ ∧
      (Document.parse .default (String.ofList (marked n t)) =
          .ok ⟨[.heading (UInt8.ofNat (min n 255)) cs]⟩ →
        ReadsAlike (closing? (titleOf t)).isSome cs) ∧
      (ReadsAlike (closing? (titleOf t)).isSome cs →
        Document.parse .default (String.ofList (marked n t)) =
            .ok ⟨[.heading (UInt8.ofNat (min n 255)) cs]⟩ ∨
          ShowsBlanks t cs) := by
  refine ⟨_, parse_heading ht (by omega) (Nat.le_refl 6), ?_⟩
  -- The paragraph is the heading if its title is cut to these children.
  have hnode (ns cs : List Node) :
      (.ok ⟨[retitledNode n (leadingBlanks t) ns]⟩ : Except ParseError Document) =
          .ok ⟨[.heading (UInt8.ofNat (min n 255)) cs]⟩ ↔
        isSingleLine ns = true ∧ retitled ns = cs := by
    simp [retitledNode_eq_heading_iff]
  cases hclosing : closing? (titleOf t) with
  | none =>
    by_cases hnil : titleOf t = []
    · rw [Markdown.headingPieces_of_blank ht hnil, parse_blankHeading ht hn hnil]
      exact ⟨fun _ => readsAlike_iff_of_unclosed.mpr ⟨rfl, rfl⟩, fun _ => .inl rfl⟩
    rw [parse_deepHeading ht hn hnil, hnode]
    rcases Markdown.headingPieces_of_unclosed (n := 6) ParseOptions.default.dialect ht hnil
      hclosing with hsame | ⟨hne, hbehind⟩
    · rw [hsame, Option.isSome_none, readsAlike_iff_of_unclosed]
      exact ⟨id, .inl⟩
    · rw [textNodes_behind (Markdown.isEnding_of_blanks fun _ => List.mem_rtakeWhile_imp) hne
        hbehind]
      exact ⟨fun h => absurd h.2 (retitled_ne_appendText hne _),
        fun _ => .inr (showsBlanks_appendText hne _)⟩
  | some w =>
    by_cases hw : w = []
    · subst hw
      rw [Markdown.headingPieces_of_marks ht hclosing, parse_marksHeading ht hn hclosing]
      exact ⟨fun _ => (readsAlike_iff_of_closed 0 0).mpr ⟨rfl, rfl⟩, fun _ => .inl rfl⟩
    · obtain ⟨i, j, hbehind⟩ :=
        Markdown.linePieces_of_closed ParseOptions.default.dialect ht hclosing hw
      rw [parse_deepHeading ht hn (Markdown.ne_nil_of_closing? hclosing),
        textNodes_behind (Markdown.isEnding_closer i j) (closer_ne_nil i j) hbehind,
        Option.isSome_some, readsAlike_iff_of_closed i j, hnode, isSingleLine_append_closer]
      exact ⟨id, .inl⟩

/-- A title with emphasis at its end, and one with a closing sequence. -/
theorem deepHeading_agrees_seven :
    deepLevel ≤ 7 ∧ Unbroken "a *b*".toList ∧
      Document.parse .default (String.ofList (marked 7 "a *b*".toList)) =
        .ok ⟨[.heading 7 [.text "a ", .emphasis [.text "b"]]]⟩ ∧
      Unbroken "Hello! ##".toList ∧
      Document.parse .default (String.ofList (marked 7 "Hello! ##".toList)) =
        .ok ⟨[.heading 7 [.text "Hello!"]]⟩ := by
  have hlevel : deepLevel ≤ 7 := Nat.le_refl 7
  have hopen : Unbroken "a *b*".toList := by simp [Unbroken]
  have hclosed : Unbroken "Hello! ##".toList := by simp [Unbroken]
  have hstar (cs : List Node) : ¬ShowsBlanks "a *b*".toList cs := by
    rintro ⟨_, ⟨⟩, hblank, -⟩
    exact absurd hblank (by decide)
  have hmark (cs : List Node) : ¬ShowsBlanks "Hello! ##".toList cs := by
    rintro ⟨_, ⟨⟩, hblank, -⟩
    exact absurd hblank (by decide)
  have hemphasis : Document.parse .default (String.ofList (marked 6 "a *b*".toList)) =
      .ok ⟨[.heading 6 [.text "a ", .emphasis [.text "b"]]]⟩ := by rfl
  have htext : Document.parse .default (String.ofList (marked 6 "Hello! ##".toList)) =
      .ok ⟨[.heading 6 [.text "Hello!"]]⟩ := by rfl
  have halike : ReadsAlike false [.text "a ", .emphasis [.text "b"]] := by
    refine ⟨by simp, by simp, ?_, by simp, by simp, by simp⟩
    rintro _ _ ⟨⟩
    exact ⟨'a', rfl, by decide⟩
  have halike' : ReadsAlike true [.text "Hello!"] := by
    refine ⟨by simp, by simp, ?_, ?_, by simp, fun _ => .inr ⟨_, rfl⟩⟩
    · rintro _ _ ⟨⟩
      exact ⟨'H', rfl, by decide⟩
    · rintro _ ⟨⟩ _ ⟨⟩
      decide
  obtain ⟨cs, hsix, -, hdeep⟩ := deepHeading_agrees 7 "a *b*".toList hlevel hopen
  obtain ⟨ds, hsix', -, hdeep'⟩ := deepHeading_agrees 7 "Hello! ##".toList hlevel hclosed
  rw [hemphasis] at hsix
  rw [htext] at hsix'
  cases hsix
  cases hsix'
  exact ⟨hlevel, hopen, (hdeep halike).resolve_right (hstar _), hclosed,
    (hdeep' halike').resolve_right (hmark _)⟩

/-- An escaped mark at the end is no closing sequence in the source, but in the text it is. -/
example :
    Document.parse .default "###### a \\#" = .ok ⟨[.heading 6 [.text "a #"]]⟩ ∧
      Document.parse .default "####### a \\#" = .ok ⟨[.heading 7 [.text "a"]]⟩ :=
  ⟨by rfl, by rfl⟩

end Folio.Tree
