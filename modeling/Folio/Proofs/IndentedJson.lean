import Folio.Proofs.JsonRoundTrip
import Mathlib.Data.List.DropRight

/-!
# Reading indented texts

The indented text of a value is its compact text with blanks between the tokens. The reader passes
over them, so that it takes this text back to the value too, at any level of indentation.
-/

namespace Folio.Json

section Blanks

lemma skipBlanks_blanks {blanks : List Char} (h : ∀ c ∈ blanks, isBlank c = true)
    (cs : List Char) : skipBlanks (blanks ++ cs) = skipBlanks cs :=
  List.dropWhile_append_of_pos h

lemma isBlank_of_mem_newline {level : Nat} {c : Char} (h : c ∈ newline level) :
    isBlank c = true := by
  rcases List.mem_cons.mp h with rfl | hmem
  · rfl
  · rw [List.eq_of_mem_replicate hmem]
    rfl

lemma skipBlanks_newline (level : Nat) (cs : List Char) :
    skipBlanks (newline level ++ cs) = skipBlanks cs :=
  skipBlanks_blanks (fun _ => isBlank_of_mem_newline) cs

lemma skipBlanks_space (cs : List Char) : skipBlanks (' ' :: cs) = skipBlanks cs := rfl

lemma skipBlanks_idem (cs : List Char) : skipBlanks (skipBlanks cs) = skipBlanks cs :=
  List.dropWhile_idempotent _ _

/-- A value may stand behind blanks. -/
lemma readValue_congr {cs cs' : List Char} (h : skipBlanks cs = skipBlanks cs') (fuel : Nat) :
    readValue fuel cs = readValue fuel cs' := by
  cases fuel with
  | zero => rfl
  | succ fuel => rw [readValue, readValue, h]

lemma readItems_congr {cs cs' : List Char} (h : skipBlanks cs = skipBlanks cs') (fuel : Nat) :
    readItems fuel cs = readItems fuel cs' := by
  cases fuel with
  | zero => rfl
  | succ fuel => rw [readItems, readItems, readValue_congr h]

lemma readFields_congr {cs cs' : List Char} (h : skipBlanks cs = skipBlanks cs') (fuel : Nat) :
    readFields fuel cs = readFields fuel cs' := by
  cases fuel with
  | zero => rfl
  | succ fuel => rw [readFields, readFields, h]

end Blanks

section Values

/-- The items after the first one are set off by a comma, and the bracket by a line break. -/
lemma endsNumber_indentedItems (level : Nat) (vs : List Json) (rest : List Char) :
    EndsNumber (indentedItems level vs ++ rest) := by
  intro c hc
  cases vs <;>
  · simp only [indentedItems, newline, List.cons_append, List.head?_cons, Option.mem_def,
      Option.some.injEq] at hc
    subst hc
    decide

lemma endsNumber_indentedFields (level : Nat) (fs : List (String × Json)) (rest : List Char) :
    EndsNumber (indentedFields level fs ++ rest) := by
  intro c hc
  rcases fs with _ | ⟨⟨k, v⟩, fs⟩ <;>
  · simp only [indentedFields, newline, List.cons_append, List.head?_cons, Option.mem_def,
      Option.some.injEq] at hc
    subst hc
    decide

lemma beginsValue_indentedChars {v : Json} (h : v.Writable) (level : Nat) :
    BeginsValue (v.indentedChars level) := by
  cases v with
  | number n => exact beginsValue_number h
  | bool b => cases b <;> exact beginsValue_cons _ (by decide)
  | array items => cases items <;> exact beginsValue_cons _ (by decide)
  | object fields =>
    rcases fields with _ | ⟨⟨k, v⟩, fields⟩ <;> exact beginsValue_cons _ (by decide)
  | _ => exact beginsValue_cons _ (by decide)

lemma readValue_bracket {cs : List Char} (h : (skipBlanks cs).head? ≠ some ']') (fuel : Nat) :
    readValue (fuel + 1) ('[' :: cs) =
      (readItems fuel cs).map fun (vs, rest) => (array vs, rest) := by
  have hitems := readItems_congr (skipBlanks_idem cs) fuel
  rw [readValue]
  simp only [skipBlanks_cons (c := '[') _ rfl]
  split
  · next heq => exact absurd (by rw [heq]; rfl) h
  · rw [hitems]

lemma readValue_brace {cs : List Char} (h : (skipBlanks cs).head? ≠ some '\x7d') (fuel : Nat) :
    readValue (fuel + 1) ('\x7b' :: cs) =
      (readFields fuel cs).map fun (fs, rest) => (fs.elim unrepresentable object, rest) := by
  have hfields := readFields_congr (skipBlanks_idem cs) fuel
  rw [readValue]
  simp only [skipBlanks_cons (c := '\x7b') _ rfl]
  split
  · next heq => exact absurd (by rw [heq]; rfl) h
  · rw [hfields]

/-- The items of an array are its text after the bracket, without a comma before the first. -/
lemma array_indentedChars_cons (level : Nat) (v : Json) (vs : List Json) :
    (array (v :: vs)).indentedChars level = '[' :: (indentedItems level (v :: vs)).tail := by
  simp [indentedChars, indentedItems]

lemma object_indentedChars_cons (level : Nat) (f : String × Json) (fs : List (String × Json)) :
    (object (f :: fs)).indentedChars level = '\x7b' :: (indentedFields level (f :: fs)).tail := by
  simp [indentedChars, indentedFields]

lemma head?_skipBlanks_items {v : Json} (h : v.Writable) (level : Nat) (vs : List Json)
    (rest : List Char) :
    (skipBlanks ((indentedItems level (v :: vs)).tail ++ rest)).head? ≠ some ']' := by
  obtain ⟨c, cs, hv, hc, hbracket, -⟩ := beginsValue_indentedChars h (level + 1)
  simp only [indentedItems, List.cons_append, List.tail_cons, List.append_assoc,
    skipBlanks_newline, hv, skipBlanks_cons _ hc, List.head?_cons]
  simpa using hbracket

lemma head?_skipBlanks_fields (level : Nat) (f : String × Json) (fs : List (String × Json))
    (rest : List Char) :
    (skipBlanks ((indentedFields level (f :: fs)).tail ++ rest)).head? ≠ some '\x7d' := by
  simp only [indentedFields, List.cons_append, List.tail_cons, List.append_assoc,
    skipBlanks_newline, stringChars_append, skipBlanks_cons (c := '"') _ rfl, List.head?_cons]
  simp

mutual

lemma readValue_indentedChars {v : Json} (h : v.Writable) (level fuel : Nat)
    (hfuel : 2 * (v.indentedChars level).length ≤ fuel) {rest : List Char}
    (hrest : EndsNumber rest) :
    readValue fuel (v.indentedChars level ++ rest) = some (v, rest) := by
  obtain ⟨c, cs, hchars, -⟩ := beginsValue_indentedChars h level
  obtain ⟨fuel, rfl⟩ : ∃ n, fuel = n + 1 := by
    rw [hchars, List.length_cons] at hfuel
    exact ⟨fuel - 1, by omega⟩
  cases v with
  | null => rfl
  | bool b => cases b <;> rfl
  | number n => exact readValue_number h fuel hrest
  | string s => exact readValue_string s fuel rest
  | unrepresentable => exact h.elim
  | array items =>
    cases items with
    | nil => rfl
    | cons v vs =>
      rw [array_indentedChars_cons, List.length_cons] at hfuel
      rw [array_indentedChars_cons, List.cons_append,
        readValue_bracket (head?_skipBlanks_items h.1 level vs rest),
        readItems_indentedItems h (by simp) level fuel (by omega)]
      rfl
  | object fields =>
    cases fields with
    | nil => rfl
    | cons f fs =>
      rw [object_indentedChars_cons, List.length_cons] at hfuel
      rw [object_indentedChars_cons, List.cons_append,
        readValue_brace (head?_skipBlanks_fields level f fs rest),
        readFields_indentedFields h (by simp) level fuel (by omega)]
      rfl

lemma readItems_indentedItems {vs : List Json} (h : ItemsWritable vs) (hne : vs ≠ [])
    (level fuel : Nat) (hfuel : 2 * (indentedItems level vs).tail.length < fuel)
    (rest : List Char) :
    readItems fuel ((indentedItems level vs).tail ++ rest) = some (vs, rest) := by
  obtain ⟨fuel, rfl⟩ : ∃ n, fuel = n + 1 := ⟨fuel - 1, by omega⟩
  cases vs with
  | nil => exact absurd rfl hne
  | cons v vs =>
    simp only [indentedItems, List.cons_append, List.tail_cons, List.append_assoc,
      List.length_append] at hfuel ⊢
    have hvalue := readValue_indentedChars h.1 (level + 1) fuel (by omega)
      (endsNumber_indentedItems level vs rest)
    rw [readItems, readValue_congr (skipBlanks_newline _ _), hvalue]
    cases vs with
    | nil =>
      have hend : skipBlanks (indentedItems level [] ++ rest) = ']' :: rest := by
        rw [indentedItems, List.append_assoc, skipBlanks_newline]
        exact skipBlanks_cons rest rfl
      simp only [Option.bind_eq_bind, Option.bind_some, hend]
    | cons w ws =>
      have hcomma : indentedItems level (w :: ws) =
          ',' :: (indentedItems level (w :: ws)).tail := by simp [indentedItems]
      have hlength := congrArg List.length hcomma
      rw [List.length_cons] at hlength
      have hitems := readItems_indentedItems h.2 (by simp) level fuel (by omega) rest
      rw [hcomma, List.cons_append]
      simp only [Option.bind_eq_bind, Option.bind_some, skipBlanks_cons (c := ',') _ rfl, hitems]

lemma readFields_indentedFields {fs : List (String × Json)} (h : FieldsWritable fs)
    (hne : fs ≠ []) (level fuel : Nat)
    (hfuel : 2 * (indentedFields level fs).tail.length < fuel) (rest : List Char) :
    readFields fuel ((indentedFields level fs).tail ++ rest) = some (some fs, rest) := by
  obtain ⟨fuel, rfl⟩ : ∃ n, fuel = n + 1 := ⟨fuel - 1, by omega⟩
  cases fs with
  | nil => exact absurd rfl hne
  | cons f fs =>
    obtain ⟨k, v⟩ := f
    simp only [indentedFields, List.cons_append, List.tail_cons, List.append_assoc,
      List.length_append, List.length_cons] at hfuel ⊢
    have hvalue := readValue_indentedChars h.1 (level + 1) fuel (by omega)
      (endsNumber_indentedFields level fs rest)
    rw [readFields, skipBlanks_newline, stringChars_append, skipBlanks_cons (c := '"') _ rfl]
    simp only [readString_escaped, Option.bind_eq_bind, Option.bind_some,
      skipBlanks_cons (c := ':') _ rfl, readValue_congr (skipBlanks_space _), hvalue]
    cases fs with
    | nil =>
      have hend : skipBlanks (indentedFields level [] ++ rest) = '\x7d' :: rest := by
        rw [indentedFields, List.append_assoc, skipBlanks_newline]
        exact skipBlanks_cons rest rfl
      simp only [hend, Option.map_some]
    | cons g gs =>
      have hcomma : indentedFields level (g :: gs) =
          ',' :: (indentedFields level (g :: gs)).tail := by simp [indentedFields]
      have hfields := readFields_indentedFields h.2 (by simp) level fuel
        (by rw [List.length_tail]; omega) rest
      rw [hcomma, List.cons_append]
      simp only [skipBlanks_cons (c := ',') _ rfl, hfields, Option.bind_some, Option.map_some]

end

/-- Reading takes the indented text of a value back to the value. -/
theorem read?_indented {v : Json} (h : v.Writable) : read? v.indented = some v := by
  have hvalue := readValue_indentedChars h 0 (2 * (v.indentedChars 0).length + 2) (by omega)
    endsNumber_nil
  rw [List.append_nil] at hvalue
  rw [read?, indented, String.toList_ofList, readChars?, hvalue, Option.bind_eq_bind,
    Option.bind_some]
  exact if_pos rfl

end Values

end Folio.Json
