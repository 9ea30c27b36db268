import Folio.Json.Writer
import Folio.Proofs.NumberTexts
import Mathlib.Tactic.IntervalCases

/-!
# Reading what was written

The reader takes the compact text of a value back to the value. What follows the text is arbitrary,
except that it must not go on with a number, so that the statement for a value carries over to the
values around it.
-/

namespace Folio

namespace Text

lemma hexValue?_hexDigit {n : Nat} (h : n < 16) : hexValue? (hexDigit n) = some n := by
  revert n
  decide

end Text

namespace Json

mutual

/-- Every part of the value denotes something, and every number in it is an integer of 64 bits or
one whose text is read as that number. -/
def Writable : Json → Prop
  | number (.integer n) => -2 ^ 63 ≤ n ∧ n < 2 ^ 64
  | number (.decimal literal) =>
    readNumber literal.toList = some (number (.decimal literal), [])
  | unrepresentable => False
  | array items => ItemsWritable items
  | object fields => FieldsWritable fields
  | _ => True

def ItemsWritable : List Json → Prop
  | [] => True
  | v :: vs => v.Writable ∧ ItemsWritable vs

def FieldsWritable : List (String × Json) → Prop
  | [] => True
  | (_, v) :: fs => v.Writable ∧ FieldsWritable fs

end

/-- A text that begins like a value, and not with the end of an empty one. -/
def BeginsValue (cs : List Char) : Prop :=
  ∃ c rest, cs = c :: rest ∧ isBlank c = false ∧ c ≠ ']' ∧ c ≠ '\x7d'

lemma skipBlanks_cons {c : Char} (rest : List Char) (h : isBlank c = false) :
    skipBlanks (c :: rest) = c :: rest := by
  simp [skipBlanks, h]

lemma BeginsValue.skipBlanks_append {cs : List Char} (h : BeginsValue cs) (rest : List Char) :
    skipBlanks (cs ++ rest) = cs ++ rest := by
  obtain ⟨c, cs', rfl, hc, -, -⟩ := h
  exact skipBlanks_cons _ hc

section Strings

def prependChar (c : Char) : List Piece × List Char → List Piece × List Char
  | (ps, rest) => (.char c :: ps, rest)

lemma readPieces_plain {c : Char} (rest : List Char) (hquote : c ≠ '"') (hslash : c ≠ '\\')
    (hlow : ¬c.toNat < 32) :
    readPieces (c :: rest) = (readPieces rest).map (prependChar c) := by
  have hunit : ∀ (a b d e : Char) (more : List Char), c = '\\' →
      rest = 'u' :: a :: b :: d :: e :: more → False := fun _ _ _ _ _ h _ => hslash h
  have hescape : ∀ (e : Char) (more : List Char), c = '\\' → rest = e :: more → False :=
    fun _ _ h _ => hslash h
  rw [readPieces.eq_5 _ _ hquote hunit hescape, if_neg hlow]
  rcases readPieces rest with _ | ⟨ps, more⟩ <;> rfl

lemma readPieces_escape {e c : Char} (rest : List Char) (hmeaning : escapeMeaning? e = some c) :
    readPieces ('\\' :: e :: rest) = (readPieces rest).map (prependChar c) := by
  have hunit : ∀ (a b c d : Char) (more : List Char), e = 'u' →
      rest = a :: b :: c :: d :: more → False := by
    rintro _ _ _ _ _ rfl
    cases hmeaning
  rw [readPieces.eq_4 _ _ hunit, hmeaning]
  rcases readPieces rest with _ | ⟨ps, more⟩ <;> rfl

lemma readPieces_control {c : Char} (rest : List Char) (hlow : c.toNat < 32) :
    readPieces ('\\' :: 'u' :: '0' :: '0' :: Text.hexDigit (c.toNat / 16) ::
      Text.hexDigit (c.toNat % 16) :: rest) = (readPieces rest).map (prependChar c) := by
  have hzero : Text.hexValue? '0' = some 0 := by decide
  have hhigh : Text.hexValue? (Text.hexDigit (c.toNat / 16)) = some (c.toNat / 16) :=
    Text.hexValue?_hexDigit (by omega)
  have hdigit : Text.hexValue? (Text.hexDigit (c.toNat % 16)) = some (c.toNat % 16) :=
    Text.hexValue?_hexDigit (by omega)
  have hvalue : ((0 * 16 + 0) * 16 + c.toNat / 16) * 16 + c.toNat % 16 = c.toNat := by omega
  have hunit : Piece.ofUnit c.toNat = .char c := by
    have hlead : ¬0xd800 ≤ c.toNat := by omega
    have htrail : ¬0xdc00 ≤ c.toNat := by omega
    simp [Piece.ofUnit, hlead, htrail, Char.ofNat_toNat]
  simp only [readPieces, hzero, hhigh, hdigit, Option.bind_eq_bind, Option.bind_some, hvalue,
    hunit]
  rcases readPieces rest with _ | ⟨ps, more⟩ <;> rfl

lemma readPieces_escapedChar (c : Char) (rest : List Char) :
    readPieces (escapedChar c ++ rest) = (readPieces rest).map (prependChar c) := by
  unfold escapedChar
  split
  case h_8 _ hquote hslash _ _ _ _ _ =>
    by_cases hlow : c.toNat < 32
    · rw [if_pos hlow]
      exact readPieces_control rest hlow
    · rw [if_neg hlow]
      exact readPieces_plain rest hquote hslash hlow
  all_goals exact readPieces_escape rest rfl

lemma readPieces_escaped (cs rest : List Char) :
    readPieces (cs.flatMap escapedChar ++ '"' :: rest) = some (cs.map .char, rest) := by
  induction cs with
  | nil => rfl
  | cons c cs ih =>
    rw [List.flatMap_cons, List.append_assoc, readPieces_escapedChar, ih]
    rfl

lemma joinPieces_map_char (cs : List Char) : joinPieces (cs.map .char) = some cs := by
  induction cs with
  | nil => rfl
  | cons c cs ih => simp [joinPieces, ih]

lemma readString_escaped (s : String) (rest : List Char) :
    readString (s.toList.flatMap escapedChar ++ '"' :: rest) = some (some s, rest) := by
  simp [readString, readPieces_escaped, joinPieces_map_char]

end Strings

section Numbers

lemma digitsValue_toDigits (n : Nat) : digitsValue (Nat.toDigits 10 n) = n := by
  have hfold : ∀ (ds : List Char) (m : Nat),
      ds.foldl (fun n d => n * 10 + (d.toNat - 48)) m = Nat.ofDigitChars 10 ds m := by
    intro ds
    induction ds with
    | nil => intro m; simp
    | cons d ds ih =>
      intro m
      rw [List.foldl_cons, ih, Nat.ofDigitChars_cons, Nat.mul_comm m 10]
      rfl
  rw [digitsValue, hfold, Nat.ofDigitChars_ten_toDigits]

lemma head?_toDigits_ne_zero {n : Nat} (h : 0 < n) : (Nat.toDigits 10 n).head? ≠ some '0' := by
  induction n using Nat.strongRecOn with
  | _ n ih =>
    by_cases hsmall : n < 10
    · rw [Nat.toDigits_of_lt_base hsmall]
      interval_cases n <;> decide
    · have hrest := ih (n / 10) (by omega) (by omega)
      rw [Nat.toDigits_of_base_le (by decide) (by omega)]
      rcases hdigits : Nat.toDigits 10 (n / 10) with _ | ⟨d, ds⟩
      · exact absurd hdigits Nat.toDigits_ne_nil
      · rwa [hdigits] at hrest

lemma isDigit_toDigits {n : Nat} {c : Char} (h : c ∈ Nat.toDigits 10 n) : c.isDigit = true :=
  Nat.isDigit_of_mem_toDigits (by decide) (by decide) h

lemma readWhole_toDigits (n : Nat) :
    readWhole (Nat.toDigits 10 n) = some (Nat.toDigits 10 n, []) := by
  have hdigits : readDigits (Nat.toDigits 10 n) = some (Nat.toDigits 10 n, []) :=
    readDigits_eq_some_iff.mpr ⟨(List.append_nil _).symm, Nat.toDigits_ne_nil,
      fun _ hc => isDigit_toDigits hc, fun _ hc => nomatch hc⟩
  refine readWhole_eq_some_iff.mpr ⟨hdigits, fun hhead => ?_⟩
  have hn : ¬0 < n := fun hn => head?_toDigits_ne_zero hn hhead
  obtain rfl : n = 0 := by omega
  decide

lemma Number.chars_integer (n : Int) :
    (Number.integer n).chars =
      (if 0 ≤ n then Nat.toDigits 10 n.toNat else '-' :: Nat.toDigits 10 (-n).toNat) := by
  rw [Number.chars, Int.toString_eq_repr, Int.repr_eq_if]
  split
  · rw [Nat.toList_repr]
  · rw [String.toList_append, Nat.toList_repr]
    rfl

lemma splitMinus_toDigits (n : Nat) :
    splitMinus (Nat.toDigits 10 n) = (false, Nat.toDigits 10 n) := by
  rcases hdigits : Nat.toDigits 10 n with _ | ⟨c, cs⟩
  · rfl
  · apply splitMinus_of_ne
    rintro rfl
    exact absurd (isDigit_toDigits (hdigits ▸ List.mem_cons_self)) (by decide)

lemma readNumber_natural {n : Nat} (hn : n < 2 ^ 64) :
    readNumber (Nat.toDigits 10 n) = some (number (.integer n), []) := by
  have hfits : decide (n < Nat.pow 2 64) = true := decide_eq_true hn
  simp only [readNumber_eq, splitMinus_toDigits, readWhole_toDigits, Option.bind_some,
    endsNumber_nil.readFraction_eq, endsNumber_nil.readExponent_eq]
  simp only [numberOf, digitsValue_toDigits, List.isEmpty_nil, Option.isNone_none, Bool.and_self,
    Bool.false_eq_true, if_false, hfits, if_true]

lemma readNumber_negative {n : Nat} (hpos : 0 < n) (hn : n ≤ 2 ^ 63) :
    readNumber ('-' :: Nat.toDigits 10 n) = some (number (.integer (-n)), []) := by
  have hfits : decide (n ≤ Nat.pow 2 63) = true := decide_eq_true hn
  simp only [readNumber_eq, splitMinus, readWhole_toDigits, Option.bind_some,
    endsNumber_nil.readFraction_eq, endsNumber_nil.readExponent_eq]
  simp only [numberOf, digitsValue_toDigits, List.isEmpty_nil, Option.isNone_none, Bool.and_self,
    if_true, decide_eq_true hpos, hfits]

/-- A number that can be written is read again from its text. -/
lemma readNumber_chars {n : Number} (h : (number n).Writable) :
    readNumber n.chars = some (number n, []) := by
  cases n with
  | decimal literal => exact h
  | integer n =>
    obtain ⟨hlow, hhigh⟩ := h
    rw [Number.chars_integer]
    by_cases hsign : 0 ≤ n
    · rw [if_pos hsign, readNumber_natural (by omega), Int.toNat_of_nonneg hsign]
    · rw [if_neg hsign, readNumber_negative (by omega) (by omega),
        Int.toNat_of_nonneg (by omega), Int.neg_neg]

end Numbers

section Values

lemma endsNumber_itemChars (vs : List Json) (rest : List Char) :
    EndsNumber (itemChars vs ++ rest) := by
  intro c hc
  cases vs <;>
  · simp only [itemChars, List.cons_append, List.head?_cons, Option.mem_def,
      Option.some.injEq] at hc
    subst hc
    decide

lemma endsNumber_fieldChars (fs : List (String × Json)) (rest : List Char) :
    EndsNumber (fieldChars fs ++ rest) := by
  intro c hc
  rcases fs with _ | ⟨⟨k, v⟩, fs⟩ <;>
  · simp only [fieldChars, List.cons_append, List.head?_cons, Option.mem_def,
      Option.some.injEq] at hc
    subst hc
    decide

lemma beginsValue_cons {c : Char} (cs : List Char)
    (h : isBlank c = false ∧ c ≠ ']' ∧ c ≠ '\x7d') : BeginsValue (c :: cs) :=
  ⟨c, cs, rfl, h⟩

lemma beginsValue_number {n : Number} (h : (number n).Writable) : BeginsValue n.chars := by
  obtain ⟨c, cs, hchars, hc⟩ := exists_cons_of_readNumber (readNumber_chars h)
  rw [hchars]
  apply beginsValue_cons
  rcases hc with rfl | hc
  · decide
  · simp only [isBlank, Bool.or_eq_false_iff, beq_eq_false_iff_ne]
    refine ⟨⟨⟨⟨?_, ?_⟩, ?_⟩, ?_⟩, ?_, ?_⟩ <;>
    · rintro rfl
      cases hc

lemma beginsValue_chars {v : Json} (h : v.Writable) : BeginsValue v.chars := by
  cases v with
  | number n => exact beginsValue_number h
  | bool b => cases b <;> exact beginsValue_cons _ (by decide)
  | array items => cases items <;> exact beginsValue_cons _ (by decide)
  | object fields =>
    rcases fields with _ | ⟨⟨k, v⟩, fields⟩ <;> exact beginsValue_cons _ (by decide)
  | _ => exact beginsValue_cons _ (by decide)

lemma readValue_number {n : Number} (hn : (number n).Writable) (fuel : Nat) {rest : List Char}
    (h : EndsNumber rest) : readValue (fuel + 1) (n.chars ++ rest) = some (number n, rest) := by
  obtain ⟨c, cs, hchars, hc⟩ := exists_cons_of_readNumber (readNumber_chars hn)
  rw [readValue, (beginsValue_number hn).skipBlanks_append]
  split
  case h_7 => exact readNumber_append (readNumber_chars hn) h
  all_goals
    next heq =>
      rw [hchars, List.cons_append] at heq
      obtain rfl : c = _ := (List.cons.inj heq).1
      rcases hc with hc | hc <;> cases hc

lemma stringChars_append (s : String) (rest : List Char) :
    stringChars s ++ rest = '"' :: (s.toList.flatMap escapedChar ++ '"' :: rest) := by
  simp [stringChars]

lemma readValue_string (s : String) (fuel : Nat) (rest : List Char) :
    readValue (fuel + 1) (stringChars s ++ rest) = some (string s, rest) := by
  rw [stringChars_append, readValue, skipBlanks_cons (c := '"') _ rfl]
  simp only [readString_escaped, Option.bind_eq_bind, Option.bind_some, Option.elim_some]

lemma readValue_items {cs : List Char} (h : BeginsValue cs) (fuel : Nat) (rest : List Char) :
    readValue (fuel + 1) ('[' :: (cs ++ rest)) =
      (readItems fuel (cs ++ rest)).map fun (vs, rest) => (array vs, rest) := by
  obtain ⟨c, cs, rfl, hc, hbracket, -⟩ := h
  rw [readValue, skipBlanks_cons (c := '[') _ rfl]
  simp only [List.cons_append, skipBlanks_cons _ hc]
  split
  · next heq => exact absurd (List.cons.inj heq).1 hbracket
  · rfl

lemma readValue_fields (cs : List Char) (fuel : Nat) :
    readValue (fuel + 1) ('\x7b' :: '"' :: cs) =
      (readFields fuel ('"' :: cs)).map fun (fs, rest) =>
        (fs.elim unrepresentable object, rest) := by
  rw [readValue, skipBlanks_cons (c := '\x7b') _ rfl]
  simp only [skipBlanks_cons (c := '"') _ rfl]
  rfl

/-- The items of an array are its text after the bracket; those of one that is not empty begin
without a comma. -/
lemma array_chars_cons (v : Json) (vs : List Json) :
    (array (v :: vs)).chars = '[' :: (itemChars (v :: vs)).tail := by
  simp [chars, itemChars]

lemma object_chars_cons (f : String × Json) (fs : List (String × Json)) :
    (object (f :: fs)).chars = '\x7b' :: (fieldChars (f :: fs)).tail := by
  simp [chars, fieldChars]

lemma beginsValue_items {v : Json} (h : v.Writable) (vs : List Json) :
    BeginsValue (itemChars (v :: vs)).tail := by
  obtain ⟨c, cs, hv, hc⟩ := beginsValue_chars h
  rw [itemChars, hv]
  exact beginsValue_cons _ hc

mutual

lemma readValue_chars {v : Json} (h : v.Writable) (fuel : Nat)
    (hfuel : 2 * v.chars.length ≤ fuel) {rest : List Char} (hrest : EndsNumber rest) :
    readValue fuel (v.chars ++ rest) = some (v, rest) := by
  obtain ⟨c, cs, hchars, -⟩ := beginsValue_chars h
  obtain ⟨fuel, rfl⟩ : ∃ n, fuel = n + 1 := by
    rw [hchars, List.length_cons] at hfuel
    exact ⟨fuel - 1, by omega⟩
  cases v with
  | null => rfl
  | bool b => cases b <;> rfl
  | number n => exact readValue_number h fuel hrest
  | string s => exact readValue_string s fuel rest
  | unrepresentable => exact h.elim
  | array items =>
    cases items with
    | nil => rfl
    | cons v vs =>
      rw [array_chars_cons, List.length_cons] at hfuel
      rw [array_chars_cons, List.cons_append, readValue_items (beginsValue_items h.1 vs),
        readItems_chars h (by simp) fuel (by omega)]
      rfl
  | object fields =>
    cases fields with
    | nil => rfl
    | cons f fs =>
      rw [object_chars_cons, List.length_cons] at hfuel
      have hfields := readFields_chars h (by simp) fuel (by omega) rest
      rw [object_chars_cons, List.cons_append]
      simp only [fieldChars, List.cons_append, List.tail_cons, List.append_assoc,
        stringChars_append] at hfields ⊢
      rw [readValue_fields, hfields]
      rfl

lemma readItems_chars {vs : List Json} (h : ItemsWritable vs) (hne : vs ≠ []) (fuel : Nat)
    (hfuel : 2 * (itemChars vs).tail.length < fuel) (rest : List Char) :
    readItems fuel ((itemChars vs).tail ++ rest) = some (vs, rest) := by
  obtain ⟨fuel, rfl⟩ : ∃ n, fuel = n + 1 := ⟨fuel - 1, by omega⟩
  cases vs with
  | nil => exact absurd rfl hne
  | cons v vs =>
    simp only [itemChars, List.cons_append, List.tail_cons, List.length_append] at hfuel ⊢
    have hvalue := readValue_chars h.1 fuel (by omega) (endsNumber_itemChars vs rest)
    rw [List.append_assoc, readItems, hvalue]
    cases vs with
    | nil => rfl
    | cons w ws =>
      have hlength : (itemChars (w :: ws)).length = (itemChars (w :: ws)).tail.length + 1 := by
        simp [itemChars]
      have hitems := readItems_chars h.2 (by simp) fuel (by omega) rest
      simp only [itemChars, List.cons_append, List.tail_cons] at hitems ⊢
      simp only [Option.bind_eq_bind, Option.bind_some, skipBlanks_cons (c := ',') _ rfl, hitems]

lemma readFields_chars {fs : List (String × Json)} (h : FieldsWritable fs) (hne : fs ≠ [])
    (fuel : Nat) (hfuel : 2 * (fieldChars fs).tail.length < fuel) (rest : List Char) :
    readFields fuel ((fieldChars fs).tail ++ rest) = some (some fs, rest) := by
  obtain ⟨fuel, rfl⟩ : ∃ n, fuel = n + 1 := ⟨fuel - 1, by omega⟩
  cases fs with
  | nil => exact absurd rfl hne
  | cons f fs =>
    obtain ⟨k, v⟩ := f
    simp only [fieldChars, List.cons_append, List.tail_cons, List.length_append,
      List.length_cons] at hfuel ⊢
    have hvalue := readValue_chars h.1 fuel (by omega) (endsNumber_fieldChars fs rest)
    rw [List.append_assoc, List.append_assoc, stringChars_append, readFields,
      skipBlanks_cons (c := '"') _ rfl]
    simp only [readString_escaped, Option.bind_eq_bind, Option.bind_some, List.cons_append,
      skipBlanks_cons (c := ':') _ rfl, hvalue]
    cases fs with
    | nil => rfl
    | cons g gs =>
      obtain ⟨l, w⟩ := g
      have hfields := readFields_chars h.2 (by simp) fuel
        (by rw [List.length_tail]; omega) rest
      simp only [fieldChars, List.cons_append, List.tail_cons] at hfields ⊢
      simp only [skipBlanks_cons (c := ',') _ rfl, hfields, Option.bind_some, Option.map_some]

end

/-- Reading takes the compact text of a value back to the value. -/
theorem read?_compact {v : Json} (h : v.Writable) : read? v.compact = some v := by
  have hvalue := readValue_chars h (2 * v.chars.length + 2) (by omega) endsNumber_nil
  rw [List.append_nil] at hvalue
  rw [read?, compact, String.toList_ofList, readChars?, hvalue, Option.bind_eq_bind,
    Option.bind_some]
  exact if_pos rfl

end Values

end Json

end Folio
