import Folio.Json.Reader
import Mathlib.Data.List.TakeDrop
import Mathlib.Tactic.Lemma

/-!
# Texts of numbers

A number is read from as many characters as belong to one. What is read of a text that is a number
is read again when the text goes on with something that does not belong to it.
-/

namespace Folio.Json

/-- A text that does not go on with a number that stands before it. -/
def EndsNumber (rest : List Char) : Prop :=
  ∀ c ∈ rest.head?, c.isDigit = false ∧ c ≠ '.' ∧ c ≠ 'e' ∧ c ≠ 'E'

variable {cs ds more rest : List Char}

section Digits

/-- What digits are read: as many as there are, at least one. -/
lemma readDigits_eq_some_iff :
    readDigits cs = some (ds, more) ↔ cs = ds ++ more ∧ ds ≠ [] ∧ (∀ c ∈ ds, c.isDigit = true) ∧
      ∀ c ∈ more.head?, c.isDigit = false := by
  unfold readDigits
  rw [List.span_eq_takeWhile_dropWhile]
  constructor
  · intro h
    have hsplit := List.takeWhile_append_dropWhile (p := fun c : Char => c.isDigit) (l := cs)
    have hall := List.all_eq_true.mp (List.all_takeWhile (l := cs) (p := fun c : Char => c.isDigit))
    have hnext := List.head?_dropWhile_not (fun c : Char => c.isDigit) cs
    split at h
    · cases h
    · next hds heq =>
      cases h
      obtain ⟨rfl, rfl⟩ := Prod.mk.inj heq
      refine ⟨hsplit.symm, hds, hall, fun c hc => ?_⟩
      rw [Option.mem_def.mp hc] at hnext
      exact hnext
  · rintro ⟨rfl, hne, hall, hnext⟩
    have hmore : more.takeWhile (·.isDigit) = [] ∧ more.dropWhile (·.isDigit) = more := by
      cases more with
      | nil => exact ⟨rfl, rfl⟩
      | cons c more => simp [hnext c rfl]
    rw [List.takeWhile_append_of_pos hall, List.dropWhile_append_of_pos hall, hmore.1, hmore.2,
      List.append_nil]
    cases ds with
    | nil => exact absurd rfl hne
    | cons d ds => rfl

lemma readDigits_append (h : readDigits cs = some (ds, more))
    (hrest : more = [] → EndsNumber rest) : readDigits (cs ++ rest) = some (ds, more ++ rest) := by
  obtain ⟨rfl, hne, hall, hnext⟩ := readDigits_eq_some_iff.mp h
  refine readDigits_eq_some_iff.mpr ⟨List.append_assoc .., hne, hall, ?_⟩
  cases more with
  | nil => exact fun c hc => (hrest rfl c hc).1
  | cons c more => exact hnext

lemma readWhole_eq_some_iff : readWhole cs = some (ds, more) ↔
    readDigits cs = some (ds, more) ∧ (ds.head? = some '0' → ds.length ≤ 1) := by
  unfold readWhole
  rcases readDigits cs with _ | ⟨ds', more'⟩
  · simp
  · simp only [Option.bind_eq_bind, Option.bind_some, Option.some.injEq, Prod.mk.injEq]
    by_cases hzero : ds'.head? = some '0' → ds'.length ≤ 1
    · rw [if_neg (by simpa using hzero)]
      constructor
      · rintro ⟨⟩
        exact ⟨⟨rfl, rfl⟩, hzero⟩
      · rintro ⟨⟨rfl, rfl⟩, -⟩
        rfl
    · rw [if_pos (by simpa using hzero)]
      constructor
      · rintro ⟨⟩
      · rintro ⟨⟨rfl, rfl⟩, hzero'⟩
        exact absurd hzero' hzero

lemma readWhole_append (h : readWhole cs = some (ds, more))
    (hrest : more = [] → EndsNumber rest) : readWhole (cs ++ rest) = some (ds, more ++ rest) := by
  obtain ⟨hdigits, hzero⟩ := readWhole_eq_some_iff.mp h
  exact readWhole_eq_some_iff.mpr ⟨readDigits_append hdigits hrest, hzero⟩

end Digits

section Parts

lemma endsNumber_nil : EndsNumber [] := by
  intro c hc
  cases hc

lemma EndsNumber.readFraction_eq (h : EndsNumber rest) : readFraction rest = some ([], rest) := by
  unfold readFraction
  split
  · exact absurd rfl (h _ rfl).2.1
  · rfl

lemma EndsNumber.readExponent_eq (h : EndsNumber rest) : readExponent rest = some (none, rest) := by
  unfold readExponent
  split
  · exact absurd rfl (h _ rfl).2.2.1
  · exact absurd rfl (h _ rfl).2.2.2
  · rfl

lemma readFraction_append (h : readFraction cs = some (ds, more))
    (hrest : more = [] → EndsNumber rest) :
    readFraction (cs ++ rest) = some (ds, more ++ rest) := by
  unfold readFraction at h
  split at h
  · exact readDigits_append h hrest
  · next hpoint =>
    cases h
    cases cs with
    | nil => exact (hrest rfl).readFraction_eq
    | cons c cs =>
      unfold readFraction
      split
      · next heq =>
        obtain rfl : c = '.' := (List.cons.inj heq).1
        exact (hpoint cs rfl).elim
      · rfl

/-- The sign of an exponent, and its digits with what follows them. -/
def splitSign : List Char → Int × List Char
  | '+' :: rest => (1, rest)
  | '-' :: rest => (-1, rest)
  | rest => (1, rest)

lemma splitSign_append (h : cs ≠ []) :
    splitSign (cs ++ rest) = ((splitSign cs).1, (splitSign cs).2 ++ rest) := by
  obtain ⟨c, cs, rfl⟩ := List.exists_cons_of_ne_nil h
  by_cases hplus : c = '+'
  · subst hplus
    rfl
  · by_cases hminus : c = '-'
    · subst hminus
      rfl
    · simp [splitSign, hplus, hminus]

lemma readExponent_cons {c : Char} (hc : c = 'e' ∨ c = 'E') (cs : List Char) :
    readExponent (c :: cs) = (readDigits (splitSign cs).2).bind fun (ds, more) =>
      some (some ((splitSign cs).1 * digitsValue ds), more) := by
  have hsign : ∀ c' cs, c' = '+' ∨ c' = '-' ∨ (c' ≠ '+' ∧ c' ≠ '-') →
      readExponent (c :: c' :: cs) = (readDigits (splitSign (c' :: cs)).2).bind fun (ds, more) =>
        some (some ((splitSign (c' :: cs)).1 * digitsValue ds), more) := by
    rintro c' cs (rfl | rfl | ⟨hplus, hminus⟩)
    · rcases hc with rfl | rfl <;> rfl
    · rcases hc with rfl | rfl <;> rfl
    · rcases hc with rfl | rfl <;> simp [readExponent, splitSign, hplus, hminus]
  cases cs with
  | nil => rcases hc with rfl | rfl <;> rfl
  | cons c' cs => exact hsign c' cs (by tauto)

lemma readExponent_append {e : Option Int} (h : readExponent cs = some (e, more))
    (hrest : more = [] → EndsNumber rest) :
    readExponent (cs ++ rest) = some (e, more ++ rest) := by
  rcases cs with _ | ⟨c, cs⟩
  · cases h
    exact (hrest rfl).readExponent_eq
  · by_cases hc : c = 'e' ∨ c = 'E'
    · rw [readExponent_cons hc] at h
      obtain ⟨⟨ds, more'⟩, hdigits, heq⟩ := Option.bind_eq_some_iff.mp h
      cases heq
      have hne : cs ≠ [] := by
        rintro rfl
        cases hdigits
      rw [List.cons_append, readExponent_cons hc, splitSign_append hne,
        readDigits_append hdigits hrest]
      rfl
    · rw [not_or] at hc
      have hnone : ∀ cs, readExponent (c :: cs) = some (none, c :: cs) := by
        intro cs
        simp [readExponent, hc.1, hc.2]
      rw [hnone] at h
      cases h
      exact hnone _

end Parts

section Numbers

/-- Whether a number is negative, and its text without the sign. -/
def splitMinus : List Char → Bool × List Char
  | '-' :: rest => (true, rest)
  | rest => (false, rest)

/-- The number that has these parts. -/
def numberOf (negative : Bool) (whole fraction : List Char) (exponent : Option Int) : Json :=
  let n := digitsValue whole
  let isInteger := fraction.isEmpty && exponent.isNone &&
    (if negative then 0 < n && n ≤ Nat.pow 2 63 else n < Nat.pow 2 64)
  if isInteger then number (.integer (if negative then -n else n))
  else if isFinite (digitsValue (whole ++ fraction)) (exponent.getD 0 - fraction.length) then
    let sign := if negative then "-" else ""
    let point := if fraction.isEmpty then "" else "." ++ String.ofList fraction
    let power := match exponent with
      | some e => "e" ++ toString e
      | none => ""
    number (.decimal (sign ++ String.ofList whole ++ point ++ power))
  else unrepresentable

lemma splitMinus_of_ne {c : Char} (hc : c ≠ '-') (cs : List Char) :
    splitMinus (c :: cs) = (false, c :: cs) := by
  simp [splitMinus, hc]

/-- A number is read part by part. -/
lemma readNumber_eq (cs : List Char) :
    readNumber cs = (readWhole (splitMinus cs).2).bind fun (whole, cs₁) =>
      (readFraction cs₁).bind fun (fraction, cs₂) => (readExponent cs₂).bind fun (exponent, cs₃) =>
        some (numberOf (splitMinus cs).1 whole fraction exponent, cs₃) := by
  unfold readNumber
  split
  next negative cs' hsign =>
    have hsplit : splitMinus cs = (negative, cs') := hsign
    rw [hsplit]
    rcases readWhole cs' with _ | ⟨whole, cs₁⟩
    · rfl
    simp only [Option.bind_eq_bind, Option.bind_some]
    rcases readFraction cs₁ with _ | ⟨fraction, cs₂⟩
    · rfl
    simp only [Option.bind_some]
    rcases readExponent cs₂ with _ | ⟨exponent, cs₃⟩
    · rfl
    simp only [Option.bind_some, numberOf]
    split_ifs <;> rfl

lemma readNumber_append {v : Json} (h : readNumber cs = some (v, [])) (hrest : EndsNumber rest) :
    readNumber (cs ++ rest) = some (v, rest) := by
  rw [readNumber_eq] at h
  obtain ⟨⟨whole, cs₁⟩, hwhole, h⟩ := Option.bind_eq_some_iff.mp h
  obtain ⟨⟨fraction, cs₂⟩, hfraction, h⟩ := Option.bind_eq_some_iff.mp h
  obtain ⟨⟨exponent, cs₃⟩, hexponent, h⟩ := Option.bind_eq_some_iff.mp h
  cases h
  have hsign : splitMinus (cs ++ rest) = ((splitMinus cs).1, (splitMinus cs).2 ++ rest) := by
    cases cs with
    | nil => cases hwhole
    | cons c cs =>
      by_cases hc : c = '-'
      · subst hc
        rfl
      · rw [List.cons_append, splitMinus_of_ne hc, splitMinus_of_ne hc, List.cons_append]
  simp only [readNumber_eq, hsign, readWhole_append hwhole fun _ => hrest, Option.bind_some,
    readFraction_append hfraction fun _ => hrest, readExponent_append hexponent fun _ => hrest,
    List.nil_append]

lemma exists_cons_of_readNumber {v : Json} (h : readNumber cs = some (v, more)) :
    ∃ c rest, cs = c :: rest ∧ (c = '-' ∨ c.isDigit = true) := by
  rw [readNumber_eq] at h
  obtain ⟨⟨whole, cs₁⟩, hwhole, -⟩ := Option.bind_eq_some_iff.mp h
  obtain ⟨hsplit, hne, hdigits, -⟩ := readDigits_eq_some_iff.mp (readWhole_eq_some_iff.mp hwhole).1
  cases cs with
  | nil => exact absurd (List.append_eq_nil_iff.mp hsplit.symm).1 hne
  | cons c cs =>
    refine ⟨c, cs, rfl, ?_⟩
    by_cases hc : c = '-'
    · exact .inl hc
    · obtain ⟨d, ds, rfl⟩ := List.exists_cons_of_ne_nil hne
      rw [splitMinus_of_ne hc] at hsplit
      obtain rfl : c = d := (List.cons.inj hsplit).1
      exact .inr (hdigits c List.mem_cons_self)

end Numbers

end Folio.Json
