/-!
# Texts and bytes

Positions in a text are counted in bytes of its UTF-8 form. Bytes that come from elsewhere may not
be UTF-8: each longest run of bytes that starts a character but does not complete it, and each byte
that starts none, reads as the replacement character.
-/

namespace Folio.Text

/-- The text after its first `n` bytes, or `none` when that position lies inside a character or
beyond the end. -/
def dropBytes? : Nat → List Char → Option (List Char)
  | 0, cs => some cs
  | _ + 1, [] => none
  | n + 1, c :: cs => if c.utf8Size ≤ n + 1 then dropBytes? (n + 1 - c.utf8Size) cs else none

/-- What a first byte announces: its own share of the character, how many bytes follow it, and the
range of the next one. -/
structure Utf8Lead where
  value : Nat
  following : Nat
  least : Nat
  most : Nat

def utf8Lead? (b : Nat) : Option Utf8Lead :=
  if b < 0x80 then some ⟨b, 0, 0x80, 0xbf⟩
  else if b < 0xc2 then none
  else if b < 0xe0 then some ⟨b - 0xc0, 1, 0x80, 0xbf⟩
  else if b < 0xf0 then
    some ⟨b - 0xe0, 2, if b = 0xe0 then 0xa0 else 0x80, if b = 0xed then 0x9f else 0xbf⟩
  else if b < 0xf5 then
    some ⟨b - 0xf0, 3, if b = 0xf0 then 0x90 else 0x80, if b = 0xf4 then 0x8f else 0xbf⟩
  else none

def replacementChar : Char := '\ufffd'

/-- The character that the next bytes complete, and the bytes that are left. -/
def utf8Rest (value least most : Nat) : Nat → List UInt8 → Char × List UInt8
  | 0, bs => (Char.ofNat value, bs)
  | _ + 1, [] => (replacementChar, [])
  | n + 1, b :: bs =>
    if least ≤ b.toNat ∧ b.toNat ≤ most then
      utf8Rest (value * 64 + (b.toNat - 0x80)) 0x80 0xbf n bs
    else (replacementChar, b :: bs)

theorem length_utf8Rest_le (value least most n : Nat) (bs : List UInt8) :
    (utf8Rest value least most n bs).2.length ≤ bs.length := by
  fun_induction utf8Rest value least most n bs <;> simp_all
  omega

def ofBytes : List UInt8 → List Char
  | [] => []
  | b :: bs =>
    match utf8Lead? b.toNat with
    | none => replacementChar :: ofBytes bs
    | some lead =>
      let next := utf8Rest lead.value lead.least lead.most lead.following bs
      next.1 :: ofBytes next.2
termination_by bs => bs.length
decreasing_by
  · simp
  · have := length_utf8Rest_le lead.value lead.least lead.most lead.following bs
    simp only [List.length_cons]
    omega

end Folio.Text
