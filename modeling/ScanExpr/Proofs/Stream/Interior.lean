import ScanExpr.Proofs.Stream.Boundary

/-!
# `ScanExpr.Proofs.Stream.Interior`: a cursor anywhere in the text

A cursor that has moved by bytes, or to a mark of another source, may
stand inside a character. `c.Inside x k after` says that it stands inside
the character `x`, with `k` of its bytes behind it, and that `after` is
what comes after the character.

* `Cursor.precedes_or_inside`: a cursor that is not between two characters
  is inside one.
* `Cursor.Inside.leadWidth_byte`: the byte there starts no character and
  counts for one, so `advance` moves by a single byte.
* `Cursor.pos_add_leadWidth_le`: wherever the cursor stands, the text has
  as many bytes left as the byte under the cursor announces.
-/

set_option autoImplicit false

namespace ScanExpr

/-! ### The bytes of a character -/

/-- A byte counts for one if it is a character by itself, or starts none. -/
theorem leadWidth_eq_one {b : UInt8} (single : b < 0x80 ∨ ¬ b.IsUTF8FirstByte) :
    Cursor.leadWidth b = 1 := by
  -- There are only 256 bytes.
  have all : ∀ n : Fin 256, .ofFin n < (0x80 : UInt8) ∨ ¬ (UInt8.ofFin n).IsUTF8FirstByte →
      Cursor.leadWidth (.ofFin n) = 1 := by
    decide +kernel
  exact all b.toFin single

/-- The first byte of a character tells how many it takes. -/
theorem toNat_leadWidth_leadByte (x : Char) :
    (Cursor.leadWidth (leadByte x)).toNat = x.utf8Size := by
  by_cases one : x.utf8Size = 1
  · rw [leadWidth_eq_one (.inl (leadByte_of_utf8Size_eq_one one).1), one]
    rfl
  · rw [(leadWidth_leadByte one).1, Cursor.toNat_utf8Size]

/-- A step by the width that a byte announces is never empty. -/
theorem toNat_leadWidth_pos (b : UInt8) : 0 < (Cursor.leadWidth b).toNat := by
  rw [Cursor.leadWidth]
  split
  · decide
  · split
    · decide
    · split <;> decide

/-- An offset into characters stands between two of them, or inside one. -/
theorem exists_place {cs : List Char} {p : Nat} (within : p ≤ byteLength cs) :
    ∃ before rest, cs = before ++ rest ∧ (p = byteLength before ∨
      ∃ x k after, rest = x :: after ∧ p = byteLength before + k ∧ 0 < k ∧ k < x.utf8Size) := by
  -- Along the characters, with the offset less the bytes of those before.
  induction cs generalizing p with
  | nil => exact ⟨[], [], rfl, .inl (Nat.le_zero.1 within)⟩
  | cons c cs ih =>
    rw [byteLength_cons] at within
    -- An offset past the first character is one into the others, less the bytes of the first.
    by_cases first : p < c.utf8Size
    · refine ⟨[], c :: cs, rfl, ?_⟩
      rcases Nat.eq_zero_or_pos p with rfl | begun
      · exact .inl rfl
      · exact .inr ⟨c, p, cs, rfl, (Nat.zero_add p).symm, begun, first⟩
    · obtain ⟨before, rest, rfl, place⟩ := ih (p := p - c.utf8Size) (by omega)
      refine ⟨c :: before, rest, rfl, ?_⟩
      rw [byteLength_cons]
      rcases place with between | ⟨x, k, after, rfl, inside, begun, unfinished⟩
      · exact .inl (by omega)
      · exact .inr ⟨x, k, after, rfl, by omega, begun, unfinished⟩

/-! ### A cursor inside a character -/

namespace Cursor

variable {src : Source} {c : Cursor src} {x : Char} {k : Nat} {rest after : List Char}

/-- The cursor stands inside the character `x`, with `k` of its bytes behind
it, and `after` is what comes after the character. -/
structure Inside (c : Cursor src) (x : Char) (k : Nat) (after : List Char) : Prop where
  begun : 0 < k
  unfinished : k < x.utf8Size
  place : ∃ before, src.text.toList = before ++ x :: after ∧ c.pos.toNat = byteLength before + k

/-- A cursor stands between two characters, or inside one. -/
theorem precedes_or_inside (c : Cursor src) :
    (∃ rest, c.Precedes rest) ∨ ∃ x k after, c.Inside x k after := by
  have within : c.pos.toNat ≤ byteLength src.text.toList := by
    rw [byteLength_toList, ← Source.toNat_length]
    exact UInt32.le_iff_toNat_le.1 c.pos_le
  obtain ⟨before, rest, text, between | ⟨x, k, after, rfl, inside, begun, unfinished⟩⟩ :=
    exists_place within
  · exact .inl ⟨rest, before, text, between⟩
  · exact .inr ⟨x, k, after, begun, unfinished, before, text, inside⟩

namespace Inside

/-- The rest of the character and what comes after it are left of the
text. -/
theorem pos_add (inside : c.Inside x k after) :
    c.pos.toNat + (x.utf8Size - k) + byteLength after = src.length.toNat := by
  obtain ⟨begun, unfinished, before, text, pos⟩ := inside
  have total : src.length.toNat = byteLength before + (x.utf8Size + byteLength after) := by
    rw [← byteLength_cons, ← byteLength_append, ← text, byteLength_toList, Source.toNat_length]
  omega

/-- Inside a character it is not the end. -/
theorem atEnd_eq_false (inside : c.Inside x k after) : c.atEnd = false := by
  have left := inside.pos_add
  have unfinished := inside.unfinished
  exact atEnd_eq_false_iff.2 (by omega)

/-- The byte inside a character starts none. -/
theorem not_first (inside : c.Inside x k after) : ¬ c.byte.IsUTF8FirstByte := by
  obtain ⟨begun, unfinished, before, text, pos⟩ := inside
  rw [← String.length_utf8EncodeChar] at unfinished
  have within : byteLength before + k < src.bytes.size := pos ▸ c.pos_lt_size
  have byte : c.byte = (String.utf8EncodeChar x)[k] := by
    rw [← Source.getElem_bytes_add text unfinished within]
    simp only [Cursor.byte, pos]
  -- Of the bytes of an encoding only the one at index zero can start a character.
  rw [byte, UInt8.isUTF8FirstByte_getElem_utf8EncodeChar]
  exact Nat.ne_of_gt begun

/-- The byte inside a character counts for one. -/
theorem leadWidth_byte (inside : c.Inside x k after) : leadWidth c.byte = 1 :=
  leadWidth_eq_one (.inr inside.not_first)

end Inside

/-! ### The width that a byte announces -/

/-- The width that is announced between two characters is that of the next
one. -/
theorem Precedes.toNat_leadWidth_byte (stands : c.Precedes (x :: rest)) :
    (leadWidth c.byte).toNat = x.utf8Size := by
  rw [stands.byte_eq, toNat_leadWidth_leadByte]

/-- Wherever the cursor stands in the text, as many bytes are left as the
byte under it announces. -/
theorem pos_add_leadWidth_le (inText : c.atEnd = false) :
    c.pos.toNat + (leadWidth c.byte).toNat ≤ src.length.toNat := by
  rcases c.precedes_or_inside with ⟨rest, stands⟩ | ⟨x, k, after, inside⟩
  · cases rest with
    | nil => cases stands.atEnd_eq.symm.trans inText
    | cons x rest =>
      have left := stands.pos_add
      rw [byteLength_cons] at left
      rw [stands.toNat_leadWidth_byte]
      omega
  · have left := inside.pos_add
    have unfinished := inside.unfinished
    rw [inside.leadWidth_byte]
    show c.pos.toNat + 1 ≤ _
    omega

/-- A cursor that advances moves by the width that is announced. -/
theorem toNat_pos_advance (inText : c.atEnd = false) :
    c.advance.pos.toNat = c.pos.toNat + (leadWidth c.byte).toNat := by
  rw [advance, inText]
  exact toNat_pos_clamped_add (pos_add_leadWidth_le inText)

end Cursor

end ScanExpr
