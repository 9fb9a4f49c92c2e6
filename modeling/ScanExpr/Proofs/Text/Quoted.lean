import ScanExpr.Text.Quoted

/-!
# `ScanExpr.Proofs.Text.Quoted`: how bytes are written as characters

A byte is shown as the character with that code point. Up to U+00FF the
table of unprintable characters comes down to three ranges, so what stands
between the quotes can be told without it.

* `Text.quotedByte`: the text, by cases on the byte.
* `Text.quoted_ofUInt8`: it is what `Text.quoted` writes.
-/

set_option autoImplicit false

namespace ScanExpr.Text

/-- All of the table but its first three ranges lies above U+00FF. -/
theorem unprintableRanges_eq :
    ∃ others, unprintableRanges.toList = (0x0, 0x1f) :: (0x7f, 0xa0) :: (0xad, 0xad) :: others ∧
      ∀ r ∈ others, 0xff < r.1 := by
  -- The whole table is gone through, once.
  have above : ((unprintableRanges.toList.drop 3).all fun r => 0xff < r.1) = true := by
    decide +kernel
  refine ⟨unprintableRanges.toList.drop 3, rfl, fun r here => ?_⟩
  exact of_decide_eq_true (List.all_eq_true.1 above r here)

/-- Below U+0100 the controls, the space that is not broken and the soft
hyphen do not show by themselves. -/
theorem isUnprintable_iff_of_lt {c : Char} (small : c.toNat < 0x100) :
    isUnprintable c = true ↔
      c.toNat < 0x20 ∨ (0x7f ≤ c.toNat ∧ c.toNat ≤ 0xa0) ∨ c.toNat = 0xad := by
  obtain ⟨others, table, above⟩ := unprintableRanges_eq
  have none : (others.any fun r => r.1 ≤ c.toNat && c.toNat ≤ r.2) = false := by
    rw [List.any_eq_false]
    intro r here
    have := above r here
    simp only [Bool.and_eq_true, decide_eq_true_iff]
    omega
  -- Below U+007F the table is not asked, and it would say the same.
  rw [isUnprintable, ← Array.any_toList, table]
  simp only [List.any_cons, none]
  split <;> simp <;> omega

/-- The character with the code point `b` between single quotes: six of them
have a short escape, those that do not show are written by their code point,
and the others stand for themselves. -/
def quotedByte (b : UInt8) : String :=
  if b = 0x00 then "'\\0'"
  else if b = 0x09 then "'\\t'"
  else if b = 0x0a then "'\\n'"
  else if b = 0x0d then "'\\r'"
  else if b = 0x27 then "'\\''"
  else if b = 0x5c then "'\\\\'"
  else if b < 0x20 ∨ (0x7f ≤ b ∧ b ≤ 0xa0) ∨ b = 0xad then
    "'\\u\x7b" ++ String.ofList (Nat.toDigits 16 b.toNat) ++ "\x7d'"
  else "'" ++ String.singleton (Char.ofUInt8 b) ++ "'"

/-- The character of a byte has that byte as its code point. -/
theorem toNat_ofUInt8 (b : UInt8) : (Char.ofUInt8 b).toNat = b.toNat :=
  b.toNat_toUInt32

/-- A byte is told by its character. -/
theorem eq_ofNat_of_ofUInt8_eq {b : UInt8} {c : Char} (same : Char.ofUInt8 b = c) :
    b = UInt8.ofNat c.toNat := by
  rw [← same, toNat_ofUInt8, UInt8.ofNat_toNat]

/-- The bytes that are unprintable as characters. -/
theorem isUnprintable_ofUInt8 (b : UInt8) :
    isUnprintable (Char.ofUInt8 b) = true ↔ b < 0x20 ∨ (0x7f ≤ b ∧ b ≤ 0xa0) ∨ b = 0xad := by
  have small : (Char.ofUInt8 b).toNat < 0x100 := toNat_ofUInt8 b ▸ b.toNat_lt
  rw [isUnprintable_iff_of_lt small, toNat_ofUInt8, UInt8.lt_iff_toNat_lt, UInt8.le_iff_toNat_le,
    UInt8.le_iff_toNat_le, ← UInt8.toNat_inj]
  rfl

/-- A byte is quoted as the character that it is the code point of. -/
theorem quoted_ofUInt8 (b : UInt8) : quoted (Char.ofUInt8 b) = quotedByte b := by
  unfold quoted escaped
  split
  -- The characters with a short escape, each of which is one byte.
  iterate 6
    rename_i same
    obtain rfl := eq_ofNat_of_ofUInt8_eq same
    rfl
  -- None of those: what is left is told by whether the character shows.
  rename_i zero tab cr lf quote backslash
  have other {a : UInt8} {c : Char} (ne : Char.ofUInt8 b = c → False)
      (value : Char.ofUInt8 a = c) : b ≠ a := by
    rintro rfl
    exact ne value
  rw [quotedByte, if_neg (other zero rfl), if_neg (other tab rfl), if_neg (other lf rfl),
    if_neg (other cr rfl), if_neg (other quote rfl), if_neg (other backslash rfl)]
  simp only [isUnprintable_ofUInt8, hexCode, toNat_ofUInt8]
  split
  · have opens : "'\\u\x7b" = "'" ++ "\\u\x7b" := rfl
    have closes : "\x7d'" = "\x7d" ++ "'" := rfl
    rw [opens, closes]
    simp only [String.append_assoc]
  · rfl

end ScanExpr.Text
