import Mathlib.Order.Bounds.Defs
import ScanExpr.Text.Source

/-!
# `ScanExpr.Proofs.Text.Source`: what a source holds

A source holds a text, or the part of it in front that its offsets can
reach, and its buffer holds the bytes of that text and zeros.

* `Source.text_ofString`, `Source.text_ofString_longest`: the text that is
  held, which is the whole text if that fits and else the longest part of
  it in front that does.
* `Source.fullText`: a text that leaves no room for another byte.
* `Source.toList_bytes`, `isLeast_paddedSize`: the bytes of the buffer, and
  how many there are.
-/

set_option autoImplicit false

namespace ScanExpr

namespace Source

/-! ### The text -/

/-- A text that is not too long is held as it is. -/
theorem text_ofString {text : String} (fits : text.utf8ByteSize < UInt32.size) :
    (ofString text).text = text := by
  rw [ofString, dif_pos fits]

/-- What is kept of a list is its front. -/
theorem fitting_isPrefix (limit : Nat) (cs : List Char) : fitting limit cs <+: cs := by
  induction cs generalizing limit with
  | nil => exact List.nil_prefix
  | cons c cs ih =>
    rw [fitting]
    split
    · exact (List.prefix_cons_inj c).2 (ih (limit - c.utf8Size))
    · exact List.nil_prefix

/-- Whatever front of a list takes no more bytes than the limit is kept. -/
theorem isPrefix_fitting {limit : Nat} {before cs : List Char} (front : before <+: cs)
    (small : (String.ofList before).utf8ByteSize ≤ limit) : before <+: fitting limit cs := by
  -- Along the list, and with it along the front, which loses the same character.
  induction cs generalizing limit before with
  | nil => exact front
  | cons c cs ih =>
    cases before with
    | nil => exact List.nil_prefix
    | cons b before =>
      obtain ⟨rfl, others⟩ := List.cons_prefix_cons.1 front
      rw [String.ofList_cons, String.utf8ByteSize_append, String.utf8ByteSize_singleton] at small
      have first : b.utf8Size ≤ limit := by omega
      rw [fitting, if_pos first]
      -- Behind the first character the limit is lower by its bytes, and so is what is taken.
      exact (List.prefix_cons_inj b).2 (ih others (by omega))

/-- A source holds the longest front of its text that its offsets can
reach: no other front that they reach has more to it. -/
theorem text_ofString_longest (text : String) :
    (ofString text).text.toList <+: text.toList ∧
      ∀ before, before <+: text.toList → (String.ofList before).utf8ByteSize < UInt32.size →
        before <+: (ofString text).text.toList := by
  by_cases fits : text.utf8ByteSize < UInt32.size
  · rw [text_ofString fits]
    exact ⟨List.prefix_rfl, fun _ front _ => front⟩
  · rw [ofString, dif_neg fits, String.toList_ofList]
    exact ⟨fitting_isPrefix _ _, fun _ front small => isPrefix_fitting front (Nat.le_pred_of_lt small)⟩

/-- Of a text that begins with as many bytes as offsets can count nothing
else is held. -/
theorem text_ofString_append {u : String} (full : u.utf8ByteSize = UInt32.size - 1)
    (v : String) : (ofString (u ++ v)).text = u := by
  obtain ⟨-, longest⟩ := text_ofString_longest (u ++ v)
  have bound := (ofString (u ++ v)).fits
  generalize (ofString (u ++ v)).text = held at longest bound
  obtain ⟨more, held_eq⟩ : u.toList <+: held.toList := by
    apply longest
    · rw [String.toList_append]
      exact List.prefix_append _ _
    · rw [String.ofList_toList, full]
      decide
  have held_eq : held = u ++ String.ofList more := by
    rw [← String.toList_inj, ← held_eq, String.toList_append, String.toList_ofList]
  -- What is held behind `u` takes no bytes.
  have nothing : (String.ofList more).utf8ByteSize = 0 := by
    rw [held_eq, String.utf8ByteSize_append, full] at bound
    omega
  rw [held_eq, String.utf8ByteSize_eq_zero_iff.1 nothing, String.append_empty]

/-- A text with as many characters of one byte as offsets can count. It is
far too long to be looked at, so all that is used of it is its length. -/
@[irreducible]
def fullText : String :=
  String.ofList (List.replicate (UInt32.size - 1) 'a')

/-- A text of `n` times the letter `a` takes `n` bytes. -/
theorem utf8ByteSize_ofList_replicate (n : Nat) :
    (String.ofList (List.replicate n 'a')).utf8ByteSize = n := by
  induction n with
  | zero => rfl
  | succ n ih =>
    rw [List.replicate_succ, String.ofList_cons, String.utf8ByteSize_append,
      String.utf8ByteSize_singleton, ih]
    exact Nat.add_comm 1 n

/-- The text ends at the last offset that there is. -/
theorem utf8ByteSize_fullText : fullText.utf8ByteSize = UInt32.size - 1 := by
  unfold fullText
  exact utf8ByteSize_ofList_replicate _

/-! ### The buffer -/

/-- The buffer holds the bytes of the text and then zeros. -/
theorem toList_bytes (src : Source) :
    src.bytes.data.toList = src.text.toUTF8.data.toList
      ++ List.replicate (src.bytes.size - src.text.utf8ByteSize) 0 := by
  rw [size_bytes, src.bytes_eq, paddedBytes, ByteArray.data_append, Array.toList_append,
    Array.toList_replicate]
  rfl

/-- The byte at the end of the text is zero. -/
theorem getElem_bytes_length (src : Source) (within : src.length.toNat < src.bytes.size) :
    src.bytes[src.length.toNat] = 0 := by
  have size : src.bytes.data.toList.length = src.bytes.size := Array.length_toList
  have text : src.text.toUTF8.data.toList.length = src.length.toNat := by
    rw [toNat_length]
    rfl
  -- The offset lies behind the bytes of the text, where the list has its zeros.
  have within' : src.length.toNat < src.bytes.data.toList.length := size ▸ within
  calc
    src.bytes[src.length.toNat] = src.bytes.data.toList[src.length.toNat] := rfl
    _ = 0 := by
      simp only [src.toList_bytes]
      rw [List.getElem_append_right (Nat.le_of_eq text), List.getElem_replicate]

end Source

/-- No smaller number of whole blocks has room for one more byte. -/
theorem isLeast_paddedSize (n : Nat) : IsLeast {m | 64 ∣ m ∧ n < m} (paddedSize n) := by
  unfold paddedSize blockSize
  constructor
  · have room : n < (n / 64 + 1) * 64 := by omega
    exact ⟨Nat.dvd_mul_left 64 (n / 64 + 1), room⟩
  · rintro _ ⟨⟨blocks, rfl⟩, room⟩
    omega

end ScanExpr
