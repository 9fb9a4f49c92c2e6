import ScanExpr.Stream.Basic
import ScanExpr.Text.Source

/-!
# `ScanExpr.Stream.Cursor`: reading a source byte position by byte position

A `Cursor src` is an offset into the source `src`. The primitives move it
a whole character at a time; `stepByte` moves it by a byte and may leave
it inside a character, where nothing can be read but the end has not been
reached either. A cursor is at the end exactly when its position is the
length of the text.

* `Cursor.peek`, `Cursor.advance`: the character under the cursor, and the
  step over it.
* `Cursor.Mark`: the position of a cursor, to return to later.
* `Cursor.add_utf8Size_le`: a character that can be read lies within the
  text, so the sum of a position and a width does not wrap around.
-/

set_option autoImplicit false

namespace ScanExpr

/-- A position in a source. -/
structure Cursor (src : Source) where
  /-- The offset in bytes from the start of the text. -/
  pos : UInt32
  pos_le : pos ≤ src.length
deriving DecidableEq

namespace Cursor

/-- The position of a cursor at some time. -/
structure Mark where
  pos : UInt32
deriving DecidableEq

instance : Ord Mark where
  compare m n := compare m.pos n.pos

instance : Dump Mark where
  dump m := Text.wrapped "CursorMark" (dump m.pos)

/-- How many bytes the character takes whose first byte is `lead`. A byte
that starts no character counts for one, so that a step is never empty. -/
def leadWidth (lead : UInt8) : UInt32 :=
  if 0xf0 ≤ lead ∧ lead ≤ 0xf7 then 4
  else if 0xe0 ≤ lead ∧ lead ≤ 0xef then 3
  else if 0xc0 ≤ lead ∧ lead ≤ 0xdf then 2
  else 1

variable {src : Source}

/-- The cursor at the start of a source. -/
def start (src : Source) : Cursor src :=
  ⟨0, UInt32.zero_le⟩

/-- The cursor at offset `p`, or at the end if `p` lies past it. -/
def clamped (src : Source) (p : UInt32) : Cursor src :=
  if h : p ≤ src.length then ⟨p, h⟩ else ⟨src.length, UInt32.le_refl _⟩

/-- Whether all of the text has been read. -/
def atEnd (c : Cursor src) : Bool :=
  src.length ≤ c.pos

/-- There is a byte under the cursor, also at the end of the text. -/
theorem pos_lt_size (c : Cursor src) : c.pos.toNat < src.bytes.size :=
  Nat.lt_of_le_of_lt (UInt32.le_iff_toNat_le.1 c.pos_le) src.length_lt_size

/-- The byte under the cursor; zero at the end. -/
def byte (c : Cursor src) : UInt8 :=
  have inside := c.pos_lt_size
  src.bytes[c.pos.toNat]

/-- Moves by one byte, but not past the end. -/
def stepByte (c : Cursor src) : Cursor src :=
  if c.atEnd then c else clamped src (c.pos + 1)

/-- Moves by as many bytes as the byte under the cursor announces, but not
past the end. -/
def advance (c : Cursor src) : Cursor src :=
  if c.atEnd then c else clamped src (c.pos + leadWidth c.byte)

/-- Moves over `count` characters, or to the end if there are fewer. -/
def advanceBy (c : Cursor src) : Nat → Cursor src
  | 0 => c
  | count + 1 => if c.atEnd then c else c.advance.advanceBy count

/-- Moves by as many bytes as `x` takes, but not past the end. -/
def step (c : Cursor src) (x : Char) : Cursor src :=
  clamped src (c.pos + UInt32.ofNat x.utf8Size)

/-- The character under the cursor. There is none at the end, and none
inside a character. -/
def peek (c : Cursor src) : Option Char :=
  if c.atEnd then none
  else if c.byte < 0x80 then some (Char.ofUInt8 c.byte)
  else (src.slice c.pos (clamped src (c.pos + leadWidth c.byte)).pos).toList.head?

/-- The mark of the cursor's position. -/
def mark (c : Cursor src) : Mark :=
  ⟨c.pos⟩

/-- The cursor at a marked position. -/
def rewind (_ : Cursor src) (m : Mark) : Cursor src :=
  clamped src m.pos

/-- The text from an offset up to the cursor, empty if the cursor stands
before it. -/
def readFrom (c : Cursor src) (start : UInt32) : String :=
  src.slice start c.pos

/-- The text read since the mark was taken, empty if the cursor has moved
back behind it. -/
def readSince (c : Cursor src) (m : Mark) : String :=
  c.readFrom m.pos

/-- The text that is left to read. -/
def unread (c : Cursor src) : String :=
  src.slice c.pos src.length

/-! ### Where a step leads -/

/-- A cursor is put at any offset that lies within the text. -/
theorem clamped_of_le {p : UInt32} (h : p ≤ src.length) : clamped src p = ⟨p, h⟩ := by
  rw [clamped, dif_pos h]

/-- A cursor that is put where it stands stays there. -/
@[simp]
theorem clamped_pos (c : Cursor src) : clamped src c.pos = c :=
  clamped_of_le c.pos_le

/-- A cursor is told by the number of its position. -/
theorem eq_of_toNat_pos {c d : Cursor src} (same : c.pos.toNat = d.pos.toNat) : c = d := by
  cases c
  cases d
  cases UInt32.toNat_inj.1 same
  rfl

/-- Marks with the same number are equal. -/
theorem Mark.eq_of_toNat_pos {m n : Mark} (same : m.pos.toNat = n.pos.toNat) : m = n :=
  congrArg Mark.mk (UInt32.toNat_inj.1 same)

/-- The cursor is not at the end if some of the text lies behind its position. -/
theorem atEnd_eq_false_iff {c : Cursor src} :
    c.atEnd = false ↔ c.pos.toNat < src.length.toNat := by
  rw [atEnd, decide_eq_false_iff_not, UInt32.not_le, UInt32.lt_iff_toNat_lt]

/-- The cursor is at the end if its position is the length of the text. -/
theorem atEnd_eq_true_iff {c : Cursor src} :
    c.atEnd = true ↔ c.pos.toNat = src.length.toNat := by
  have within := UInt32.le_iff_toNat_le.1 c.pos_le
  rw [atEnd, decide_eq_true_iff, UInt32.le_iff_toNat_le]
  omega

/-- A byte below 128 is the encoding of a character by itself. -/
theorem utf8Size_ofUInt8 {b : UInt8} (h : b < 0x80) : (Char.ofUInt8 b).utf8Size = 1 := by
  have small : b.toNat < 128 := UInt8.lt_iff_toNat_lt.1 h
  rw [Char.utf8Size_eq_one_iff, UInt32.le_iff_toNat_le]
  show b.toUInt32.toNat ≤ 127
  rw [UInt8.toNat_toUInt32]
  omega

/-- The first character of a slice that is not empty takes no more bytes
than there are between the two offsets. -/
theorem add_utf8Size_le_of_head_slice {start stop : UInt32} {x : Char}
    (h : (src.slice start stop).toList.head? = some x) :
    start.toNat + x.utf8Size ≤ stop.toNat ∧ stop ≤ src.length := by
  unfold Source.slice at h
  split at h
  · simp at h
  · rename_i inside
    simp only [not_or, UInt32.not_lt] at inside
    have ordered := UInt32.le_iff_toNat_le.1 inside.2
    refine ⟨?_, inside.1⟩
    unfold String.fromUTF8? at h
    split at h
    · rename_i valid
      rw [Option.getD_some] at h
      have size : (String.fromUTF8 _ valid).utf8ByteSize ≤ stop.toNat - start.toNat := by
        show (src.bytes.extract _ _).size ≤ _
        rw [ByteArray.size_extract]
        omega
      cases chars : (String.fromUTF8 _ valid).toList with
      | nil => rw [chars] at h; simp at h
      | cons y rest =>
        rw [chars, List.head?_cons, Option.some.injEq] at h
        subst h
        rw [← String.ofList_toList (s := String.fromUTF8 _ valid), chars, String.ofList_cons,
          String.utf8ByteSize_append, String.utf8ByteSize_singleton] at size
        have := y.utf8Size_pos
        omega
    · simp at h

/-- A character that can be read lies within the text. -/
theorem add_utf8Size_le {c : Cursor src} {x : Char} (h : c.peek = some x) :
    c.pos.toNat + x.utf8Size ≤ src.length.toNat := by
  unfold peek at h
  split at h
  · simp at h
  · rename_i inside
    have lt := atEnd_eq_false_iff.1 (Bool.eq_false_iff.2 inside)
    -- The character is a byte by itself or the first one of a slice.
    split at h
    · rename_i ascii
      rw [Option.some.injEq] at h
      subst h
      rw [utf8Size_ofUInt8 ascii]
      omega
    · have ⟨le, within⟩ := add_utf8Size_le_of_head_slice h
      have := UInt32.le_iff_toNat_le.1 within
      omega

/-- A sum of offsets that lies within the text neither wraps around nor is
cut short. -/
theorem toNat_pos_clamped_add {p width : UInt32}
    (within : p.toNat + width.toNat ≤ src.length.toNat) :
    (clamped src (p + width)).pos.toNat = p.toNat + width.toNat := by
  -- The sum is bounded by a length, so it is a number of 32 bits.
  have sum : (p + width).toNat = p.toNat + width.toNat := by
    rw [UInt32.toNat_add]
    exact Nat.mod_eq_of_lt (Nat.lt_of_le_of_lt within src.length.toNat_lt)
  rw [clamped_of_le (UInt32.le_iff_toNat_le.2 (sum ▸ within)), sum]

/-- The number of bytes of a character is small enough to be an offset. -/
theorem toNat_utf8Size (x : Char) : (UInt32.ofNat x.utf8Size).toNat = x.utf8Size :=
  UInt32.toNat_ofNat_of_lt' (Nat.lt_of_le_of_lt x.utf8Size_le_four (by decide))

/-- A step that stays within the text moves the position by the number of
bytes stepped over. -/
theorem toNat_pos_step_of_le {c : Cursor src} {x : Char}
    (within : c.pos.toNat + x.utf8Size ≤ src.length.toNat) :
    (c.step x).pos.toNat = c.pos.toNat + x.utf8Size := by
  rw [← toNat_utf8Size x] at within
  rw [step, toNat_pos_clamped_add within, toNat_utf8Size]

/-- Stepping over a character that can be read moves the position by the
number of its bytes. -/
theorem toNat_pos_step {c : Cursor src} {x : Char} (h : c.peek = some x) :
    (c.step x).pos.toNat = c.pos.toNat + x.utf8Size :=
  toNat_pos_step_of_le (add_utf8Size_le h)

/-! ### The cursor as a stream -/

/-- The end of the text is told by the position: inside a character there
is nothing to peek at, yet the cursor is not at the end. -/
instance : CharStream (Cursor src) Mark where
  mark := mark
  rewind := rewind
  peek := peek
  step := step
  atEnd := atEnd
  remaining c := src.length.toNat - c.pos.toNat
  remaining_step := by
    intro c x h
    rw [toNat_pos_step h]
    have within := add_utf8Size_le h
    have := x.utf8Size_pos
    omega

instance : LawfulRewindable (Cursor src) where
  rewind_mark _ c := clamped_pos c

/-- A cursor shows the buffer it reads. -/
instance : Dump (Cursor src) where
  dump c := Text.record "Cursor"
    [("bytes", dump src.bytes.toList), ("pos", dump c.pos), ("source_len", dump src.length)]

end Cursor

end ScanExpr
