import ScanExpr.CharClass.Basic
import ScanExpr.Text.Dump

/-!
# `ScanExpr.CharClass.ByteSet`: sets of bytes as bitmaps

A `ByteSet` keeps one bit for each of the 256 bytes, in four words of 64
bits. As a character class it holds the characters below U+0100 whose bit
is set, and none above.

Two sets are equal exactly if they have the same bits, so the order in
which a set was built cannot be told from the set. `members` lists the
bytes in ascending order, and the dump shows them as characters. What an
operation does to the members is said by `containsByte_insert` and its
like.
-/

set_option autoImplicit false

namespace ScanExpr

/-- A set of bytes, with a bit for each byte. -/
structure ByteSet where
  /-- The bits in words of 64, those of the smallest bytes first. -/
  words : Vector UInt64 4
deriving DecidableEq

namespace ByteSet

/-- The set without members. -/
def empty : ByteSet := ⟨.replicate 4 0⟩

instance : Inhabited ByteSet := ⟨empty⟩

instance : EmptyCollection ByteSet := ⟨empty⟩

/-! ### The bit of a byte -/

/-- To shift a byte by six bits is to divide it by the number of bits of a
word. -/
theorem toNat_shiftRight_six (b : UInt8) : (b >>> 6).toNat = b.toNat / 64 := by
  rw [UInt8.toNat_shiftRight]
  exact Nat.shiftRight_eq_div_pow b.toNat 6

/-- The word that holds the bit of the byte. -/
def wordOf (b : UInt8) : Fin 4 where
  val := (b >>> 6).toNat
  isLt := by
    have := b.toNat_lt
    rw [toNat_shiftRight_six]
    omega

/-- The bit of the byte in its word. -/
def bitOf (b : UInt8) : UInt64 :=
  1 <<< (b &&& 63).toUInt64

/-- The words take the bytes in rows of 64. -/
theorem val_wordOf (b : UInt8) : (wordOf b).val = b.toNat / 64 :=
  toNat_shiftRight_six b

/-- The mask of a byte has one bit, in the place that the byte has in its row. -/
theorem toBitVec_bitOf (b : UInt8) : (bitOf b).toBitVec = BitVec.twoPow 64 (b.toNat % 64) := by
  have place : (b &&& 63).toUInt64.toNat = b.toNat % 64 := by
    rw [UInt8.toNat_toUInt64, UInt8.toNat_and]
    exact Nat.and_two_pow_sub_one_eq_mod b.toNat 6
  -- The shift is by less than the width of a word, so the bit is not lost.
  have value : (bitOf b).toNat = 2 ^ (b.toNat % 64) % 2 ^ 64 := by
    rw [bitOf, UInt64.toNat_shiftLeft, place, Nat.mod_mod, Nat.shiftLeft_eq, UInt64.toNat_one,
      Nat.one_mul]
  exact BitVec.eq_of_toNat_eq (value.trans (BitVec.toNat_twoPow _ _).symm)

/-! ### Building sets -/

/-- The set with one more byte. -/
def insert (s : ByteSet) (b : UInt8) : ByteSet :=
  ⟨s.words.set (wordOf b) (s.words.get (wordOf b) ||| bitOf b)⟩

/-- A byte below another one can be counted up. -/
theorem toNat_add_one_of_lt {b hi : UInt8} (below : b < hi) : (b + 1).toNat = b.toNat + 1 := by
  have lt := UInt8.lt_iff_toNat_lt.1 below
  have small := hi.toNat_lt
  have fits : b.toNat + 1 < 2 ^ 8 := by omega
  rw [UInt8.toNat_add]
  exact Nat.mod_eq_of_lt fits

/-- Counting up does not lead past a byte that is larger. -/
theorem add_one_le_of_lt {b hi : UInt8} (below : b < hi) : b + 1 ≤ hi := by
  rw [UInt8.le_iff_toNat_le, toNat_add_one_of_lt below]
  exact UInt8.lt_iff_toNat_lt.1 below

/-- The set with the bytes from `b` to `hi` added one after the other. The
last one is not counted up any more: it may be the largest byte there is. -/
def insertFrom (s : ByteSet) (b hi : UInt8) (within : b ≤ hi) : ByteSet :=
  if last : b = hi then s.insert b
  else (s.insert b).insertFrom (b + 1) hi (add_one_le_of_lt (UInt8.lt_of_le_of_ne within last))
termination_by hi.toNat - b.toNat
decreasing_by
  have below := UInt8.lt_of_le_of_ne within last
  have lt := UInt8.lt_iff_toNat_lt.1 below
  rw [toNat_add_one_of_lt below]
  omega

/-- The set with the bytes from `lo` to `hi` added. -/
def insertRange (s : ByteSet) (lo hi : UInt8) : ByteSet :=
  if reversed : hi < lo then s else s.insertFrom lo hi (UInt8.not_lt.1 reversed)

/-- The set of the bytes of a list. -/
def ofBytes (bytes : List UInt8) : ByteSet :=
  bytes.foldl insert empty

/-- The set of the bytes from `lo` to `hi`. -/
def ofRange (lo hi : UInt8) : ByteSet :=
  empty.insertRange lo hi

/-- The members of either set. -/
def union (s t : ByteSet) : ByteSet :=
  ⟨s.words.zipWith (· ||| ·) t.words⟩

instance : Union ByteSet := ⟨union⟩

/-! ### Asking about members -/

/-- Whether the byte is a member. -/
def containsByte (s : ByteSet) (b : UInt8) : Bool :=
  s.words.get (wordOf b) &&& bitOf b != 0

/-- The number of members: the number of bits that are set. -/
def size (s : ByteSet) : Nat :=
  s.words.foldl (fun count word => count + word.toBitVec.cpop.toNat) 0

/-- Whether there is no member. -/
def isEmpty (s : ByteSet) : Bool :=
  s.words == .replicate 4 0

/-- A byte is a member if the bit in its place is set. -/
theorem containsByte_eq_getLsbD (s : ByteSet) (b : UInt8) :
    s.containsByte b = (s.words.get (wordOf b)).toBitVec.getLsbD (b.toNat % 64) := by
  have inside : b.toNat % 64 < 64 := Nat.mod_lt _ (by decide)
  have some_bit : BitVec.twoPow 64 (b.toNat % 64) ≠ 0 := by
    intro zero
    have value := congrArg BitVec.toNat zero
    rw [BitVec.toNat_twoPow_of_lt inside] at value
    exact absurd value (Nat.ne_of_gt (Nat.two_pow_pos _))
  -- The mask picks one bit, so what is left is zero exactly if this bit is.
  have masked : s.words.get (wordOf b) &&& bitOf b = 0 ↔
      (s.words.get (wordOf b)).toBitVec.getLsbD (b.toNat % 64) = false := by
    rw [← UInt64.toBitVec_inj, UInt64.toBitVec_and, toBitVec_bitOf, BitVec.and_twoPow]
    cases (s.words.get (wordOf b)).toBitVec.getLsbD (b.toNat % 64) with
    | true => exact iff_of_false some_bit Bool.noConfusion
    | false => exact iff_of_true rfl rfl
  rw [containsByte, Bool.eq_iff_iff, bne_iff_ne, ne_eq, masked, Bool.not_eq_false]

/-- The empty set has no member. -/
theorem containsByte_empty (b : UInt8) : empty.containsByte b = false := by
  have zero : empty.words.get (wordOf b) = 0 := Vector.getElem_replicate _
  rw [containsByte_eq_getLsbD, zero]
  exact BitVec.getLsbD_zero

/-- Inserting a byte makes it a member and leaves the other members as they
are. -/
theorem containsByte_insert (s : ByteSet) (a b : UInt8) :
    (s.insert a).containsByte b = (s.containsByte b || b == a) := by
  have word : (s.insert a).words.get (wordOf b)
      = if (wordOf a).val = wordOf b then s.words.get (wordOf a) ||| bitOf a
        else s.words.get (wordOf b) :=
    Vector.getElem_set (wordOf a).isLt (wordOf b).isLt
  -- A byte is told by its word and its place in the word.
  have told : (b == a)
      = (decide (wordOf a = wordOf b) && decide (a.toNat % 64 = b.toNat % 64)) := by
    rw [Bool.eq_iff_iff, beq_iff_eq, Bool.and_eq_true, decide_eq_true_iff, decide_eq_true_iff,
      ← UInt8.toNat_inj, Fin.ext_iff, val_wordOf, val_wordOf]
    omega
  rw [containsByte_eq_getLsbD, containsByte_eq_getLsbD, word, told]
  -- Only the word of the byte that is inserted is written to.
  by_cases same : wordOf a = wordOf b
  · have inside : a.toNat % 64 < 64 := Nat.mod_lt _ (by decide)
    rw [if_pos (congrArg _ same), UInt64.toBitVec_or, BitVec.getLsbD_or, toBitVec_bitOf,
      BitVec.getLsbD_twoPow, same, decide_eq_true inside, decide_eq_true rfl]
  · rw [if_neg fun h => same (Fin.ext h), decide_eq_false same, Bool.false_and, Bool.or_false]

/-- The members of a union are those of both sets. -/
theorem containsByte_union (s t : ByteSet) (b : UInt8) :
    (s.union t).containsByte b = (s.containsByte b || t.containsByte b) := by
  have word : (s.union t).words.get (wordOf b)
      = s.words.get (wordOf b) ||| t.words.get (wordOf b) :=
    Vector.getElem_zipWith _
  rw [containsByte_eq_getLsbD, containsByte_eq_getLsbD, containsByte_eq_getLsbD, word,
    UInt64.toBitVec_or, BitVec.getLsbD_or]

/-- The members in ascending order. -/
def members (s : ByteSet) : List UInt8 :=
  ((List.range 256).map UInt8.ofNat).filter s.containsByte

/-- A character belongs to the set if its code point is a byte of it. -/
instance : CharClass ByteSet where
  contains s c := c.toNat < 256 && s.containsByte c.toUInt8

/-- A set shows its members as the characters with these code points. -/
instance : Dump ByteSet where
  dump s := Text.braced (s.members.map fun b => dump (Char.ofUInt8 b))

/-! ### Ranges as lists -/

/-- The bytes from `lo` to `hi`, both included; none if `lo` is the
larger. -/
def byteRange (lo hi : UInt8) : List UInt8 :=
  (List.range' lo.toNat (hi.toNat + 1 - lo.toNat)).map UInt8.ofNat

/-- A range that runs backwards lists nothing. -/
theorem byteRange_of_lt {lo hi : UInt8} (reversed : hi < lo) : byteRange lo hi = [] := by
  have lt := UInt8.lt_iff_toNat_lt.1 reversed
  have none : hi.toNat + 1 - lo.toNat = 0 := by omega
  rw [byteRange, none]
  rfl

/-- A range from a byte to itself lists this byte. -/
theorem byteRange_self (b : UInt8) : byteRange b b = [b] := by
  have one : b.toNat + 1 - b.toNat = 1 := by omega
  rw [byteRange, one]
  exact congrArg (· :: []) UInt8.ofNat_toNat

/-- A range that goes on begins with its first byte. -/
theorem byteRange_cons {lo hi : UInt8} (below : lo < hi) :
    byteRange lo hi = lo :: byteRange (lo + 1) hi := by
  have lt := UInt8.lt_iff_toNat_lt.1 below
  have more : hi.toNat + 1 - lo.toNat = hi.toNat + 1 - (lo.toNat + 1) + 1 := by omega
  rw [byteRange, more, List.range'_succ, List.map_cons, UInt8.ofNat_toNat, byteRange,
    toNat_add_one_of_lt below]

/-- Counting from `b` to `hi` comes past every byte in between, and ends. -/
theorem insertFrom_eq (s : ByteSet) (b hi : UInt8) (within : b ≤ hi) :
    s.insertFrom b hi within = (byteRange b hi).foldl insert s := by
  fun_induction insertFrom s b hi within with
  | case1 s within =>
    rw [byteRange_self]
    rfl
  | case2 s b within others ih =>
    rw [ih, byteRange_cons (UInt8.lt_of_le_of_ne within others)]
    rfl

/-- To insert a range is to insert the bytes that it lists. One that runs
backwards lists none. -/
theorem insertRange_eq (s : ByteSet) (lo hi : UInt8) :
    s.insertRange lo hi = (byteRange lo hi).foldl insert s := by
  rw [insertRange]
  split
  · rename_i reversed
    rw [byteRange_of_lt reversed]
    rfl
  · exact s.insertFrom_eq lo hi _

end ByteSet

end ScanExpr
