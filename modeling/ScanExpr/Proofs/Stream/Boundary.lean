import ScanExpr.Proofs.Stream.Primitive
import ScanExpr.Stream.Cursor

/-!
# `ScanExpr.Proofs.Stream.Boundary`: a cursor between two characters

`c.Precedes rest` says that the cursor `c` stands between two characters
of the text, or at one of its ends, and that `rest` is what comes after
it. There the bytes of the text fall into the encodings of its characters:

* `Source.slice_eq_ofList`: the slice between two such places holds the
  characters between them;
* `Cursor.reads_precedes`: the cursor can peek at the first character of
  `rest` and step over it, so every primitive sees the characters left and
  nothing else.
-/

set_option autoImplicit false

namespace ScanExpr

/-- The number of bytes that characters take. -/
def byteLength (cs : List Char) : Nat :=
  (String.ofList cs).utf8ByteSize

/-- The empty list takes no bytes. -/
theorem byteLength_nil : byteLength [] = 0 := rfl

/-- Two lists take the bytes of both. -/
theorem byteLength_append (cs ds : List Char) :
    byteLength (cs ++ ds) = byteLength cs + byteLength ds := by
  rw [byteLength, String.ofList_append, String.utf8ByteSize_append]
  rfl

/-- A character takes as many bytes as its encoding has. -/
theorem byteLength_singleton (c : Char) : byteLength [c] = c.utf8Size := by
  rw [byteLength, ← String.singleton_eq_ofList, String.utf8ByteSize_singleton]

/-- A list takes the bytes of its first character and of the others. -/
theorem byteLength_cons (c : Char) (cs : List Char) :
    byteLength (c :: cs) = c.utf8Size + byteLength cs := by
  rw [← List.singleton_append, byteLength_append, byteLength_singleton]

/-- The characters of a text take as many bytes as the text. -/
theorem byteLength_toList (text : String) : byteLength text.toList = text.utf8ByteSize := by
  rw [byteLength, String.ofList_toList]

/-- What is taken of a list and what is dropped take the bytes of the list. -/
theorem byteLength_take_add_drop (cs : List Char) (k : Nat) :
    byteLength (cs.take k) + byteLength (cs.drop k) = byteLength cs := by
  rw [← byteLength_append, List.take_append_drop]

/-- The encoding of a list of characters has as many bytes as the characters
take. -/
theorem size_utf8Encode (cs : List Char) : cs.utf8Encode.size = byteLength cs := by
  rw [← String.toByteArray_ofList]
  rfl

/-- Decoding what was encoded gives the characters back. -/
theorem fromUTF8?_utf8Encode (cs : List Char) :
    String.fromUTF8? cs.utf8Encode = some (String.ofList cs) := by
  rw [String.fromUTF8?, dif_pos ByteArray.isValidUTF8_utf8Encode, Option.some.injEq,
    ← String.toByteArray_inj, String.toByteArray_ofList]
  rfl

/-! ### The bytes of a text -/

namespace Source

variable {src : Source}

/-- The offset is that of a place between two characters, or of an end of
the text. -/
def IsBoundary (src : Source) (offset : UInt32) : Prop :=
  ∃ before after, src.text.toList = before ++ after ∧ offset.toNat = byteLength before

/-- The buffer has the encoding of the text in front. -/
theorem exists_bytes_eq (src : Source) :
    ∃ padding, src.bytes = src.text.toList.utf8Encode ++ padding := by
  rw [src.bytes_eq, paddedBytes, String.utf8Encode_toList]
  exact ⟨_, rfl⟩

/-- The bytes between two places between characters encode the characters
there. -/
theorem extract_bytes {before middle after : List Char}
    (text : src.text.toList = before ++ (middle ++ after)) :
    src.bytes.extract (byteLength before) (byteLength before + byteLength middle)
      = middle.utf8Encode := by
  obtain ⟨padding, bytes⟩ := src.exists_bytes_eq
  rw [bytes, text, List.utf8Encode_append, List.utf8Encode_append, ByteArray.append_assoc,
    ByteArray.append_assoc]
  calc
    _ = (middle.utf8Encode ++ (after.utf8Encode ++ padding)).extract 0 (byteLength middle) :=
      ByteArray.extract_append_size_add' (i := 0) (size_utf8Encode before).symm
    _ = middle.utf8Encode := ByteArray.extract_append_eq_left (size_utf8Encode middle).symm

/-- Each byte of a character in the text is a byte of its encoding. -/
theorem getElem_bytes_add {before after : List Char} {x : Char} {k : Nat}
    (text : src.text.toList = before ++ x :: after)
    (inside : k < (String.utf8EncodeChar x).length)
    (within : byteLength before + k < src.bytes.size) :
    src.bytes[byteLength before + k] = (String.utf8EncodeChar x)[k] := by
  have bytes : src.bytes.extract (byteLength before) (byteLength before + byteLength [x])
      = (String.utf8EncodeChar x).toByteArray := by
    rw [← List.utf8Encode_singleton]
    exact extract_bytes text
  have held : k < (String.utf8EncodeChar x).toByteArray.size := by
    rw [List.size_toByteArray]
    exact inside
  -- The byte is looked up in the buffer, and the character is known as a part of the buffer.
  rw [← List.getElem_toByteArray (h := held)]
  simp only [← bytes, ByteArray.getElem_extract]

/-- The slice between two places between characters holds the characters
there. -/
theorem slice_eq_ofList {before middle after : List Char} {start stop : UInt32}
    (text : src.text.toList = before ++ (middle ++ after))
    (start_eq : start.toNat = byteLength before)
    (stop_eq : stop.toNat = byteLength before + byteLength middle) :
    src.slice start stop = String.ofList middle := by
  have total : src.length.toNat = byteLength before + byteLength middle + byteLength after := by
    rw [toNat_length, ← byteLength_toList, text, byteLength_append, byteLength_append,
      Nat.add_assoc]
  -- Both offsets lie within the text and in the right order.
  have within : ¬ (src.length < stop ∨ stop < start) := by
    rw [UInt32.lt_iff_toNat_lt, UInt32.lt_iff_toNat_lt]
    omega
  rw [slice, if_neg within, start_eq, stop_eq, extract_bytes text, fromUTF8?_utf8Encode]
  rfl

end Source

/-! ### The first byte of a character -/

/-- The first byte of a character. -/
def leadByte (x : Char) : UInt8 :=
  (String.utf8EncodeChar x).head String.utf8EncodeChar_ne_nil

/-- The lead byte of a character is the first byte of its encoding. -/
theorem leadByte_of_encode {x : Char} {b : UInt8} {rest : List UInt8}
    (encoded : String.utf8EncodeChar x = b :: rest) : leadByte x = b := by
  simp only [leadByte, encoded, List.head_cons]

/-- A character that takes one byte is that byte. -/
theorem leadByte_of_utf8Size_eq_one {x : Char} (one : x.utf8Size = 1) :
    leadByte x < 0x80 ∧ Char.ofUInt8 (leadByte x) = x := by
  have small : x.val.toNat ≤ 127 := UInt32.le_iff_toNat_le.1 (Char.utf8Size_eq_one_iff.1 one)
  have value : x.val.toUInt8.toNat = x.val.toNat := by
    rw [UInt32.toNat_toUInt8]
    omega
  rw [leadByte_of_encode (String.utf8EncodeChar_eq_singleton one)]
  constructor
  · rw [UInt8.lt_iff_toNat_lt, value]
    exact Nat.lt_succ_of_le small
  · apply Char.ext
    show x.val.toUInt8.toUInt32 = x.val
    rw [← UInt32.toNat_inj, UInt8.toNat_toUInt32, value]

/-- The high bits of a byte that starts several tell how many they are. -/
theorem leadWidth_of_high_bits (b : UInt8) :
    (Cursor.leadWidth (b &&& 0x1f ||| 0xc0) = 2 ∧ ¬ (b &&& 0x1f ||| 0xc0) < 0x80) ∧
    (Cursor.leadWidth (b &&& 0x0f ||| 0xe0) = 3 ∧ ¬ (b &&& 0x0f ||| 0xe0) < 0x80) ∧
    (Cursor.leadWidth (b &&& 0x07 ||| 0xf0) = 4 ∧ ¬ (b &&& 0x07 ||| 0xf0) < 0x80) := by
  -- There are only 256 bytes to try.
  have all : ∀ n : Fin 256,
      (Cursor.leadWidth (.ofFin n &&& 0x1f ||| 0xc0) = 2 ∧
        ¬ (.ofFin n &&& 0x1f ||| 0xc0) < (0x80 : UInt8)) ∧
      (Cursor.leadWidth (.ofFin n &&& 0x0f ||| 0xe0) = 3 ∧
        ¬ (.ofFin n &&& 0x0f ||| 0xe0) < (0x80 : UInt8)) ∧
      (Cursor.leadWidth (.ofFin n &&& 0x07 ||| 0xf0) = 4 ∧
        ¬ (.ofFin n &&& 0x07 ||| 0xf0) < (0x80 : UInt8)) := by
    decide +kernel
  exact all b.toFin

/-- The first byte of a character that takes more than one tells how many
it takes. -/
theorem leadWidth_leadByte {x : Char} (several : x.utf8Size ≠ 1) :
    Cursor.leadWidth (leadByte x) = UInt32.ofNat x.utf8Size ∧ ¬ leadByte x < 0x80 := by
  -- One case for each width, and a pattern of high bits for each case but the first.
  rcases x.utf8Size_eq with size | size | size | size
  · exact absurd size several
  · rw [leadByte_of_encode (String.utf8EncodeChar_eq_cons_cons size), size]
    exact (leadWidth_of_high_bits _).1
  · rw [leadByte_of_encode (String.utf8EncodeChar_eq_cons_cons_cons size), size]
    exact (leadWidth_of_high_bits _).2.1
  · rw [leadByte_of_encode (String.utf8EncodeChar_eq_cons_cons_cons_cons size), size]
    exact (leadWidth_of_high_bits _).2.2

/-! ### A cursor between two characters -/

namespace Cursor

variable {src : Source} {c d : Cursor src} {rest : List Char}

/-- The cursor stands between two characters or at an end of the text, and
`rest` is what comes after it. -/
def Precedes (c : Cursor src) (rest : List Char) : Prop :=
  ∃ before, src.text.toList = before ++ rest ∧ c.pos.toNat = byteLength before

/-- What comes after a cursor tells where it stands. -/
theorem Precedes.pos_add (h : c.Precedes rest) :
    c.pos.toNat + byteLength rest = src.length.toNat := by
  obtain ⟨before, text, pos⟩ := h
  rw [pos, ← byteLength_append, ← text, byteLength_toList, Source.toNat_length]

/-- A cursor behind the first `count` characters has moved by their
bytes. -/
theorem Precedes.pos_of_drop {count : Nat} (hc : c.Precedes rest)
    (hd : d.Precedes (rest.drop count)) :
    d.pos.toNat = c.pos.toNat + byteLength (rest.take count) := by
  have total := hc.pos_add.trans hd.pos_add.symm
  have split := byteLength_take_add_drop rest count
  omega

/-- There is one place only with these characters behind it. -/
theorem Precedes.unique (hc : c.Precedes rest) (hd : d.Precedes rest) : c = d := by
  -- The position is the length of the text less what is left.
  have pos : c.pos.toNat = d.pos.toNat := by
    have := hc.pos_add
    have := hd.pos_add
    omega
  exact eq_of_toNat_pos pos

/-- The cursor is at the end if nothing comes after it. -/
theorem Precedes.atEnd_eq (h : c.Precedes rest) : c.atEnd = rest.isEmpty := by
  have sum := h.pos_add
  cases rest with
  | nil => exact atEnd_eq_true_iff.2 sum
  | cons x rest =>
    rw [byteLength_cons] at sum
    have := x.utf8Size_pos
    exact atEnd_eq_false_iff.2 (by omega)

/-- The slice from one place between characters to another. -/
theorem Precedes.slice_eq {middle : List Char} (hc : c.Precedes (middle ++ rest))
    (hd : d.Precedes rest) : src.slice c.pos d.pos = String.ofList middle := by
  have sumc := hc.pos_add
  have sumd := hd.pos_add
  obtain ⟨before, text, pos⟩ := hc
  rw [byteLength_append] at sumc
  exact Source.slice_eq_ofList text pos (by omega)

/-- There is no text between a place and itself. -/
theorem Precedes.slice_self (stands : c.Precedes rest) : src.slice c.pos c.pos = "" :=
  have begins : c.Precedes ([] ++ rest) := stands
  begins.slice_eq stands

/-- At the end of the text there is nothing to peek at. -/
theorem peek_of_atEnd (ended : c.atEnd = true) : c.peek = none := by
  rw [peek, ended]
  rfl

/-- A cursor with nothing after it has nothing to peek at. -/
theorem Precedes.peek_nil (h : c.Precedes []) : c.peek = none :=
  peek_of_atEnd h.atEnd_eq

/-- The byte under the cursor is the first of the character there. -/
theorem Precedes.byte_eq {x : Char} (h : c.Precedes (x :: rest)) : c.byte = leadByte x := by
  obtain ⟨before, text, pos⟩ := h
  have nonempty : 0 < (String.utf8EncodeChar x).length :=
    List.length_pos_iff.2 String.utf8EncodeChar_ne_nil
  have within : byteLength before + 0 < src.bytes.size := pos ▸ c.pos_lt_size
  calc
    c.byte = src.bytes[byteLength before + 0] := by simp only [byte, pos, Nat.add_zero]
    _ = (String.utf8EncodeChar x)[0] := Source.getElem_bytes_add text nonempty within
    _ = leadByte x := by rw [leadByte, List.head_eq_getElem]

/-- Stepping over the character under the cursor leaves the others. -/
theorem Precedes.step {x : Char} (h : c.Precedes (x :: rest)) : (c.step x).Precedes rest := by
  have sum := h.pos_add
  rw [byteLength_cons] at sum
  have moved := toNat_pos_step_of_le (c := c) (x := x) (by omega)
  obtain ⟨before, text, pos⟩ := h
  refine ⟨before ++ [x], ?_, ?_⟩
  · rw [text, List.append_assoc, List.singleton_append]
  · rw [moved, pos, byteLength_append, byteLength_singleton]

/-- The character under the cursor is the first of those that come
after it. -/
theorem Precedes.peek_cons {x : Char} (h : c.Precedes (x :: rest)) : c.peek = some x := by
  have inside : c.atEnd = false := h.atEnd_eq
  rw [peek, inside, h.byte_eq]
  by_cases one : x.utf8Size = 1
  · have ⟨ascii, decoded⟩ := leadByte_of_utf8Size_eq_one one
    rw [if_pos ascii, decoded]
    rfl
  · have ⟨width, several⟩ := leadWidth_leadByte one
    -- As many bytes are announced as the character takes, so it is the whole slice.
    have slice : src.slice c.pos (c.step x).pos = String.ofList [x] := h.slice_eq h.step
    rw [if_neg several, width]
    show (if false = true then none else (src.slice c.pos (c.step x).pos).toList.head?) = _
    rw [slice, String.toList_ofList]
    rfl

/-- Where a cursor stands tells what comes after it. -/
theorem Precedes.rest_unique {others : List Char} (h : c.Precedes rest)
    (h' : c.Precedes others) : rest = others := by
  induction rest generalizing c others with
  | nil =>
    have ended : others.isEmpty = true := h'.atEnd_eq.symm.trans h.atEnd_eq
    exact (List.isEmpty_iff.1 ended).symm
  | cons x rest ih =>
    cases others with
    | nil => cases h.peek_cons.symm.trans h'.peek_nil
    | cons y others =>
      obtain rfl : x = y := Option.some.inj (h.peek_cons.symm.trans h'.peek_cons)
      rw [ih h.step h'.step]

/-- A cursor between two characters reads the characters after it. -/
theorem reads_precedes : Reads (Precedes : Cursor src → List Char → Prop) where
  peek := by
    intro c rest h
    cases rest with
    | nil => exact h.peek_nil
    | cons x rest => exact h.peek_cons
  step := Precedes.step
  atEnd := Precedes.atEnd_eq

/-! ### From one place to another -/

/-- The cursors stand between characters, and from the first one gets to the
second by reading on. -/
def Onward (c d : Cursor src) : Prop :=
  ∃ passed left, c.Precedes (passed ++ left) ∧ d.Precedes left

namespace Onward

variable {e : Cursor src}

/-- A cursor between two characters leads on to itself. -/
theorem refl {rest : List Char} (stands : c.Precedes rest) : c.Onward c :=
  ⟨[], rest, stands, stands⟩

/-- Reading on twice is reading on. -/
theorem trans (first : c.Onward d) (second : d.Onward e) : c.Onward e := by
  obtain ⟨passed, left, begins, middle⟩ := first
  obtain ⟨passed', left', middle', ends⟩ := second
  -- The middle place has only one continuation, so the two readings meet there.
  obtain rfl := middle.rest_unique middle'
  refine ⟨passed ++ passed', left', ?_, ends⟩
  rw [List.append_assoc]
  exact begins

/-- What can be reached can be reached from itself. -/
theorem self (h : c.Onward d) : d.Onward d := by
  obtain ⟨_, _, _, ends⟩ := h
  exact refl ends

/-- Reading on never leads back. -/
theorem pos_le (h : c.Onward d) : c.pos ≤ d.pos := by
  obtain ⟨passed, left, begins, ends⟩ := h
  have sum := begins.pos_add
  have sum' := ends.pos_add
  rw [byteLength_append] at sum
  rw [UInt32.le_iff_toNat_le]
  omega

/-- The text up to a place and the text on from there are the whole. -/
theorem slice_append (first : c.Onward d) (second : d.Onward e) :
    src.slice c.pos d.pos ++ src.slice d.pos e.pos = src.slice c.pos e.pos := by
  obtain ⟨passed, left, begins, middle⟩ := first
  obtain ⟨passed', left', middle', ends⟩ := second
  obtain rfl := middle.rest_unique middle'
  have whole := begins
  rw [← List.append_assoc] at whole
  rw [begins.slice_eq middle, middle'.slice_eq ends, whole.slice_eq ends, String.ofList_append]

/-- Reading on leads to a boundary. -/
theorem isBoundary (h : c.Onward d) : src.IsBoundary d.pos := by
  obtain ⟨_, left, _, before, text, pos⟩ := h
  exact ⟨before, left, text, pos⟩

/-- From a boundary one gets to every later one. -/
theorem of_isBoundary (begins : src.IsBoundary c.pos) (ends : src.IsBoundary d.pos)
    (le : c.pos ≤ d.pos) : c.Onward d := by
  obtain ⟨before, left, text, pos⟩ := begins
  obtain ⟨before', left', text', pos'⟩ := ends
  rw [UInt32.le_iff_toNat_le, pos, pos'] at le
  rcases List.append_eq_append_iff.1 (text.symm.trans text') with
    ⟨passed, rfl, rfl⟩ | ⟨passed, rfl, rfl⟩
  · exact ⟨passed, left', ⟨before, text, pos⟩, ⟨before ++ passed, text', pos'⟩⟩
  · -- What is left over behind the second place takes no bytes, so it is nothing.
    cases passed with
    | nil => exact ⟨[], left, ⟨before' ++ [], text, pos⟩, ⟨before', text', pos'⟩⟩
    | cons x passed =>
      rw [byteLength_append, byteLength_cons] at le
      have := x.utf8Size_pos
      omega

end Onward

end Cursor

end ScanExpr
