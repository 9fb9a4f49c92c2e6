import ScanExpr.Text.Dump

/-!
# `ScanExpr.Text.Source`: text laid out for reading by bytes

A `Source` is a text together with a buffer of its UTF-8 bytes. Zeros
follow the text up to a whole number of blocks, at least one of them, so
the byte at the end of the text can be read like any other. The end is
told by the length and not by that zero, since a text may contain zeros.

* `Source.ofString`: the source of a text. Offsets have 32 bits, so a
  longer text is cut after the last character that fits.
* `Source.slice`: the text between two offsets.
-/

set_option autoImplicit false

namespace ScanExpr

/-- Buffers have a whole number of blocks of this many bytes. -/
def blockSize : Nat := 64

/-- The size of the buffer for a text of `n` bytes: the least whole number
of blocks that has room for one more byte. -/
def paddedSize (n : Nat) : Nat :=
  (n / blockSize + 1) * blockSize

/-- The bytes of a text, followed by zeros up to the size of the buffer. -/
def paddedBytes (text : String) : ByteArray :=
  let bytes := text.toByteArray
  bytes ++ ⟨Array.replicate (paddedSize bytes.size - bytes.size) 0⟩

/-- A text with its padded bytes. -/
structure Source where
  text : String
  fits : text.utf8ByteSize < UInt32.size
  /-- The buffer in which it lies. -/
  bytes : ByteArray := paddedBytes text
  bytes_eq : bytes = paddedBytes text := by rfl

namespace Source

/-- The longest part of the text, from its start, that takes at most
`limit` bytes. -/
def fitting (limit : Nat) : List Char → List Char
  | [] => []
  | c :: rest =>
    if c.utf8Size ≤ limit then c :: fitting (limit - c.utf8Size) rest else []

/-- What is kept of a list takes no more bytes than the limit. -/
theorem utf8ByteSize_ofList_fitting {limit : Nat} {cs : List Char} :
    (String.ofList (fitting limit cs)).utf8ByteSize ≤ limit := by
  induction cs generalizing limit with
  | nil => simp [fitting]
  | cons c rest ih =>
    rw [fitting]
    split
    · rename_i le
      -- The first character has used up its part of the limit.
      have := @ih (limit - c.utf8Size)
      rw [String.ofList_cons, String.utf8ByteSize_append, String.utf8ByteSize_singleton]
      omega
    · simp

/-- The source of a text, or of as much of it as offsets can reach. -/
def ofString (text : String) : Source :=
  if fits : text.utf8ByteSize < UInt32.size then { text, fits }
  else
    { text := String.ofList (fitting (UInt32.size - 1) text.toList)
      fits := Nat.lt_of_le_of_lt utf8ByteSize_ofList_fitting (by decide) }

/-- The length of the text in bytes. -/
def length (src : Source) : UInt32 :=
  UInt32.ofNat src.text.utf8ByteSize

/-- Whether there is no text at all. -/
def isEmpty (src : Source) : Bool :=
  src.length == 0

/-- The length does not wrap around, since the text fits. -/
theorem toNat_length (src : Source) : src.length.toNat = src.text.utf8ByteSize :=
  UInt32.toNat_ofNat_of_lt' src.fits

/-- The zeros fill the buffer up to its last block. -/
theorem size_bytes (src : Source) : src.bytes.size = paddedSize src.text.utf8ByteSize := by
  have lt : src.text.utf8ByteSize < paddedSize src.text.utf8ByteSize := by
    unfold paddedSize blockSize
    omega
  rw [src.bytes_eq, paddedBytes, ByteArray.size_append]
  simp only [ByteArray.size, Array.size_replicate]
  exact Nat.add_sub_of_le (Nat.le_of_lt lt)

/-- There is a byte at the end of the text. -/
theorem length_lt_size (src : Source) : src.length.toNat < src.bytes.size := by
  rw [size_bytes, toNat_length]
  unfold paddedSize blockSize
  omega

/-- The bytes of the text, without the padding. -/
def content (src : Source) : ByteArray :=
  src.bytes.extract 0 src.length.toNat

/-- The text between two offsets. It is empty if the offsets are in the
wrong order, lie past the end, or do not both stand between characters. -/
def slice (src : Source) (start stop : UInt32) : String :=
  if src.length < stop ∨ stop < start then ""
  else (String.fromUTF8? (src.bytes.extract start.toNat stop.toNat)).getD ""

instance : Dump Source where
  dump src := Text.record "SourceBuffer"
    [("bytes", dump src.bytes.toList), ("len", dump src.length)]

end Source

end ScanExpr
