import ScanExpr.Proofs.Stream.Boundary

/-!
# `ScanExpr.Proofs.Stream.Slice`: the text between two offsets

A slice cuts bytes out of the buffer and gives them back if they are UTF-8.
It never asks where the characters of the text begin, and it need not: bytes
cut out of a valid text are valid exactly if neither cut goes through a
character, or if nothing was cut out (`String.Pos.Raw.isValidUTF8_extract_iff`).

* `Source.exists_spans_iff`: which offsets have a part of the text between
  them.
* `Source.slice_of_spans`, `Source.slice_eq_empty`: the slice is that part,
  and it is empty where there is none.
* `Source.slice_spans_or_empty`: the two together, and how slices join.
-/

set_option autoImplicit false

namespace ScanExpr

namespace Source

variable {src : Source} {start stop : UInt32} {middle : List Char}

/-- The part of the text from byte `start` to byte `stop` is `middle`. -/
def Spans (src : Source) (start stop : UInt32) (middle : List Char) : Prop :=
  ∃ before after, src.text.toList = before ++ (middle ++ after) ∧
    start.toNat = byteLength before ∧ stop.toNat = byteLength before + byteLength middle

/-! ### Boundaries -/

/-- The text begins at a boundary. -/
theorem isBoundary_zero (src : Source) : src.IsBoundary 0 :=
  ⟨[], src.text.toList, rfl, rfl⟩

/-- The text ends at a boundary. -/
theorem isBoundary_length (src : Source) : src.IsBoundary src.length := by
  refine ⟨src.text.toList, [], (List.append_nil _).symm, ?_⟩
  rw [toNat_length, byteLength_toList]

/-- There is no boundary past the end. -/
theorem IsBoundary.le_length (h : src.IsBoundary start) : start ≤ src.length := by
  obtain ⟨before, after, text, pos⟩ := h
  rw [UInt32.le_iff_toNat_le, toNat_length, ← byteLength_toList, text, byteLength_append, pos]
  exact Nat.le_add_right _ _

/-- The boundaries are the valid positions of the text. -/
theorem isBoundary_iff_isValid :
    src.IsBoundary start ↔ String.Pos.Raw.IsValid src.text ⟨start.toNat⟩ := by
  rw [String.Pos.Raw.isValid_iff_exists_append]
  constructor
  · rintro ⟨before, after, text, pos⟩
    refine ⟨.ofList before, .ofList after, ?_, congrArg String.Pos.Raw.mk pos⟩
    rw [← String.ofList_append, ← text, String.ofList_toList]
  · rintro ⟨before, after, text, pos⟩
    refine ⟨before.toList, after.toList, ?_, ?_⟩
    · rw [text, String.toList_append]
    · rw [byteLength_toList]
      exact congrArg String.Pos.Raw.byteIdx pos

instance (src : Source) (offset : UInt32) : Decidable (src.IsBoundary offset) :=
  decidable_of_iff _ isBoundary_iff_isValid.symm

/-- A part of the text lies between two offsets exactly if they are
boundaries in the right order. -/
theorem exists_spans_iff :
    (∃ middle, src.Spans start stop middle)
      ↔ start ≤ stop ∧ stop ≤ src.length ∧ src.IsBoundary start ∧ src.IsBoundary stop := by
  constructor
  · rintro ⟨middle, before, after, text, start_eq, stop_eq⟩
    have begins : src.IsBoundary start := ⟨before, middle ++ after, text, start_eq⟩
    have ends : src.IsBoundary stop := by
      refine ⟨before ++ middle, after, ?_, ?_⟩
      · rw [text, List.append_assoc]
      · rw [stop_eq, byteLength_append]
    have le : start ≤ stop := by
      rw [UInt32.le_iff_toNat_le]
      omega
    exact ⟨le, ends.le_length, begins, ends⟩
  · rintro ⟨le, within, begins, ends⟩
    let c : Cursor src := ⟨start, begins.le_length⟩
    let d : Cursor src := ⟨stop, within⟩
    have onward : c.Onward d := .of_isBoundary begins ends le
    obtain ⟨middle, after, from_start, from_stop⟩ := onward
    have sum := from_start.pos_add
    have sum' := from_stop.pos_add
    rw [byteLength_append] at sum
    obtain ⟨before, text, pos⟩ := from_start
    have start_eq : start.toNat = byteLength before := pos
    have stop_eq : stop.toNat = byteLength before + byteLength middle := by
      have : c.pos.toNat = start.toNat := rfl
      have : d.pos.toNat = stop.toNat := rfl
      omega
    exact ⟨middle, before, after, text, start_eq, stop_eq⟩

/-! ### Slices -/

/-- The slice between two offsets is the part of the text between them. -/
theorem slice_of_spans (h : src.Spans start stop middle) :
    src.slice start stop = String.ofList middle := by
  obtain ⟨before, after, text, start_eq, stop_eq⟩ := h
  exact slice_eq_ofList text start_eq stop_eq

/-- Within the text the bytes of the buffer are those of the text. -/
theorem extract_bytes_of_le (within : stop ≤ src.length) :
    src.bytes.extract start.toNat stop.toNat
      = src.text.toByteArray.extract start.toNat stop.toNat := by
  have fits : stop.toNat ≤ src.text.toByteArray.size := by
    rw [UInt32.le_iff_toNat_le, toNat_length] at within
    exact within
  rw [src.bytes_eq, paddedBytes, ByteArray.extract_append, Nat.sub_eq_zero_of_le fits]
  -- Nothing is taken of the padding.
  refine Eq.trans (congrArg _ (ByteArray.extract_eq_empty_iff.2 ?_)) ByteArray.append_empty
  rw [Nat.zero_min]
  exact Nat.zero_le _

/-- The slice is empty where the cuts are in the wrong order, lie past the
end or go through a character. -/
theorem slice_eq_empty
    (h : ¬(start ≤ stop ∧ stop ≤ src.length ∧ src.IsBoundary start ∧ src.IsBoundary stop)) :
    src.slice start stop = "" := by
  by_cases outside : src.length < stop ∨ stop < start
  · rw [slice, if_pos outside]
  · rw [slice, if_neg outside]
    obtain ⟨within, ordered⟩ := not_or.1 outside
    rw [UInt32.not_lt] at within ordered
    rw [extract_bytes_of_le within]
    -- Bytes that are valid were cut at characters, or none were cut out.
    by_cases valid : (src.text.toByteArray.extract start.toNat stop.toNat).IsValidUTF8
    · have fits : stop.toNat ≤ src.text.utf8ByteSize := by
        rw [← toNat_length]
        exact UInt32.le_iff_toNat_le.1 within
      rcases (String.Pos.Raw.isValidUTF8_extract_iff ⟨start.toNat⟩ ⟨stop.toNat⟩
          (UInt32.le_iff_toNat_le.1 ordered) fits).1 valid with same | ⟨begins, ends⟩
      · -- Nothing was cut out, and nothing is valid.
        have same : start.toNat = stop.toNat := congrArg String.Pos.Raw.byteIdx same
        rw [same, ByteArray.extract_eq_empty_iff.2 (Nat.min_le_left _ _)]
        rfl
      · exact absurd
          ⟨ordered, within, isBoundary_iff_isValid.2 begins, isBoundary_iff_isValid.2 ends⟩ h
    · rw [String.fromUTF8?, dif_neg valid]
      rfl

/-- At boundaries the slices up to an offset and from there on are the whole
slice. -/
theorem slice_append_slice {offset : UInt32} (begins : src.IsBoundary start)
    (between : src.IsBoundary offset) (ends : src.IsBoundary stop) (le : start ≤ offset)
    (le' : offset ≤ stop) :
    src.slice start offset ++ src.slice offset stop = src.slice start stop := by
  let c : Cursor src := ⟨start, begins.le_length⟩
  let d : Cursor src := ⟨offset, between.le_length⟩
  let e : Cursor src := ⟨stop, ends.le_length⟩
  have first : c.Onward d := .of_isBoundary begins between le
  have second : d.Onward e := .of_isBoundary between ends le'
  exact first.slice_append second

/-- The slice from one end to the other is the text. -/
theorem slice_whole (src : Source) : src.slice 0 src.length = src.text := by
  have whole : src.Spans 0 src.length src.text.toList := by
    refine ⟨[], [], (List.append_nil _).symm, rfl, ?_⟩
    rw [toNat_length, byteLength_toList, byteLength_nil, Nat.zero_add]
  rw [slice_of_spans whole, String.ofList_toList]

/-- Whatever the offsets, a slice of a source is exact:

* there is a part of the text between two offsets exactly if they are in
  order, lie within the text and stand at boundaries, and the slice is that
  part;
* between any other offsets the slice is empty;
* the slices between boundaries join;
* what comes before a mark, what was read since the mark and what is left to
  read are together the text, if the mark and the cursor stand at
  boundaries and the mark does not come after the cursor. -/
theorem slice_spans_or_empty (src : Source) :
    (∀ start stop, (∃ middle, src.Spans start stop middle)
      ↔ start ≤ stop ∧ stop ≤ src.length ∧ src.IsBoundary start ∧ src.IsBoundary stop) ∧
    (∀ start stop middle, src.Spans start stop middle →
      src.slice start stop = String.ofList middle) ∧
    (∀ start stop, (¬∃ middle, src.Spans start stop middle) → src.slice start stop = "") ∧
    (∀ a b c, src.IsBoundary a → src.IsBoundary b → src.IsBoundary c → a ≤ b → b ≤ c →
      src.slice a b ++ src.slice b c = src.slice a c) ∧
    ∀ (c : Cursor src) (m : Cursor.Mark), src.IsBoundary m.pos → src.IsBoundary c.pos →
      m.pos ≤ c.pos → src.slice 0 m.pos ++ c.readSince m ++ c.unread = src.text := by
  refine ⟨fun _ _ => exists_spans_iff, fun _ _ _ => slice_of_spans, ?_, ?_, ?_⟩
  · intro start stop nothing
    rw [exists_spans_iff] at nothing
    exact slice_eq_empty nothing
  · intro a b c begins between ends
    exact slice_append_slice begins between ends
  · intro c m marked stands le
    have ends := src.isBoundary_length
    rw [Cursor.readSince, Cursor.readFrom, Cursor.unread,
      slice_append_slice src.isBoundary_zero marked stands UInt32.zero_le le,
      slice_append_slice src.isBoundary_zero stands ends UInt32.zero_le c.pos_le, slice_whole]

/-- Between the bytes 1 and 6 there are two characters, of two and of three
bytes. A cut at 2 or at 4 goes through one of them, and 8 lies in the
padding. -/
theorem slice_spans_or_empty_accents :
    let src : Source := .ofString (.ofList ['a', 'é', '€', 'b'])
    src.Spans 1 6 ['é', '€'] ∧ src.slice 1 6 = String.ofList ['é', '€'] ∧
    src.slice 2 6 = "" ∧ src.slice 1 4 = "" ∧ src.slice 6 1 = "" ∧ src.slice 6 8 = "" ∧
    src.slice 1 3 ++ src.slice 3 6 = src.slice 1 6 ∧
    ∃ (c : Cursor src) (m : Cursor.Mark), m.pos = 1 ∧ c.pos = 3 ∧ src.IsBoundary m.pos ∧
      src.IsBoundary c.pos ∧ src.slice 0 m.pos ++ c.readSince m ++ c.unread = src.text := by
  intro src
  have ⟨parts, between, elsewhere, join, whole⟩ := slice_spans_or_empty src
  have spans : src.Spans 1 6 ['é', '€'] :=
    ⟨['a'], ['b'], String.toList_ofList, by decide +kernel, by decide +kernel⟩
  have nothing : ∀ start stop, ¬(start ≤ stop ∧ stop ≤ src.length ∧ src.IsBoundary start ∧
      src.IsBoundary stop) → src.slice start stop = "" :=
    fun start stop cut => elsewhere start stop (mt (parts start stop).1 cut)
  let c : Cursor src := ⟨3, by decide +kernel⟩
  refine ⟨spans, between 1 6 _ spans, nothing 2 6 ?_, nothing 1 4 ?_, nothing 6 1 ?_,
    nothing 6 8 ?_, join 1 3 6 ?_ ?_ ?_ ?_ ?_, c, ⟨1⟩, rfl, rfl, ?_, ?_, whole c ⟨1⟩ ?_ ?_ ?_⟩
  all_goals decide +kernel

end Source

end ScanExpr
