import Mathlib.Logic.Function.Iterate
import ScanExpr.Proofs.Stream.Consumed
import ScanExpr.Proofs.Stream.Decoding
import ScanExpr.Proofs.Stream.Slice

/-!
# `ScanExpr.Proofs.Stream.Stranded`: the end of the text, and places short of it

That there is nothing more to read can be told in several ways: by the
position, by the primitive for the end, by what can be peeked at and by the
text that is left. They are computed differently and agree at boundaries
(`Cursor.Precedes.ended_iff`). Inside a character nothing can be read
either, and yet it is not the end.

A cursor there is stranded, but not for long. No primitive moves it, and
each matches only if it can match nothing (`Primitive.apply_of_peek_none`).
To advance is to move by one byte, and with the last byte of the character
the cursor comes to a boundary (`Cursor.Inside.advance_iterate`).

`Cursor.boundary_or_stranded` puts this together for a cursor anywhere in a
text, however it came there. From all of these places advancing leads to the
end in the long run, and past no boundary.
-/

set_option autoImplicit false

namespace ScanExpr

/-! ### Primitives where nothing can be read -/

/-- The shapes that match where there is nothing to consume. -/
theorem Shape.isSome_taken?_zero_iff (shape : Shape) :
    (shape.taken? 0).isSome = true
      ↔ shape = .zeroOrOne ∨ shape = .zeroOrMore ∨ ∃ high, shape = .between 0 high := by
  cases shape with
  | one | zeroOrOne | zeroOrMore | oneOrMore => simp [taken?]
  | between low high => cases low <;> simp [taken?]

section

variable {σ μ : Type} [CharStream σ μ] {s : σ}

/-- A run stops where nothing can be read. -/
theorem consumeRun_of_peek_none (nothing : CharStream.peek s = none) (accept : Char → Bool)
    (max count : Nat) : consumeRun accept max count s = (count, s) := by
  rw [Reads.consumeRun_eq, nothing]
  exact ite_self _

/-- Where nothing can be read, a primitive that consumes characters finds a
run of none, and stays. -/
theorem Primitive.apply_of_peek_none [LawfulRewindable σ] (nothing : CharStream.peek s = none)
    (accept : Char → Bool) (shape : Shape) :
    (Primitive.consume accept shape).apply s = ((shape.taken? 0).isSome, s) := by
  cases shape with
  | one | zeroOrOne =>
    rw [apply, consumeOne, nothing]
    rfl
  | zeroOrMore | oneOrMore =>
    rw [apply, consumeRun_of_peek_none nothing]
    rfl
  | between low high =>
    rw [apply, consumeBetween, consumeRun_of_peek_none nothing, Shape.taken?]
    by_cases crossed : high ≠ 0 ∧ high < low
    · rw [if_pos crossed, if_pos crossed]
      rfl
    · rw [if_neg crossed, if_neg crossed]
      cases low with
      | zero => simp
      | succ low => simp [LawfulRewindable.rewind_mark]

end

namespace Cursor

variable {src : Source} {c d : Cursor src} {x : Char} {k n : Nat} {rest after : List Char}

/-! ### At a boundary -/

/-- A cursor at a boundary stands in front of some of the characters. -/
theorem isBoundary_pos_iff : src.IsBoundary c.pos ↔ ∃ rest, c.Precedes rest := by
  constructor
  · rintro ⟨before, rest, text, pos⟩
    exact ⟨rest, before, text, pos⟩
  · rintro ⟨rest, before, text, pos⟩
    exact ⟨before, rest, text, pos⟩

/-- What is left to read is what comes after the cursor. -/
theorem Precedes.unread_eq (stands : c.Precedes rest) : c.unread = String.ofList rest := by
  obtain ⟨before, text, pos⟩ := stands
  have spans : src.Spans c.pos src.length rest := by
    refine ⟨before, [], ?_, pos, ?_⟩
    · rw [List.append_nil, text]
    · rw [Source.toNat_length, ← byteLength_toList, text, byteLength_append]
  exact Source.slice_of_spans spans

/-- The end is told by the position. -/
theorem atEnd_eq_true_iff_pos : c.atEnd = true ↔ c.pos = src.length := by
  rw [atEnd_eq_true_iff, UInt32.toNat_inj]

/-- Between two characters, all that can tell the end agrees with the
position. -/
theorem Precedes.ended_iff (stands : c.Precedes rest) :
    (c.peek = none ↔ c.pos = src.length) ∧ (c.unread = "" ↔ c.pos = src.length) := by
  rw [← atEnd_eq_true_iff_pos, stands.atEnd_eq, stands.unread_eq]
  cases rest with
  | nil => exact ⟨iff_of_true stands.peek_nil rfl, iff_of_true rfl rfl⟩
  | cons x rest =>
    rw [stands.peek_cons]
    refine ⟨iff_of_false (Option.some_ne_none x) Bool.noConfusion, iff_of_false ?_ Bool.noConfusion⟩
    intro empty
    have chars := congrArg String.toList empty
    rw [String.toList_ofList] at chars
    cases chars

/-! ### Inside a character -/

/-- The first byte of a character starts one. -/
theorem isUTF8FirstByte_leadByte (x : Char) : (leadByte x).IsUTF8FirstByte := by
  rw [leadByte, List.head_eq_getElem]
  exact UInt8.isUTF8FirstByte_getElem_utf8EncodeChar.2 rfl

/-- A byte that is a character by itself is no byte inside one. -/
theorem isUTF8FirstByte_of_lt {b : UInt8} (ascii : b < 0x80) : b.IsUTF8FirstByte := by
  have all : ∀ n : Fin 256, .ofFin n < (0x80 : UInt8) → (UInt8.ofFin n).IsUTF8FirstByte := by
    decide +kernel
  exact all b.toFin ascii

namespace Inside

/-- Inside a character there is no boundary. -/
theorem not_isBoundary (inside : c.Inside x k after) : ¬ src.IsBoundary c.pos := by
  rw [isBoundary_pos_iff]
  rintro ⟨rest, stands⟩
  cases rest with
  | nil => cases stands.atEnd_eq.symm.trans inside.atEnd_eq_false
  | cons y rest =>
    -- Between characters there would be the first byte of one under the cursor.
    apply inside.not_first
    rw [stands.byte_eq]
    exact isUTF8FirstByte_leadByte y

/-- Inside a character nothing can be peeked at, since the slice is cut through
one. -/
theorem peek_eq_none (inside : c.Inside x k after) : c.peek = none := by
  have several : ¬ c.byte < 0x80 := fun ascii => inside.not_first (isUTF8FirstByte_of_lt ascii)
  rw [peek, inside.atEnd_eq_false, if_neg several,
    Source.slice_eq_empty fun h => inside.not_isBoundary h.2.2.1]
  rfl

/-- Inside a character no text is left, although it is not the end. -/
theorem unread_eq_empty (inside : c.Inside x k after) : c.unread = "" :=
  Source.slice_eq_empty fun h => inside.not_isBoundary h.2.2.1

/-- Inside a character an advance is a step of one byte. -/
theorem advance_eq_stepByte (inside : c.Inside x k after) : c.advance = c.stepByte := by
  rw [advance, stepByte, inside.leadWidth_byte]

/-- Inside a character an advance moves the position by one. -/
theorem toNat_pos_advance (inside : c.Inside x k after) :
    c.advance.pos.toNat = c.pos.toNat + 1 := by
  rw [Cursor.toNat_pos_advance inside.atEnd_eq_false, inside.leadWidth_byte]
  rfl

/-- A place `n` bytes further on is inside the same character, as long as
the character has more bytes, and then behind it. -/
theorem further (inside : c.Inside x k after) (pos : d.pos.toNat = c.pos.toNat + n) :
    (k + n < x.utf8Size → d.Inside x (k + n) after) ∧
    (k + n = x.utf8Size → d.Precedes after) := by
  obtain ⟨begun, unfinished, before, text, here⟩ := inside
  constructor
  · intro more
    exact ⟨Nat.add_pos_left begun n, more, before, text, by omega⟩
  · intro done
    refine ⟨before ++ [x], ?_, ?_⟩
    · rw [text, List.append_assoc, List.singleton_append]
    · rw [byteLength_append, byteLength_singleton]
      omega

/-- Up to the end of the character, each advance is one of a single byte. -/
theorem advance_iterate (inside : c.Inside x k after) (within : k + n ≤ x.utf8Size) :
    (advance^[n] c).pos.toNat = c.pos.toNat + n := by
  -- By the number of advances, with the cursor inside the same character before each.
  induction n with
  | zero => rfl
  | succ n ih =>
    have pos := ih (by omega)
    have still : (advance^[n] c).Inside x (k + n) after := (inside.further pos).1 (by omega)
    rw [Function.iterate_succ_apply', still.toNat_pos_advance, pos]
    rfl

/-- At most three bytes are left of the character, and behind them is the
next boundary. -/
theorem exists_boundary (inside : c.Inside x k after) :
    ∃ n, 0 < n ∧ n ≤ 3 ∧ src.IsBoundary (advance^[n] c).pos ∧
      ∀ i < n, (advance^[i] c).pos.toNat = c.pos.toNat + i ∧
        ¬ src.IsBoundary (advance^[i] c).pos := by
  have begun := inside.begun
  have unfinished := inside.unfinished
  have width := x.utf8Size_le_four
  refine ⟨x.utf8Size - k, by omega, by omega, ?_, fun i before => ?_⟩
  · have pos := inside.advance_iterate (n := x.utf8Size - k) (by omega)
    exact isBoundary_pos_iff.2 ⟨after, (inside.further pos).2 (by omega)⟩
  · have pos := inside.advance_iterate (n := i) (by omega)
    exact ⟨pos, ((inside.further pos).1 (by omega)).not_isBoundary⟩

end Inside

/-! ### Advancing from anywhere -/

/-- No boundary is passed over. -/
theorem pos_advance_le {offset : UInt32} (boundary : src.IsBoundary offset)
    (ahead : c.pos < offset) : c.advance.pos ≤ offset := by
  rcases c.precedes_or_inside with ⟨rest, stands⟩ | ⟨x, k, after, inside⟩
  · let d : Cursor src := ⟨offset, boundary.le_length⟩
    have onward : c.Onward d :=
      .of_isBoundary (isBoundary_pos_iff.2 ⟨rest, stands⟩) boundary (UInt32.le_of_lt ahead)
    obtain ⟨passed, left, begins, ends⟩ := onward
    cases passed with
    | nil =>
      have same : c = d := begins.unique ends
      rw [same] at ahead
      exact absurd ahead (UInt32.lt_irrefl offset)
    | cons y passed =>
      -- The cursor steps over the first of the characters before the boundary.
      rw [begins.advance_eq_step]
      have later : (c.step y).Onward d := ⟨passed, left, begins.step, ends⟩
      exact later.pos_le
  · rw [UInt32.le_iff_toNat_le, inside.toNat_pos_advance]
    exact UInt32.lt_iff_toNat_lt.1 ahead

/-- As many advances as there are bytes left lead to the end, wherever the
cursor stands. -/
theorem atEnd_advance_iterate (enough : src.length.toNat ≤ c.pos.toNat + n) :
    (advance^[n] c).atEnd = true := by
  -- By the number of bytes that may be left: each advance leaves fewer of them.
  induction n generalizing c with
  | zero =>
    have within := UInt32.le_iff_toNat_le.1 c.pos_le
    exact atEnd_eq_true_iff.2 (Nat.le_antisymm within enough)
  | succ n ih =>
    rw [Function.iterate_succ_apply]
    apply ih
    cases ended : c.atEnd with
    | true =>
      rw [advance, ended, ← atEnd_eq_true_iff.1 ended]
      exact Nat.le_add_right _ _
    | false =>
      have width := toNat_leadWidth_pos c.byte
      rw [toNat_pos_advance ended]
      omega

/-- Whatever the text and wherever in it a cursor stands:

* at a boundary the primitive for the end, the position, what can be peeked
  at and the text that is left all say the same of the end;
* inside a character there is nothing to peek at and no text left, but it is
  not the end; a primitive for members of a class, or for all others, leaves
  the cursor where it is and matches exactly if its shape asks for no
  character; to advance is to move by one byte, and after three bytes at
  most the cursor comes to the next boundary;
* to advance from anywhere passes over no boundary, and leads to the end if
  it is done often enough. -/
theorem boundary_or_stranded (c : Cursor src) :
    (src.IsBoundary c.pos →
      ((Primitive.atEnd.apply c).1 = true ↔ c.pos = src.length) ∧
      (c.atEnd = true ↔ c.pos = src.length) ∧ (c.peek = none ↔ c.pos = src.length) ∧
      (c.unread = "" ↔ c.pos = src.length)) ∧
    (¬ src.IsBoundary c.pos →
      c.peek = none ∧ c.unread = "" ∧ c.atEnd = false ∧ Primitive.atEnd.apply c = (false, c) ∧
      (∀ {κ : Type} [CharClass κ] (k : κ) (shape : Shape),
        ∀ p ∈ [Primitive.matching k shape, Primitive.excluding k shape],
          (p.apply c).2 = c ∧ ((p.apply c).1 = true
            ↔ shape = .zeroOrOne ∨ shape = .zeroOrMore ∨ ∃ high, shape = .between 0 high)) ∧
      c.advance = c.stepByte ∧ c.advance.pos.toNat = c.pos.toNat + 1 ∧
      ∃ n, 0 < n ∧ n ≤ 3 ∧ src.IsBoundary (advance^[n] c).pos ∧
        ∀ i < n, (advance^[i] c).pos.toNat = c.pos.toNat + i ∧
          ¬ src.IsBoundary (advance^[i] c).pos) ∧
    (∀ offset, src.IsBoundary offset → c.pos < offset → c.advance.pos ≤ offset) ∧
    ∃ n, (advance^[n] c).atEnd = true := by
  refine ⟨?_, ?_, fun offset boundary ahead => pos_advance_le boundary ahead,
    src.length.toNat - c.pos.toNat, atEnd_advance_iterate (by omega)⟩
  · intro boundary
    obtain ⟨rest, stands⟩ := isBoundary_pos_iff.1 boundary
    exact ⟨atEnd_eq_true_iff_pos, atEnd_eq_true_iff_pos, stands.ended_iff⟩
  · intro stranded
    rcases c.precedes_or_inside with ⟨rest, stands⟩ | ⟨x, k, after, inside⟩
    · exact absurd (isBoundary_pos_iff.2 ⟨rest, stands⟩) stranded
    have ended : Primitive.atEnd.apply c = (false, c) := congrArg (·, c) inside.atEnd_eq_false
    refine ⟨inside.peek_eq_none, inside.unread_eq_empty, inside.atEnd_eq_false, ended, ?_,
      inside.advance_eq_stepByte, inside.toNat_pos_advance, inside.exists_boundary⟩
    intro κ _ k shape p form
    -- A class enters only through what it accepts, so both kinds of primitive are alike here.
    have inert (accept : Char → Bool) :
        ((Primitive.consume accept shape).apply c).2 = c ∧
        (((Primitive.consume accept shape).apply c).1 = true
          ↔ shape = .zeroOrOne ∨ shape = .zeroOrMore ∨ ∃ high, shape = .between 0 high) := by
      rw [Primitive.apply_of_peek_none inside.peek_eq_none]
      exact ⟨rfl, shape.isSome_taken?_zero_iff⟩
    rcases List.mem_cons.1 form with rfl | others
    · exact inert _
    · obtain rfl := List.mem_singleton.1 others
      exact inert _

/-- Two bytes into the text the cursor is inside its second character, and
the boundary behind that is at offset 4. The mark 5 is the end. -/
theorem boundary_or_stranded_euro :
    let src : Source := .ofString (.ofList ['a', '€', 'b'])
    let c := (start src).stepByte.stepByte
    let e := (start src).rewind ⟨5⟩
    src.IsBoundary e.pos ∧ e.pos = src.length ∧ (Primitive.atEnd.apply e).1 = true ∧
    e.atEnd = true ∧ e.peek = none ∧ e.unread = "" ∧
    ¬ src.IsBoundary c.pos ∧ c.peek = none ∧ c.unread = "" ∧ c.atEnd = false ∧
    Primitive.atEnd.apply c = (false, c) ∧
    ((Primitive.excluding 'b' (.between 0 2)).apply c).1 = true ∧
    ((Primitive.excluding 'b' (.between 1 2)).apply c).1 ≠ true ∧
    c.advance = c.stepByte ∧ src.IsBoundary (advance^[2] c).pos ∧ c.pos < 4 ∧
    c.advance.pos ≤ 4 ∧ ∃ n, (advance^[n] c).atEnd = true := by
  intro src c e
  have ends : src.IsBoundary e.pos := by decide +kernel
  have inside : ¬ src.IsBoundary c.pos := by decide +kernel
  have length : e.pos = src.length := by decide +kernel
  have ⟨atEnd, position, peek, unread⟩ := (boundary_or_stranded e).1 ends
  have ⟨stranded, forward, onwards⟩ := (boundary_or_stranded c).2
  have ⟨nothing, empty, more, refused, inert, byByte, _⟩ := stranded inside
  have excluding (shape : Shape) :=
    (inert 'b' shape (.excluding 'b' shape) (List.mem_cons_of_mem _ (List.mem_singleton_self _))).2
  exact ⟨ends, length, atEnd.2 length, position.2 length, peek.2 length, unread.2 length, inside,
    nothing, empty, more, refused, (excluding (.between 0 2)).2 (.inr (.inr ⟨2, rfl⟩)),
    mt (excluding (.between 1 2)).1 (by simp), byByte, by decide +kernel, by decide +kernel,
    forward 4 (by decide +kernel) (by decide +kernel), onwards⟩

end Cursor

end ScanExpr
