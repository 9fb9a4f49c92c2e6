import ScanExpr.Stream.Basic
import ScanExpr.Text.Dump

/-!
# `ScanExpr.Stream.Tape`: reading an array of characters

A `Tape text` is an index into an array of characters. Its positions
count characters, whatever their encoding, and it has no notion of its
end but that nothing is left to peek at.
-/

set_option autoImplicit false

namespace ScanExpr

/-- A position in an array of characters. -/
structure Tape (text : Array Char) where
  /-- The number of characters before the position. -/
  pos : Nat
  pos_le : pos ≤ text.size
deriving DecidableEq

namespace Tape

variable {text : Array Char}

/-- The tape at position `p`, or at the end if `p` lies past it. -/
def clamped (text : Array Char) (p : Nat) : Tape text :=
  ⟨min p text.size, Nat.min_le_right _ _⟩

/-- The character at the position. -/
def peek (t : Tape text) : Option Char :=
  text[t.pos]?

/-- Moves by one character, but not past the end. -/
def step (t : Tape text) : Tape text :=
  clamped text (t.pos + 1)

/-- Where there is a character the tape has not ended. -/
theorem pos_lt_of_peek {t : Tape text} {c : Char} (h : t.peek = some c) : t.pos < text.size :=
  (Array.getElem?_eq_some_iff.1 h).1

/-- A step over a character moves the position by one. -/
theorem pos_step {t : Tape text} {c : Char} (h : t.peek = some c) : t.step.pos = t.pos + 1 :=
  Nat.min_eq_left (pos_lt_of_peek h)

instance : CharStream (Tape text) Nat where
  mark t := t.pos
  rewind _ p := clamped text p
  peek := peek
  step t _ := t.step
  remaining t := text.size - t.pos
  remaining_step := by
    intro t c h
    rw [pos_step h]
    have := pos_lt_of_peek h
    omega

instance : LawfulRewindable (Tape text) where
  rewind_mark _ t := by
    cases t with
    | mk pos pos_le =>
      show clamped text pos = _
      simp only [clamped, Nat.min_eq_left pos_le]

instance : Dump (Tape text) where
  dump t := Text.record "Tape" [("text", dump text.toList), ("pos", dump t.pos)]

end Tape

end ScanExpr
