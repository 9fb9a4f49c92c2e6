import ScanExpr.Script.Answer
import ScanExpr.Stream.Position
import ScanExpr.Stream.Primitive

/-!
# `ScanExpr.Script.StreamOp`: steps on a stream

A `StreamOp` is a step that any stream can take, a `CursorOp` one that
only a cursor can. Both may name the marks that were taken before; a name
that stands for no mark is passed over.
-/

set_option autoImplicit false

namespace ScanExpr

/-- Marks by name, the last one taken first. -/
abbrev Marks (μ : Type) := List (String × μ)

/-- A step on a stream. -/
inductive StreamOp where
  | peek
  /-- Steps over a character, if it is the next one. -/
  | step (c : Char)
  | mark (name : String)
  | rewind (name : String)
  | primitive (p : Primitive)
  /-- Would apply a primitive, had its class been built. -/
  | faulty (cause : RangeError)

/-- Takes a step on a stream. -/
def StreamOp.run {σ μ : Type} [CharStream σ μ] [Positioned σ μ] (marks : Marks μ) (s : σ) :
    StreamOp → Answer × Marks μ × σ
  | .peek =>
    match CharStream.peek s with
    | some c => (.number c.toNat, marks, s)
    | none => (.nothing, marks, s)
  | .step c =>
    if CharStream.peek s = some c then (.nothing, marks, CharStream.step s c)
    else (.nothing, marks, s)
  | .mark name => (.position (position s), (name, Rewindable.mark s) :: marks, s)
  | .rewind name =>
    match marks.lookup name with
    | some m => (.nothing, marks, Rewindable.rewind s m)
    | none => (.nothing, marks, s)
  | .primitive p =>
    let (matched, t) := p.apply s
    (.flag matched, marks, t)
  | .faulty cause => (.fault cause, marks, s)

/-- A step on a cursor. -/
inductive CursorOp where
  | byte
  | stepByte
  | advance
  | peek
  | atEnd
  | sourceLength
  | unread
  | slice (start stop : UInt32)
  | readFrom (start : UInt32)
  | readSince (name : String)
  | display
  | displayMark (name : String)
  /-- Compares a mark to the position of the cursor. -/
  | compareMark (name : String)
  /-- Returns to a mark that was taken of another source. -/
  | rewindToOffset (offset : UInt32)

/-- Takes a step on a cursor. -/
def CursorOp.run {src : Source} (marks : Marks Cursor.Mark) (c : Cursor src) :
    CursorOp → Answer × Cursor src
  | .byte => (.number c.byte.toNat, c)
  | .stepByte => (.nothing, c.stepByte)
  | .advance => (.nothing, c.advance)
  | .peek =>
    match c.peek with
    | some x => (.number x.toNat, c)
    | none => (.nothing, c)
  | .atEnd => (.flag c.atEnd, c)
  | .sourceLength => (.number src.length.toNat, c)
  | .unread => (.text c.unread, c)
  | .slice start stop => (.text (src.slice start stop), c)
  | .readFrom start => (.text (c.readFrom start), c)
  | .readSince name =>
    match marks.lookup name with
    | some m => (.text (c.readSince m), c)
    | none => (.nothing, c)
  | .display => (.text (dump c), c)
  | .displayMark name => (.text (dump (marks.lookup name)), c)
  | .compareMark name =>
    match marks.lookup name with
    | some m => (.order (compare m c.mark), c)
    | none => (.nothing, c)
  | .rewindToOffset offset => (.nothing, c.rewind ⟨offset⟩)

end ScanExpr
