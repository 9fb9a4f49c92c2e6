import ScanExpr.Stream.Primitive

/-!
# `ScanExpr.Stream.Routine`: operands written as programs on a stream

A `Routine` is an operand that looks at a stream, moves over it and
returns to marks of its own before it says whether it matched. Being a
program and not a function on one type of stream, it can be run on any.

* `Routine.literal`: matches a text character by character.
* `Routine.take`: consumes characters and gives a fixed verdict.
-/

set_option autoImplicit false

namespace ScanExpr

/-- A program on a stream that ends in a verdict. -/
inductive Routine where
  | finish (matched : Bool)
  | peek (next : Option Char → Routine)
  | advance (next : Routine)
  | mark (next : Routine)
  /-- Returns to a mark; the one taken last has the index zero. -/
  | rewind (index : Nat) (next : Routine)
  | primitive (p : Primitive) (next : Bool → Routine)

namespace Routine

variable {σ μ : Type} [CharStream σ μ]

/-- The verdict of a routine that has taken the given marks, the last one
first, and the stream after it. -/
def run (marks : List μ) (s : σ) : Routine → Bool × σ
  | .finish matched => (matched, s)
  | .peek next => (next (CharStream.peek s)).run marks s
  | .advance next =>
    match CharStream.peek s with
    | some c => next.run marks (CharStream.step s c)
    | none => next.run marks s
  | .mark next => next.run (Rewindable.mark s :: marks) s
  | .rewind index next =>
    match marks[index]? with
    | some m => next.run marks (Rewindable.rewind s m)
    | none => next.run marks s
  | .primitive p next =>
    let (matched, t) := p.apply s
    (next matched).run marks t

/-- Matches the characters one after another and returns to the mark taken
last if one of them is missing. -/
def literalOrRewind : List Char → Routine
  | [] => .finish true
  | c :: rest => .primitive (.matching c .one) fun matched =>
    if matched then literalOrRewind rest else .rewind 0 (.finish false)

/-- Matches a text, or consumes nothing. -/
def literal (text : String) : Routine :=
  .mark (literalOrRewind text.toList)

/-- Consumes up to `count` characters and gives the verdict `matched`
whatever they were. -/
def take (matched : Bool) : Nat → Routine
  | 0 => .finish matched
  | count + 1 => .peek fun
    | some _ => .advance (take matched count)
    | none => .finish matched

end Routine

end ScanExpr
