import ScanExpr.CharClass.Basic
import ScanExpr.Stream.Basic

/-!
# `ScanExpr.Stream.Primitive`: consuming what a class accepts

A primitive either asks whether the stream is at its end or consumes
characters that a class accepts, as many as its `Shape` says. It reports
whether it matched and moves the stream only if it did. The optional
shapes always match, if need be on nothing.

* `Primitive.matching`, `Primitive.excluding`: the primitive that consumes
  members of a class, and the one that consumes all other characters. The
  end of the stream is neither.
* `consumeRun`: the longest run of accepted characters, which every
  repeating shape starts from.
-/

set_option autoImplicit false

namespace ScanExpr

/-- How many characters a primitive consumes. -/
inductive Shape where
  | one
  /-- One character if there is one to consume. -/
  | zeroOrOne
  /-- As many as there are. -/
  | zeroOrMore
  /-- As many as there are, and at least one. -/
  | oneOrMore
  /-- At least `min` and at most `max`; a `max` of zero sets no limit. -/
  | between (min max : Nat)
deriving DecidableEq

/-- An operand that looks at characters one at a time. -/
inductive Primitive where
  | atEnd
  | consume (accept : Char → Bool) (shape : Shape)

namespace Primitive

/-- Consumes members of a class. -/
def matching {κ : Type} [CharClass κ] (k : κ) (shape : Shape) : Primitive :=
  .consume (CharClass.contains k) shape

/-- Consumes characters that are not members of a class. -/
def excluding {κ : Type} [CharClass κ] (k : κ) (shape : Shape) : Primitive :=
  .consume (fun c => !CharClass.contains k c) shape

end Primitive

section

variable {σ μ : Type} [CharStream σ μ]

/-- Consumes one accepted character and tells whether there was one. -/
def consumeOne (accept : Char → Bool) (s : σ) : Bool × σ :=
  match CharStream.peek s with
  | some c => if accept c then (true, CharStream.step s c) else (false, s)
  | none => (false, s)

/-- Consumes accepted characters, of which `count` have been consumed
before, until the next one is not accepted or `max` are reached. Returns
how many have been consumed in all. -/
def consumeRun (accept : Char → Bool) (max count : Nat) (s : σ) : Nat × σ :=
  if max = 0 ∨ count < max then
    match _next : CharStream.peek s with
    | some c =>
      if accept c then consumeRun accept max (count + 1) (CharStream.step s c)
      else (count, s)
    | none => (count, s)
  else (count, s)
termination_by CharStream.remaining s
decreasing_by exact CharStream.remaining_step _next

/-- Consumes at least `min` and at most `max` accepted characters, or
leaves the stream where it is. -/
def consumeBetween (accept : Char → Bool) (min max : Nat) (s : σ) : Bool × σ :=
  if max ≠ 0 ∧ max < min then (false, s)
  else
    let (count, t) := consumeRun accept max 0 s
    if count < min then (false, rewind t (mark s)) else (true, t)

/-- Whether the primitive matches, and the stream after it. -/
def Primitive.apply (p : Primitive) (s : σ) : Bool × σ :=
  match p with
  | .atEnd => (CharStream.atEnd s, s)
  | .consume accept .one => consumeOne accept s
  | .consume accept .zeroOrOne => (true, (consumeOne accept s).2)
  | .consume accept .zeroOrMore => (true, (consumeRun accept 0 0 s).2)
  | .consume accept .oneOrMore =>
    let (count, t) := consumeRun accept 0 0 s
    (0 < count, t)
  | .consume accept (.between min max) => consumeBetween accept min max s

end

end ScanExpr
