/-!
# `ScanExpr.Stream.Basic`: streams of characters that can be rewound

A matcher needs two things of a stream. `Rewindable` takes a mark of the
current position and returns to a mark taken before. `CharStream` looks
at the next character and steps over it; it comes with a measure of what
is left to read, which falls with every step and so bounds every loop
over a stream.

`LawfulRewindable` states what a mark is good for: returning to it restores
the stream it was taken of.
-/

set_option autoImplicit false

namespace ScanExpr

/-- Streams with marks of type `μ` for their positions. -/
class Rewindable (σ : Type) (μ : outParam Type) where
  mark : σ → μ
  rewind : σ → μ → σ

export Rewindable (mark rewind)

/-- Returning to a mark gives back the stream of which it was taken. -/
class LawfulRewindable (σ : Type) {μ : outParam Type} [Rewindable σ μ] : Prop where
  rewind_mark : ∀ t s : σ, rewind t (mark s) = s

/-- Streams of characters. -/
class CharStream (σ : Type) (μ : outParam Type) extends Rewindable σ μ where
  /-- The next character, unless none can be read. -/
  peek : σ → Option Char
  /-- Steps over the character that `peek` shows. -/
  step : σ → Char → σ
  atEnd : σ → Bool := fun s => (peek s).isNone
  /-- A bound on the number of characters left. -/
  remaining : σ → Nat
  remaining_step : ∀ {s : σ} {c : Char}, peek s = some c → remaining (step s c) < remaining s

end ScanExpr
