import ScanExpr.Stream.Cursor
import ScanExpr.Stream.Tape

/-!
# `ScanExpr.Stream.Position`: streams whose positions are numbers

Both kinds of stream tell their position as a number, a cursor in bytes
and a tape in characters. A loop that stops as soon as it stands still can
visit each position once, so the number of positions bounds it.
-/

set_option autoImplicit false

namespace ScanExpr

/-- Streams that tell their position, and that of a mark, as a number. -/
class Positioned (σ : Type) (μ : outParam Type) where
  position : σ → Nat
  /-- The position that a mark stands for. -/
  markPosition : μ → Nat
  /-- The number of positions that the stream has. -/
  positionCount : σ → Nat

export Positioned (position markPosition positionCount)

instance {src : Source} : Positioned (Cursor src) Cursor.Mark where
  position c := c.pos.toNat
  markPosition m := m.pos.toNat
  positionCount _ := src.length.toNat + 1

instance {text : Array Char} : Positioned (Tape text) Nat where
  position t := t.pos
  markPosition p := p
  positionCount _ := text.size + 1

end ScanExpr
