import ScanExpr.Expr.Connective

/-!
# `ScanExpr.Expr.Level`: the state of one nesting level

An expression is evaluated from left to right. Each open group, and the
expression as a whole, is a `Level`: it has a running result, perhaps a
connective that waits for the next operand, and knows whether that operand
is to be skipped because it cannot change the result. A level that was
opened where operands are skipped skips all of its own.

* `Level.setPending`: a connective is read.
* `Level.fold`: an operand is read, of which the outcome is known.
* `Level.attempt`: an operand is read, and run unless it is skipped.
-/

set_option autoImplicit false

namespace ScanExpr

/-- One nesting level of an expression, with marks of type `μ`. -/
structure Level (μ : Type) where
  result : Bool
  /-- Whether every operand of the level is skipped. -/
  skipsAll : Bool
  /-- Whether the next operand is skipped. -/
  skipsNext : Bool
  pending : Option Connective
  /-- Whether the level has had an operand, skipped or not. -/
  attempted : Bool
  /-- The mark of the position at which the level was opened. -/
  entry : μ
deriving DecidableEq, Inhabited

namespace Level

variable {μ : Type}

/-- A level opened at `entry`, where operands may be skipped. -/
def opened (entry : μ) (skipped : Bool) : Level μ where
  result := false
  skipsAll := skipped
  skipsNext := skipped
  pending := none
  attempted := false
  entry := entry

/-- The outermost level of an expression that starts at `entry`. -/
def outermost (entry : μ) : Level μ :=
  opened entry false

/-- Whether a level opened now would skip all of its operands. -/
def skipsChild (l : Level μ) : Bool :=
  l.skipsAll || l.skipsNext

/-- Notes what joins the next operand, which is skipped if it cannot change
the result. -/
def setPending (l : Level μ) (pending : Option Connective) : Level μ :=
  { l with
    skipsNext := l.skipsAll || Connective.decides pending l.result
    pending := pending }

/-- Folds in the next operand. Its outcome matters only if the operand is
not skipped. -/
def fold (l : Level μ) (outcome : Bool) : Level μ :=
  { l with
    result := if l.skipsNext then l.result else Connective.combine l.pending l.result outcome
    skipsNext := l.skipsAll
    pending := none
    attempted := true }

/-- Reads an operand: runs it and folds its outcome in, unless it is
skipped. What else a run does is the monad's affair. -/
def attempt {m : Type → Type} [Monad m] (l : Level μ) (operand : m Bool) : m (Level μ) :=
  if l.skipsNext then pure (l.fold false) else l.fold <$> operand

instance [Dump μ] : Dump (Level μ) where
  dump l := Text.record "Group"
    [("result", dump l.result), ("skip_all", dump l.skipsAll), ("skip_next", dump l.skipsNext),
      ("combinator", Connective.pendingName l.pending), ("attempted", dump l.attempted),
      ("entry", dump l.entry)]

end Level

end ScanExpr
