import ScanExpr.Text.Dump

/-!
# `ScanExpr.Expr.Connective`: how outcomes are combined

Operands are joined by `and` or `or`. The connective that waits for the
next operand is an `Option Connective`: with none, the next outcome
replaces the running result. A `Quantifier` says what a group's result
counts for outside the group.
-/

set_option autoImplicit false

namespace ScanExpr

/-- What joins an operand to the ones before it. -/
inductive Connective where
  | and
  | or
deriving DecidableEq

namespace Connective

/-- The running result after an operand, given the connective before it. -/
def combine (pending : Option Connective) (running outcome : Bool) : Bool :=
  match pending with
  | none => outcome
  | some .and => running && outcome
  | some .or => running || outcome

/-- Whether no outcome of the next operand can change the running result. -/
def decides (pending : Option Connective) (running : Bool) : Bool :=
  match pending with
  | none => false
  | some .and => !running
  | some .or => running

/-- The name of what waits for the next operand. -/
def pendingName : Option Connective → String
  | none => "Identity"
  | some .and => "And"
  | some .or => "Or"

end Connective

/-- Whether a group has to match. -/
inductive Quantifier where
  /-- The group counts for its own result. -/
  | required
  /-- The group counts for a match in any case. -/
  | optional
deriving DecidableEq

namespace Quantifier

/-- What a group that evaluated to `inner` counts for. -/
def outcome (q : Quantifier) (inner : Bool) : Bool :=
  match q with
  | .required => inner
  | .optional => true

/-- The name of the quantifier. -/
def name : Quantifier → String
  | .required => "MatchOne"
  | .optional => "MatchZeroOrOne"

end Quantifier

end ScanExpr
