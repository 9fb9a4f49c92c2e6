/-!
# `ScanExpr.Matcher.Misuse`: calls that make no sense where they are made

A `Misuse` is a mistake in the order of calls on a matcher. It has nothing
to do with the text: an operand that does not match is no misuse.
-/

set_option autoImplicit false

namespace ScanExpr

/-- Why a call is refused. -/
inductive Misuse where
  /-- A connective where the level has had no operand. -/
  | strayConnective
  /-- The result is asked for before there was any operand. -/
  | nothingAttempted
  /-- A group is closed where none is open. -/
  | noOpenGroup
  /-- The result is asked for with `depth` groups open. -/
  | groupsLeftOpen (depth : Nat)
deriving DecidableEq

namespace Misuse

/-- The refusal in words. -/
def message : Misuse → String
  | .strayConnective => "operator without a preceding operand"
  | .nothingAttempted => "result requested without trying to match anything"
  | .noOpenGroup => "end without a matching begin"
  | .groupsLeftOpen depth =>
    "result requested with " ++ toString depth ++ " group(s) still open"

end Misuse

end ScanExpr
