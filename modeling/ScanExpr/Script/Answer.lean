import ScanExpr.CharClass.RangeNotation
import ScanExpr.Matcher.Event

/-!
# `ScanExpr.Script.Answer`: what the steps of a script answer

A step of a script answers with a value, with a misuse, or with the fault
of a class that it was given. An operand that was run answers with a log
of where it began and ended, and an expression with the answers of its
steps. `succeeded` tells whether a script counts as a match.
-/

set_option autoImplicit false

namespace ScanExpr

/-- The answer of a step. -/
inductive Answer where
  | nothing
  | flag (value : Bool)
  | number (value : Nat)
  | position (value : Nat)
  | text (value : String)
  /-- How one mark compares to another. -/
  | order (value : Ordering)
  | misuse (cause : Misuse)
  /-- The class that the step was given cannot be built. -/
  | fault (cause : RangeError)
  | list (answers : List Answer)
  /-- An operand ran from position `start` to position `stop`. -/
  | log (start stop : Nat) (matched : Bool) (detail : Answer)
  /-- An expression: the answers of its steps, and its result if it came to
  one. -/
  | chain (steps : List Answer) (result : Option Bool)

namespace Answer

/-- Whether the answer says that something matched: it is true, or it is
that of an expression which came to the result true. -/
def isMatch : Answer → Bool
  | .flag value => value
  | .chain _ (some result) => result
  | _ => false

/-- A list of steps succeeds if the last of them answers that it matched. -/
def succeeded (answers : List Answer) : Bool :=
  match answers.getLast? with
  | some answer => answer.isMatch
  | none => false

end Answer

end ScanExpr
