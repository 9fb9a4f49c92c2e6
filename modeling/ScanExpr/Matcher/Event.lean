import ScanExpr.Expr.Connective
import ScanExpr.Matcher.Misuse

/-!
# `ScanExpr.Matcher.Event`: what a matcher reports of its work

A matcher reports every group that it opens or closes, every expression
that it concludes and every call that it refuses.
-/

set_option autoImplicit false

namespace ScanExpr

/-- How much a report matters. -/
inductive Severity where
  | trace
  | debug
deriving DecidableEq

namespace Severity

/-- The name of the severity. -/
def name : Severity → String
  | .trace => "TRACE"
  | .debug => "DEBUG"

end Severity

/-- One report. -/
inductive Event where
  /-- A group was opened and there are `depth` open groups now; its operands
  may all be skipped. -/
  | opened (depth : Nat) (skipped : Bool)
  /-- The last of `depth` open groups was closed: it evaluated to `inner`
  and counts for `outcome`, and the stream may have been rewound. -/
  | closed (depth : Nat) (quantifier : Quantifier) (inner outcome rewound : Bool)
  | concluded (matched : Bool)
  | refused (misuse : Misuse)
deriving DecidableEq

namespace Event

/-- How much the event matters. -/
def severity : Event → Severity
  | .refused _ => .debug
  | _ => .trace

/-- What happened, in words. -/
def message : Event → String
  | .opened .. => "group opened"
  | .closed .. => "group closed"
  | .concluded _ => "expression concluded"
  | .refused _ => "matcher misuse"

/-- The text of the error that is reported, if the event reports one. -/
def error? : Event → Option String
  | .refused misuse => some misuse.message
  | _ => none

end Event

end ScanExpr
