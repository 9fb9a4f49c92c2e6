import ScanExpr.CharClass.Basic
import ScanExpr.Text.Dump

/-!
# `ScanExpr.CharClass.CharRange`: ranges of characters

A `CharRange` holds the characters from its first bound to its second,
both included. The bounds are kept as they were given: a range that runs
backwards has no member, and differs from another such range.
-/

set_option autoImplicit false

namespace ScanExpr

/-- The characters from `lo` to `hi`. -/
structure CharRange where
  lo : Char
  hi : Char
deriving DecidableEq

namespace CharRange

instance : CharClass CharRange where
  contains r c := r.lo ≤ c && c ≤ r.hi

instance : Dump CharRange where
  dump r := Text.wrapped "RuneRange" (dump r.lo ++ "..=" ++ dump r.hi)

end CharRange

end ScanExpr
