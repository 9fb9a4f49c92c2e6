/-!
# `ScanExpr.CharClass.Basic`: what a primitive may consume

A character class is a membership test on characters. The primitives of a
stream ask a class nothing but `CharClass.contains`, so any
representation of a set will do: a single character, a list or a string
of members, a predicate, and the sets of the modules beside this one.
-/

set_option autoImplicit false

namespace ScanExpr

/-- Types whose values denote a set of characters. -/
class CharClass (κ : Type) where
  /-- Whether the character belongs to the class. -/
  contains : κ → Char → Bool

namespace CharClass

/-- A character denotes the set of itself alone. -/
instance : CharClass Char where
  contains member c := member == c

/-- A list denotes the set of its elements. -/
instance : CharClass (List Char) where
  contains members c := members.any (· == c)

/-- A string denotes the set of its characters. -/
instance : CharClass String where
  contains members c := members.toList.any (· == c)

/-- A predicate denotes the set of characters that satisfy it. -/
instance : CharClass (Char → Bool) where
  contains predicate c := predicate c

end CharClass

end ScanExpr
