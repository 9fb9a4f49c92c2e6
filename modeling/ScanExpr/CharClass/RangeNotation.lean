import ScanExpr.CharClass.ByteSet

/-!
# `ScanExpr.CharClass.RangeNotation`: byte sets written as ranges

The notation `0-9a-fA-F` lists the members of a byte set. A dash between
two characters makes a range of them, both ends included, and every other
character, a dash at either end of the text too, stands for itself. The
text is read from left to right and the first fault is reported: a
character that is no byte before a range that runs backwards.
-/

set_option autoImplicit false

namespace ScanExpr

/-- Why a text is not the notation of a byte set. -/
inductive RangeError where
  /-- The range from `start` to `stop` runs backwards. -/
  | reversed (start stop : Char)
  /-- The character's code point is not a byte. -/
  | notAByte (c : Char)
deriving DecidableEq

namespace RangeError

/-- The report of the fault in words. -/
def message : RangeError → String
  | .reversed start stop =>
    "byte range " ++ Text.quoted start ++ "-" ++ Text.quoted stop ++ " is reversed"
  | .notAByte c => Text.quoted c ++ " does not fit in a byte set"

end RangeError

namespace ByteSet

/-- The byte that is the code point of `c`. -/
def byteOfChar (c : Char) : Except RangeError UInt8 :=
  if c.toNat < 256 then .ok c.toUInt8 else .error (.notAByte c)

/-- The set `s` with the members that the notation lists. -/
def insertNotation (s : ByteSet) : List Char → Except RangeError ByteSet
  | start :: '-' :: stop :: rest =>
    match byteOfChar start with
    | .error e => .error e
    | .ok lo =>
      match byteOfChar stop with
      | .error e => .error e
      | .ok hi =>
        if hi < lo then .error (.reversed start stop)
        else (s.insertRange lo hi).insertNotation rest
  | c :: rest =>
    match byteOfChar c with
    | .error e => .error e
    | .ok b => (s.insert b).insertNotation rest
  | [] => .ok s

/-- The set that the range notation `text` lists. -/
def ofNotation (text : String) : Except RangeError ByteSet :=
  empty.insertNotation text.toList

end ByteSet

end ScanExpr
