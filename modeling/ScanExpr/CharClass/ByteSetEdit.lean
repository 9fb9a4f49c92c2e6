import ScanExpr.CharClass.RangeNotation

/-!
# `ScanExpr.CharClass.ByteSetEdit`: byte sets built step by step

An `Edit` either replaces the set under construction or adds to it.
`ofEdits` applies a list of edits to the empty set; the first one whose
range notation is at fault decides the outcome.
-/

set_option autoImplicit false

namespace ScanExpr.ByteSet

/-- One step of building a byte set. -/
inductive Edit where
  /-- Start over with the empty set. -/
  | clear
  /-- Start over with the given bytes. -/
  | setBytes (bytes : List UInt8)
  /-- Start over with the bytes from `lo` to `hi`. -/
  | setRange (lo hi : UInt8)
  /-- Start over with what the range notation lists. -/
  | setNotation (text : String)
  | insert (b : UInt8)
  | insertRange (lo hi : UInt8)
  /-- Add the members of the set that other edits build. -/
  | union (edits : List Edit)

mutual

/-- The set after one edit. -/
def Edit.apply (s : ByteSet) : Edit → Except RangeError ByteSet
  | .clear => .ok empty
  | .setBytes bytes => .ok (ofBytes bytes)
  | .setRange lo hi => .ok (ofRange lo hi)
  | .setNotation text => ofNotation text
  | .insert b => .ok (s.insert b)
  | .insertRange lo hi => .ok (s.insertRange lo hi)
  | .union edits =>
    match applyAll empty edits with
    | .error e => .error e
    | .ok t => .ok (s.union t)

/-- The set after every edit of a list, from left to right. -/
def applyAll (s : ByteSet) : List Edit → Except RangeError ByteSet
  | [] => .ok s
  | edit :: rest =>
    match edit.apply s with
    | .error e => .error e
    | .ok t => applyAll t rest

end

/-- The set that a list of edits builds from nothing. -/
def ofEdits (edits : List Edit) : Except RangeError ByteSet :=
  applyAll empty edits

end ScanExpr.ByteSet
