import ScanExpr.Text.Quoted

/-!
# `ScanExpr.Text.Dump`: values written out for inspection

`Dump` gives the text by which a value shows its parts: a record lists
its fields by name, a wrapper shows its content in parentheses, a list
stands in brackets and a set in braces. Each type of the library that can
be inspected has its instance beside its definition.
-/

set_option autoImplicit false

namespace ScanExpr

/-- Types whose values can be written out for inspection. -/
class Dump (α : Type) where
  /-- The text that shows a value and its parts. -/
  dump : α → String

export Dump (dump)

namespace Text

/-- Items with a comma and a space between them. -/
def commaSeparated (items : List String) : String :=
  String.intercalate ", " items

/-- Items in brackets. -/
def bracketed (items : List String) : String :=
  "[" ++ commaSeparated items ++ "]"

/-- Items in braces. -/
def braced (items : List String) : String :=
  "\x7b" ++ commaSeparated items ++ "\x7d"

/-- A record: its name, then every field with its name. -/
def record (name : String) (fields : List (String × String)) : String :=
  let shown := fields.map fun f => f.1 ++ ": " ++ f.2
  name ++ " \x7b " ++ commaSeparated shown ++ " \x7d"

/-- One value inside a wrapper that has a name. -/
def wrapped (name content : String) : String :=
  name ++ "(" ++ content ++ ")"

end Text

instance : Dump Bool where
  dump b := if b then "true" else "false"

instance : Dump Nat where
  dump n := toString n

instance : Dump UInt8 where
  dump n := toString n.toNat

instance : Dump UInt32 where
  dump n := toString n.toNat

instance : Dump Char where
  dump := Text.quoted

instance {α : Type} [Dump α] : Dump (Option α) where
  dump
    | none => "None"
    | some a => Text.wrapped "Some" (dump a)

instance {α : Type} [Dump α] : Dump (List α) where
  dump xs := Text.bracketed (xs.map dump)

end ScanExpr
