import ScanExpr.Text.Unprintable

/-!
# `ScanExpr.Text.Quoted`: a character between single quotes

`quoted c` is how a diagnostic names a character. Six characters have a
short escape (a zero, tab, carriage return, line feed, single quote and
backslash), other unprintable ones are written by their code point, and
all else stands for itself. A double quote needs no escape between
single quotes.
-/

set_option autoImplicit false

namespace ScanExpr.Text

/-- The code point of `c` in lower-case hexadecimal, without padding. -/
def hexCode (c : Char) : String :=
  String.ofList (Nat.toDigits 16 c.toNat)

/-- How `c` is written between quotes. -/
def escaped (c : Char) : String :=
  match c with
  | '\x00' => "\\0"
  | '\t' => "\\t"
  | '\r' => "\\r"
  | '\n' => "\\n"
  | '\'' => "\\'"
  | '\\' => "\\\\"
  | c => if isUnprintable c then "\\u\x7b" ++ hexCode c ++ "\x7d" else c.toString

/-- `c` between single quotes. -/
def quoted (c : Char) : String :=
  "'" ++ escaped c ++ "'"

end ScanExpr.Text
