import Attitude.Text.Printable

/-!
# Quoted text

A text in quotation marks, with what could not stand between them escaped. Single marks are used
unless the text has single marks and no double ones.
-/

namespace Attitude.Text

/-- A number as hexadecimal digits, at least `n` of them. -/
def hexadecimal (n k : Nat) : String :=
  let digits := Nat.toDigits 16 k
  String.ofList (List.replicate (n - digits.length) '0' ++ digits)

/-- The escape of a code point: two, four or eight hexadecimal digits, as few as suffice. -/
def codeEscape (k : Nat) : String :=
  if k < 0x100 then "\\x" ++ hexadecimal 2 k
  else if k < 0x10000 then "\\u" ++ hexadecimal 4 k
  else "\\U" ++ hexadecimal 8 k

/-- One character between two marks. The mark itself and what is not printable are escaped. -/
def escape (mark : Char) (c : Char) : String :=
  if c = mark ∨ c = '\\' then "\\" ++ c.toString
  else if c = '\n' then "\\n"
  else if c = '\r' then "\\r"
  else if c = '\t' then "\\t"
  else if isPrintable c then c.toString
  else codeEscape c.toNat

/-- The text between quotation marks. -/
def quoted (s : String) : String :=
  let mark := if s.contains '\'' && !s.contains '"' then '"' else '\''
  mark.toString ++ String.join (s.toList.map (escape mark)) ++ mark.toString

end Attitude.Text
