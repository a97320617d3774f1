/-!
# Numerals

Numbers are read digit by digit, most significant first, in the ASCII digits only. The value of a run
of digits is what each further digit makes of it: ten times the value before it, plus its own.
-/

namespace CodeMarkup.Text

/-- The value of a decimal digit. -/
def digitValue (c : Char) : Nat :=
  c.toNat - '0'.toNat

/-- The number that decimal digits write. -/
def decimalValue (digits : List Char) : Nat :=
  digits.foldl (fun value c => value * 10 + digitValue c) 0

/-- The value of a hexadecimal digit of either case. -/
def hexValue? (c : Char) : Option Nat :=
  if c.isDigit then some (digitValue c)
  else if 'a' ≤ c ∧ c ≤ 'f' then some (c.toNat - 'a'.toNat + 10)
  else if 'A' ≤ c ∧ c ≤ 'F' then some (c.toNat - 'A'.toNat + 10)
  else none

/-- The number that hexadecimal digits write, if all of them are such digits. -/
def hexadecimalValue? (digits : List Char) : Option Nat :=
  digits.foldlM (fun value c => (hexValue? c).map (value * 16 + ·)) 0

/-- A number in decimal digits. -/
def decimal (value : Nat) : List Char :=
  Nat.toDigits 10 value

end CodeMarkup.Text
