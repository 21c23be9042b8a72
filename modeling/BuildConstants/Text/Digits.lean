/-!
# Digits

The numbers that digits of a base stand for.
-/

namespace BuildConstants.Text

/-- The value of a digit: letters of both cases go on behind nine. -/
def digit? (c : Char) : Option Nat :=
  if '0' ≤ c && c ≤ '9' then some (c.toNat - '0'.toNat)
  else if 'a' ≤ c && c ≤ 'z' then some (c.toNat - 'a'.toNat + 10)
  else if 'A' ≤ c && c ≤ 'Z' then some (c.toNat - 'A'.toNat + 10)
  else none

/-- The value of a digit of a base. -/
def digitOf? (base : Nat) (c : Char) : Option Nat :=
  (digit? c).filter (· < base)

def isDigitOf (base : Nat) (c : Char) : Bool :=
  (digitOf? base c).isSome

/-- The number that some digits of a base stand for, the highest one first. -/
def ofDigits? (base : Nat) (digits : List Char) : Option Nat :=
  digits.foldlM (fun number c => (digitOf? base c).map (number * base + ·)) 0

/-- The digits of a base at the front of a text, with the text behind them. -/
def takeDigits (base : Nat) (cs : List Char) : List Char × List Char :=
  (cs.takeWhile (isDigitOf base), cs.dropWhile (isDigitOf base))

/-- The digit of a value below sixteen. -/
def hexDigit (value : Nat) : Char :=
  if value < 10 then Char.ofNat ('0'.toNat + value) else Char.ofNat ('a'.toNat + (value - 10))

end BuildConstants.Text
