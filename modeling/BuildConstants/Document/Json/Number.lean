import BuildConstants.Document.DoubleRange
import BuildConstants.Text.Digits

/-!
# Numbers in JSON

The grammar of numbers, and the question whether a number is out of range.
-/

namespace BuildConstants.Json

/-- The written parts of a number. -/
structure Number where
  negative : Bool
  whole : List Char
  /-- The digits behind the point, if there is one. -/
  places : Option (List Char)
  /-- Whether the exponent is negative, and its digits, if there is one. -/
  exponent : Option (Bool × List Char)

namespace Number

/-- Reads the digits in front of the point: no further digit follows a zero. -/
def readWhole (cs : List Char) : Option (List Char × List Char) :=
  match Text.takeDigits 10 cs with
  | ([], _) => none
  | ('0' :: _ :: _, _) => none
  | (digits, rest) => some (digits, rest)

/-- Reads the point and the digits behind it. -/
def readPlaces (cs : List Char) : Option (Option (List Char) × List Char) :=
  match cs with
  | '.' :: rest =>
    match Text.takeDigits 10 rest with
    | ([], _) => none
    | (digits, rest) => some (some digits, rest)
  | cs => some (none, cs)

/-- Reads the exponent. -/
def readExponent (cs : List Char) : Option (Option (Bool × List Char) × List Char) :=
  match cs with
  | c :: rest =>
    if c = 'e' || c = 'E' then
      let (negative, rest) := match rest with
        | '-' :: rest => (true, rest)
        | '+' :: rest => (false, rest)
        | rest => (false, rest)
      match Text.takeDigits 10 rest with
      | ([], _) => none
      | (digits, rest) => some (some (negative, digits), rest)
    else some (none, cs)
  | [] => some (none, [])

/-- Reads a number from the front of a text. -/
def read? (cs : List Char) : Option (Number × List Char) := do
  let (negative, rest) := match cs with
    | '-' :: rest => (true, rest)
    | rest => (false, rest)
  let (whole, rest) ← readWhole rest
  let (places, rest) ← readPlaces rest
  let (exponent, rest) ← readExponent rest
  some ({ negative, whole, places, exponent }, rest)

/-- The number that some decimal digits stand for. -/
def valueOf (digits : List Char) : Nat :=
  (Text.ofDigits? 10 digits).getD 0

/-- The value of a number without point and exponent. The negative zero is not an integer. -/
def integer? (n : Number) : Option Int :=
  match n.places, n.exponent with
  | none, none =>
    let magnitude := valueOf n.whole
    if !n.negative then some magnitude
    else if magnitude = 0 then none
    else some (-magnitude)
  | _, _ => none

/-- Leading digits of a number as a whole number of 64 bits, with the power of ten that belongs to
it. Further digits in front of the point count in the power only, and further digits behind it do
not count. -/
structure Leading where
  digits : Nat
  power : Int
  full : Bool

/-- Takes in a digit in front of the point. -/
def Leading.addWhole (leading : Leading) (c : Char) : Leading :=
  let digits := leading.digits * 10 + valueOf [c]
  if leading.full || digits ≥ UInt64.size then
    { leading with power := leading.power + 1, full := true }
  else { leading with digits }

/-- Takes in a digit behind the point. -/
def Leading.addPlace (leading : Leading) (c : Char) : Leading :=
  let digits := leading.digits * 10 + valueOf [c]
  if leading.full || digits ≥ UInt64.size then { leading with full := true }
  else { leading with digits, power := leading.power - 1 }

/-- The leading digits of a number. -/
def leading (n : Number) : Leading :=
  let whole := n.whole.foldl Leading.addWhole ⟨0, 0, false⟩
  let all := (n.places.getD []).foldl Leading.addPlace { whole with full := false }
  match n.exponent with
  | none => all
  | some (negative, digits) =>
    let exponent : Int := valueOf digits
    { all with power := if negative then all.power - exponent else all.power + exponent }

/-- The number rounds to infinity when its leading digits are multiplied by its power of ten. -/
def isTooLarge (n : Number) : Bool :=
  DoubleRange.productIsTooLarge n.leading.digits n.leading.power

end Number

end BuildConstants.Json
