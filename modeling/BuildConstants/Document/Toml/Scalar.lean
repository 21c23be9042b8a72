import BuildConstants.Document.Basic
import BuildConstants.Document.DoubleRange
import BuildConstants.Text.Digits
import BuildConstants.Text.Split

/-!
# Scalars without quotes in TOML

Truth values, numbers, dates and times. Underscores may stand between two digits of a number.
-/

namespace BuildConstants.Toml

/-! ## Numbers -/

/-- The digits of a base without the underscores between them; `afterDigit` says that a digit stands
in front. There is at least one digit, and an underscore has one on both sides. -/
def digits? (base : Nat) : (afterDigit : Bool) → List Char → Option (List Char)
  | afterDigit, [] => if afterDigit then some [] else none
  | afterDigit, '_' :: rest => if afterDigit then digits? base false rest else none
  | _, c :: rest =>
    if Text.isDigitOf base c then (digits? base true rest).map (c :: ·) else none

/-- Splits off the sign of a number, which tells whether it is negative. -/
def splitSign : List Char → Bool × List Char
  | '-' :: rest => (true, rest)
  | '+' :: rest => (false, rest)
  | rest => (false, rest)

/-- The digits of a decimal number in front of its point: no further digit follows a zero. -/
def wholeDigits? (cs : List Char) : Option (List Char) :=
  match digits? 10 false cs with
  | some ('0' :: _ :: _) => none
  | result => result

/-- The integers that have a value: those of 128 bits, with a sign or without. -/
def isIntegerInRange (value : Int) : Bool :=
  -(Int.pow 2 127) ≤ value && value < Int.pow 2 128

/-- An integer as a document. -/
def integer (value : Int) : Document :=
  if isIntegerInRange value then .integer value else .flawed

/-- Reads an integer: decimal with or without a sign, or in base sixteen, eight or two behind `0x`,
`0o` or `0b`. -/
def integer? (cs : List Char) : Option Document :=
  let inBase (base : Nat) (rest : List Char) : Option Document := do
    let digits ← digits? base false rest
    let value ← Text.ofDigits? base digits
    some (integer value)
  match cs with
  | '0' :: 'x' :: rest => inBase 16 rest
  | '0' :: 'o' :: rest => inBase 8 rest
  | '0' :: 'b' :: rest => inBase 2 rest
  | cs => do
    let (negative, rest) := splitSign cs
    let digits ← wholeDigits? rest
    let value ← Text.ofDigits? 10 digits
    some (integer (if negative then -value else value))

/-- Splits a text at the first exponent mark. -/
def splitExponent (cs : List Char) : List Char × Option (List Char) :=
  match cs.span fun c => c ≠ 'e' && c ≠ 'E' with
  | (mantissa, _ :: exponent) => (mantissa, some exponent)
  | (mantissa, []) => (mantissa, none)

/-- Reads the digits of an exponent with its sign. Leading zeros are admitted. -/
def exponent? (cs : List Char) : Option Int := do
  let (negative, rest) := splitSign cs
  let digits ← digits? 10 false rest
  let value ← Text.ofDigits? 10 digits
  some (if negative then -value else value)

/-- Reads a number with a point, an exponent or both, or one of the words for infinity and for no
number. -/
def fraction? (cs : List Char) : Option Document := do
  let (_, unsigned) := splitSign cs
  if unsigned = "inf".toList || unsigned = "nan".toList then some .fraction
  else
    let (mantissa, exponent) := splitExponent unsigned
    let power ← exponent.elim (some 0) exponent?
    let (digits, places) ← match Text.splitFirst '.' mantissa with
      | some (whole, places) => do
        let whole ← wholeDigits? whole
        let places ← digits? 10 false places
        some (whole ++ places, places.length)
      | none => if exponent.isSome then (wholeDigits? mantissa).map (·, 0) else none
    let value ← Text.ofDigits? 10 digits
    if DoubleRange.isTooLarge value digits.length (power - places) then some .flawed
    else some .fraction

/-! ## Dates and times -/

/-- The number of two digits. -/
def pair? (tens ones : Char) : Option Nat :=
  Text.ofDigits? 10 [tens, ones]

def isLeapYear (year : Nat) : Bool :=
  year % 4 = 0 && (year % 100 ≠ 0 || year % 400 = 0)

def daysIn (year month : Nat) : Nat :=
  if month = 2 then if isLeapYear year then 29 else 28
  else if month ∈ [4, 6, 9, 11] then 30
  else 31

/-- Reads a date from the front of a text; gives the text behind it. -/
def date? : List Char → Option (List Char)
  | y₁ :: y₂ :: y₃ :: y₄ :: '-' :: m₁ :: m₂ :: '-' :: d₁ :: d₂ :: rest => do
    let year ← Text.ofDigits? 10 [y₁, y₂, y₃, y₄]
    let month ← pair? m₁ m₂
    let day ← pair? d₁ d₂
    if 1 ≤ month && month ≤ 12 && 1 ≤ day && day ≤ daysIn year month then some rest else none
  | _ => none

/-- Reads an hour and a minute from the front of a text; gives the text behind them. -/
def hourMinute? : List Char → Option (List Char)
  | h₁ :: h₂ :: ':' :: m₁ :: m₂ :: rest => do
    let hour ← pair? h₁ h₂
    let minute ← pair? m₁ m₂
    if hour ≤ 23 && minute ≤ 59 then some rest else none
  | _ => none

/-- Reads the digits of a fraction of a second behind its point. -/
def secondPlaces? (cs : List Char) : Option (List Char) :=
  match cs with
  | '.' :: rest =>
    match Text.takeDigits 10 rest with
    | ([], _) => none
    | (_, rest) => some rest
  | cs => some cs

/-- Reads a time from the front of a text; gives the text behind it. Seconds can be left out. -/
def time? (cs : List Char) : Option (List Char) := do
  match ← hourMinute? cs with
  | ':' :: s₁ :: s₂ :: rest => do
    let second ← pair? s₁ s₂
    if second ≤ 60 then secondPlaces? rest else none
  | rest => some rest

/-- Reads the distance from universal time that ends a text, if there is one. -/
def isOffset : List Char → Bool
  | [] | ['Z'] | ['z'] => true
  | '+' :: rest | '-' :: rest => hourMinute? rest = some []
  | _ => false

/-- Reads a date, a time or both. -/
def moment? (cs : List Char) : Option Document :=
  let isMoment := match date? cs with
    | some [] => true
    | some (c :: rest) => (c = 'T' || c = 't' || c = ' ') && (time? rest).any isOffset
    | none => time? cs = some []
  if isMoment then some .moment else none

/-! ## Scalars -/

/-- The characters that scalars without quotes are made of. -/
def isScalarChar (c : Char) : Bool :=
  c.isAlphanum || c ∈ ['_', '+', '-', '.', ':']

/-- Takes a scalar from the front of a text. A blank between a date and a time belongs to both. -/
def takeScalar (cs : List Char) : List Char × List Char :=
  let (token, rest) := cs.span isScalarChar
  match date? token, rest with
  | some [], ' ' :: c :: more =>
    if c.isDigit then
      let (time, rest) := (c :: more).span isScalarChar
      (token ++ ' ' :: time, rest)
    else (token, rest)
  | _, _ => (token, rest)

/-- Reads a scalar without quotes from the front of a text. -/
def readScalar? (cs : List Char) : Option (Document × List Char) := do
  let (token, rest) := takeScalar cs
  let document ←
    if token = "true".toList then some (.bool true)
    else if token = "false".toList then some (.bool false)
    else (integer? token).or ((fraction? token).or (moment? token))
  some (document, rest)

end BuildConstants.Toml
