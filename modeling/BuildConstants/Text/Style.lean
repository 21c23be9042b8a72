/-!
# Styled text

Text between the escape sequences that switch a style of a terminal on and off.
-/

namespace BuildConstants.Text

/-- The sequence that switches a style. -/
def styleSwitch (code : Nat) : String :=
  s!"\x1b[{code}m"

/-- Text between two switches. -/
def styled (on off : Nat) (text : String) : String :=
  styleSwitch on ++ text ++ styleSwitch off

/-- A color of text. -/
inductive Ink where
  | red
  | green
  | yellow
  | blue
  | magenta
  | cyan
deriving DecidableEq

def Ink.code : Ink → Nat
  | red => 31
  | green => 32
  | yellow => 33
  | blue => 34
  | magenta => 35
  | cyan => 36

/-- The switch to the usual color. -/
def usualColor : Nat :=
  39

/-- The switch back from all styles. -/
def plainStyle : Nat :=
  0

/-- Text in a color, after which other styles go on. -/
def inked (isColored : Bool) (ink : Ink) (text : String) : String :=
  if isColored then styled ink.code usualColor text else text

/-- Text in a style, after which no style is left. -/
def marked (isColored : Bool) (code : Nat) (text : String) : String :=
  if isColored then styled code plainStyle text else text

def boldCode : Nat :=
  1

def dimmedCode : Nat :=
  2

def italicCode : Nat :=
  3

end BuildConstants.Text
