import Reckon.Numeral.Radix

/-! Whole numbers from their written form. A sign may stand in front; a minus sign only where
negative numbers can be told. The digits are taken from left to right, and the first thing wrong is
what is reported: a character that is no digit of the base, or a value that has left the range. -/

namespace Reckon

inductive WholeError where
  | empty
  | invalidDigit
  | tooLarge
  | tooSmall
  deriving DecidableEq

def WholeError.message : WholeError → String
  | .empty => "cannot parse integer from empty string"
  | .invalidDigit => "invalid digit found in string"
  | .tooLarge => "number too large to fit in target type"
  | .tooSmall => "number too small to fit in target type"

/-- The numbers from `low` through `high`. -/
structure WholeRange where
  low : Int
  high : Int

namespace WholeRange

def unsigned64 : WholeRange := ⟨0, UInt64.size - 1⟩

def signed64 : WholeRange := ⟨Int64.minValue.toInt, Int64.maxValue.toInt⟩

end WholeRange

/-- The value of a character as a digit of any base up to thirty-six. -/
def digitValue (c : Char) : Option Nat :=
  if '0' ≤ c ∧ c ≤ '9' then some (c.toNat - '0'.toNat)
  else if 'a' ≤ c ∧ c ≤ 'z' then some (c.toNat - 'a'.toNat + 10)
  else if 'A' ≤ c ∧ c ≤ 'Z' then some (c.toNat - 'A'.toNat + 10)
  else none

def Radix.digit? (r : Radix) (c : Char) : Option Nat := (digitValue c).filter (· < r.base)

namespace WholeRange

/-- Reads on from the value `total` of the digits before. Each digit moves the value away from zero,
upwards or downwards. -/
def readDigits (range : WholeRange) (r : Radix) (negative : Bool) :
    Int → List Char → Except WholeError Int
  | total, [] => .ok total
  | total, c :: cs =>
    match r.digit? c with
    | none => .error .invalidDigit
    | some d =>
      let next := if negative then total * r.base - d else total * r.base + d
      if range.high < next then .error .tooLarge
      else if next < range.low then .error .tooSmall
      else range.readDigits r negative next cs

def readMagnitude (range : WholeRange) (r : Radix) (negative : Bool) :
    List Char → Except WholeError Int
  | [] => .error .invalidDigit
  | c :: cs => range.readDigits r negative 0 (c :: cs)

def read (range : WholeRange) (r : Radix) : List Char → Except WholeError Int
  | [] => .error .empty
  | c :: cs =>
    if c = '+' then range.readMagnitude r false cs
    else if c = '-' then
      if range.low < 0 then range.readMagnitude r true cs else .error .invalidDigit
    else range.readDigits r false 0 (c :: cs)

end WholeRange

end Reckon
