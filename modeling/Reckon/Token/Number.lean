import Reckon.Token.Leaf
import Reckon.Numeral.Whole
import Reckon.Numeral.Binary64

/-! Numbers as they are written. A whole number is digits in one of the four bases, with the marker
of the base in front unless it is decimal; a real is decimal digits with a fraction, a scale or
both. A number is either of them after an optional sign. The parts are leaves, and the span and the
value of a number are read off its parts. -/

namespace Reckon

def Radix.digitKind : Radix → LeafKind
  | .binary => .binaryDigits
  | .octal => .octalDigits
  | .decimal => .decimalDigits
  | .hexadecimal => .hexDigits

structure WholeNumber where
  radix : Radix
  marker : Option Leaf
  digits : Leaf
  deriving DecidableEq

namespace WholeNumber

def decimal (digits : Leaf) : WholeNumber := ⟨.decimal, none, digits⟩

def marked (radix : Radix) (marker digits : Leaf) : WholeNumber := ⟨radix, some marker, digits⟩

instance : Spanned WholeNumber where
  first n := (n.marker.getD n.digits).first
  last n := n.digits.last

/-- The parts of the number in the order they are written. -/
def leaves (n : WholeNumber) : List Leaf := n.marker.toList ++ [n.digits]

/-- The value of digits in a base, as an unsigned number of 64 bits. -/
def valueOf (radix : Radix) (digits : String) : Except WholeError Int :=
  WholeRange.unsigned64.read radix digits.toList

def value (n : WholeNumber) : Except WholeError Int := valueOf n.radix n.digits.text

end WholeNumber

/-- A point and the digits after it. -/
structure Fraction where
  dot : Leaf
  digits : Leaf
  deriving DecidableEq

instance : Spanned Fraction where
  first f := f.dot.first
  last f := f.digits.last

/-- A power of ten: the marker `e` or `E`, an optional sign and the digits of the exponent. -/
structure Scale where
  marker : Leaf
  sign : Option Leaf
  digits : Leaf
  deriving DecidableEq

namespace Scale

instance : Spanned Scale where
  first s := s.marker.first
  last s := s.digits.last

/-- The exponent as written: its sign, if there is one, and its digits. -/
def exponent (s : Scale) : String := (s.sign.map Leaf.text).getD "" ++ s.digits.text

end Scale

/-- A decimal number with a fraction, a scale or both. -/
structure RealNumber where
  whole : Leaf
  fraction : Option Fraction
  scale : Option Scale
  deriving DecidableEq

namespace RealNumber

instance : Spanned RealNumber where
  first n := n.whole.first
  last n :=
    match n.scale, n.fraction with
    | some s, _ => s.digits.last
    | none, some f => f.digits.last
    | none, none => n.whole.last

def leaves (n : RealNumber) : List Leaf :=
  [n.whole] ++ (n.fraction.map fun f => [f.dot, f.digits]).getD []
    ++ (n.scale.map fun s => [s.marker] ++ s.sign.toList ++ [s.digits]).getD []

/-- The decimal the number denotes, with `e` for the scale marker. -/
def decimalText (n : RealNumber) : String :=
  n.whole.text ++ (n.fraction.map fun f => "." ++ f.digits.text).getD ""
    ++ (n.scale.map fun s => "e" ++ s.exponent).getD ""

def value (n : RealNumber) : Except RealError Binary64 := Binary64.read n.decimalText.toList

end RealNumber

inductive Magnitude where
  | whole (n : WholeNumber)
  | real (n : RealNumber)
  deriving DecidableEq

namespace Magnitude

instance : Spanned Magnitude where
  first
    | .whole n => Spanned.first n
    | .real n => Spanned.first n
  last
    | .whole n => Spanned.last n
    | .real n => Spanned.last n

def leaves : Magnitude → List Leaf
  | .whole n => n.leaves
  | .real n => n.leaves

end Magnitude

structure Number where
  sign : Option Leaf
  magnitude : Magnitude
  deriving DecidableEq

namespace Number

instance : Spanned Number where
  first n :=
    match n.sign with
    | some s => s.first
    | none => Spanned.first n.magnitude
  last n := Spanned.last n.magnitude

def leaves (n : Number) : List Leaf := n.sign.toList ++ n.magnitude.leaves

def isNegative (n : Number) : Bool := (n.sign.map Leaf.text) == some "-"

end Number

end Reckon
