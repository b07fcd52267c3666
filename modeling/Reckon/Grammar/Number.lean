import Reckon.Matcher.Leaf
import Reckon.Token.Number

/-! The spelling of numbers.

    number  =  sign? (real | whole)
    real    =  digits ('.' digits)? (('e' | 'E') sign? digits)?
    whole   =  '%' [01]+  |  '&' [0-7]+  |  digits  |  '$' [0-9a-fA-F]+

A real is tried first; one with neither a fraction nor a scale is a whole number. A point or a scale
marker that no digits follow is not part of the number. -/

namespace Reckon.Grammar

open Matcher

def sign : Matcher Leaf := firstOf [char .sign '+', char .sign '-']

def decimalDigits : Matcher Leaf := run .decimalDigits isDecimalDigit

def fraction : Matcher Fraction := seq2 Fraction.mk (char .dot '.') decimalDigits

def scale : Matcher Scale :=
  seq3 (fun marker sign digits => ⟨marker, sign.toOption, digits⟩)
    (firstOf [char .scaleMarker 'e', char .scaleMarker 'E']) (perhaps sign) decimalDigits

/-- Digits with a fraction or a scale are a real; alone they are a whole number. -/
def realOrWhole (whole : Leaf) (fraction : Perhaps Fraction) (scale : Perhaps Scale) : Magnitude :=
  match fraction.toOption, scale.toOption with
  | none, none => .whole (.decimal whole)
  | fraction, scale => .real ⟨whole, fraction, scale⟩

/-- Decimal digits with an optional fraction and an optional scale. -/
def unsignedReal : Matcher Magnitude :=
  seq3 realOrWhole decimalDigits (perhaps fraction) (perhaps scale)

def markedWhole (radix : Radix) (kind : LeafKind) (marker : Char) (digit : Char → Bool) :
    Matcher WholeNumber :=
  seq2 (WholeNumber.marked radix) (char kind marker) (run radix.digitKind digit)

def unsignedWhole : Matcher WholeNumber :=
  firstOf
    [markedWhole .binary .percent '%' isBinaryDigit,
     markedWhole .octal .ampersand '&' isOctalDigit,
     map WholeNumber.decimal decimalDigits,
     markedWhole .hexadecimal .dollar '$' isHexDigit]

def number : Matcher Number :=
  seq2 (fun sign magnitude => ⟨sign.toOption, magnitude⟩) (perhaps sign)
    (firstOf [unsignedReal, map Magnitude.whole unsignedWhole])

end Reckon.Grammar
