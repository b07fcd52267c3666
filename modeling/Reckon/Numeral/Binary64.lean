import Reckon.Text.Classes

/-! Decimal numbers as binary floating point of 64 bits. A decimal is read exactly, as a whole
number times a power of ten, and then rounded once to the nearest value of the format, a tie going
to the even one. A finite value of the format is `m * 2 ^ q` with `m < 2 ^ 53` and `-1074 ≤ q`; in
the order of its bits the number of such a value is `(q + 1074) * 2 ^ 52 + m`, subnormal values
included. -/

namespace Reckon

/-- A floating point value of 64 bits, given by its bits. -/
structure Binary64 where
  bits : UInt64
  deriving DecidableEq

inductive RealError where
  | empty
  | invalid
  deriving DecidableEq

def RealError.message : RealError → String
  | .empty => "cannot parse float from empty string"
  | .invalid => "invalid float literal"

namespace Binary64

def infinityBits : Nat := 0x7FF0000000000000

def nanBits : Nat := 0x7FF8000000000000

def ofMagnitude (negative : Bool) (bits : Nat) : Binary64 :=
  ⟨UInt64.ofNat (if negative then bits + (1 <<< 63) else bits)⟩

/-- Whether the bits stand for no number: all exponent bits set and some bit below them. -/
def isNaN (x : Binary64) : Bool := infinityBits < x.bits.toNat % (1 <<< 63)

/-- The quotient rounded to the nearest whole number, a tie going to the even one. -/
def nearest (num den : Nat) : Nat :=
  let q := num / den
  let twice := 2 * (num % den)
  if twice < den then q else if den < twice then q + 1 else q + q % 2

/-- The bits of the value nearest to `num / den`, both positive. The unit `2 ^ q` of the last place
is chosen so that the quotient by it has 53 bits, unless that would be below the smallest unit. -/
def roundRatio (num den : Nat) : Nat :=
  let guess : Int := (Nat.log2 num : Int) - Nat.log2 den
  let atLeast (e : Int) : Bool :=
    if e < 0 then den ≤ num <<< (-e).toNat else den <<< e.toNat ≤ num
  let exponent := if atLeast guess then guess else guess - 1
  let q := max (exponent - 52) (-1074)
  let m := if q < 0 then nearest (num <<< (-q).toNat) den else nearest num (den <<< q.toNat)
  min (((q + 1074).toNat <<< 52) + m) infinityBits

/-- The bits of the value nearest to `m * 10 ^ e`. Exponents far outside the format are decided by
the number of digits, so that the power of ten stays small. -/
def roundDecimal (m : Nat) (digits : Nat) (e : Int) : Nat :=
  if m = 0 then 0
  else if 400 < e then infinityBits
  else if e + digits < -400 then 0
  else if e < 0 then roundRatio m (Nat.pow 10 (-e).toNat)
  else roundRatio (m * Nat.pow 10 e.toNat) 1

def digitsValue (ds : List Char) : Nat := ds.foldl (fun n d => 10 * n + (d.toNat - '0'.toNat)) 0

/-- The value of the digits of an exponent. It is far outside the format from `2 ^ 16` on, and
digits after that do not count. -/
def exponentValue (ds : List Char) : Nat :=
  ds.foldl (fun n d => if n < 1 <<< 16 then 10 * n + (d.toNat - '0'.toNat) else n) 0

/-- The exponent that ends a decimal, after its marker: an optional sign and at least one digit. -/
def readExponent (text : List Char) : Option Int :=
  match text with
  | [] => none
  | c :: cs =>
    let ds := if c = '+' ∨ c = '-' then cs else c :: cs
    if ds.isEmpty || !ds.all isDecimalDigit then none
    else if c = '-' then some (-(exponentValue ds : Int)) else some (exponentValue ds)

/-- The magnitude of an unsigned decimal: digits, of which a point may be part, and an optional
exponent. -/
def readDecimal (text : List Char) : Option Nat :=
  let whole := text.takeWhile isDecimalDigit
  let afterWhole := text.dropWhile isDecimalDigit
  let (fraction, afterFraction) :=
    match afterWhole with
    | '.' :: cs => (cs.takeWhile isDecimalDigit, cs.dropWhile isDecimalDigit)
    | cs => ([], cs)
  let ds := whole ++ fraction
  if ds.isEmpty then none
  else
    match afterFraction with
    | [] => some (roundDecimal (digitsValue ds) ds.length (-(fraction.length : Int)))
    | c :: cs =>
      if c = 'e' ∨ c = 'E' then
        (readExponent cs).map fun e => roundDecimal (digitsValue ds) ds.length (e - fraction.length)
      else none

def readNamed (text : List Char) : Option Nat :=
  let word := text.map Char.toLower
  if word = "inf".toList ∨ word = "infinity".toList then some infinityBits
  else if word = "nan".toList then some nanBits
  else none

/-- Reads a decimal number, an infinity or a not-a-number, with an optional sign. -/
def read (text : List Char) : Except RealError Binary64 :=
  match text with
  | [] => .error .empty
  | c :: cs =>
    let body := if c = '+' ∨ c = '-' then cs else c :: cs
    match (readDecimal body).orElse fun _ => readNamed body with
    | none => .error .invalid
    | some bits => .ok (ofMagnitude (c = '-') bits)

end Binary64

end Reckon
