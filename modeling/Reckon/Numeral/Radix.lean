/-! The four bases in which whole numbers are written. All but the decimal one are announced by a
marker before the digits. -/

namespace Reckon

inductive Radix where
  | binary
  | octal
  | decimal
  | hexadecimal
  deriving DecidableEq

namespace Radix

def base : Radix → Nat
  | .binary => 2
  | .octal => 8
  | .decimal => 10
  | .hexadecimal => 16

def marker? : Radix → Option Char
  | .binary => some '%'
  | .octal => some '&'
  | .decimal => none
  | .hexadecimal => some '$'

def ofMarker? (c : Char) : Option Radix :=
  if c = '%' then some .binary
  else if c = '&' then some .octal
  else if c = '$' then some .hexadecimal
  else none

theorem ofMarker?_eq_some_iff {c : Char} {r : Radix} :
    ofMarker? c = some r ↔ r.marker? = some c := by
  cases r <;> simp only [ofMarker?, marker?, Option.some.injEq] <;> (repeat' split) <;>
    simp_all [eq_comm]

end Radix

end Reckon
