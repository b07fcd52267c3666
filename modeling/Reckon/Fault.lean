/-! The ways a run can be aborted. A fault is no mismatch: a matcher that does not apply says so
and the next one is tried, whereas a fault ends the whole computation. Faults arise from positions
that do not belong to the text they are used with, from tables that name rows they do not have, and
from building a symbol or a string literal out of nothing. -/

namespace Reckon

/-- Line numbers, columns and lengths are machine words: they lie below this bound. -/
def wordLimit : Nat := UInt64.size

inductive Fault where
  /-- A position was to be moved backwards or past the end of the text. -/
  | beyondText (origin target length : Nat)
  /-- A symbol of no characters was asked for. -/
  | emptySymbol
  /-- A string literal of no segments was asked for. -/
  | emptyString
  /-- A slice or a table entry outside its range was asked for. -/
  | outOfRange
  /-- A line, a column or a length is no machine word. -/
  | outOfWord
  /-- A repetition came back to where it had been and would never end. -/
  | endless
  deriving DecidableEq

def Fault.message? : Fault → Option String
  | .beyondText origin target length =>
    some s!"cannot advance from offset {origin} to {target} (source length {length})"
  | .emptySymbol => some "empty symbol"
  | .emptyString => some "character string without elements"
  | .outOfRange | .outOfWord | .endless => none

/-- The number one above `n`, which must be a machine word. -/
def nextWord (n : Nat) : Except Fault Nat :=
  if n + 1 < wordLimit then .ok (n + 1) else .error .outOfWord

theorem nextWord_of_lt {n : Nat} (h : n + 1 < wordLimit) : nextWord n = .ok (n + 1) := by
  simp [nextWord, h]

end Reckon
