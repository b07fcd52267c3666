import Reckon.Fault

/-! Places in a text. A position carries the line, the column and the character offset, all counted
from zero. The offset says which character is meant and the other two say where a reader finds it:
reading a newline leads to the start of the next line, reading anything else leads one column on.
Positions are ordered by line, then column, then offset. -/

namespace Reckon

/-- A place in a text: zero-based line and column, and the zero-based character offset. -/
structure Position where
  line : Nat
  column : Nat
  offset : Nat
  deriving DecidableEq

namespace Position

def origin : Position := ⟨0, 0, 0⟩

instance : Inhabited Position := ⟨origin⟩

def render (p : Position) : String := toString p.line ++ ":" ++ toString p.column

/-- The place one character further, where `c` is the character at `p`. -/
def past (p : Position) (c : Char) : Except Fault Position :=
  if c = '\n' then
    match nextWord p.line with
    | .ok line => .ok ⟨line, 0, p.offset + 1⟩
    | .error cause => .error cause
  else
    match nextWord p.column with
    | .ok column => .ok ⟨p.line, column, p.offset + 1⟩
    | .error cause => .error cause

/-- The place reached by reading the characters in turn, whatever the size of the numbers. -/
def after (p : Position) : List Char → Position
  | [] => p
  | c :: cs =>
    after
      (if c = '\n' then ⟨p.line + 1, 0, p.offset + 1⟩ else ⟨p.line, p.column + 1, p.offset + 1⟩) cs

theorem after_append (p : Position) (cs ds : List Char) :
    p.after (cs ++ ds) = (p.after cs).after ds := by
  induction cs generalizing p with
  | nil => rfl
  | cons c cs ih => exact ih _

theorem offset_after (p : Position) (cs : List Char) :
    (p.after cs).offset = p.offset + cs.length := by
  induction cs generalizing p with
  | nil => rfl
  | cons c cs ih =>
    rw [after, ih, List.length_cons]
    split <;> simp only <;> omega

/-- One step is in reach as long as neither the line nor the column leaves the words. -/
theorem past_eq_after {p : Position} (c : Char) (hl : p.line + 1 < wordLimit)
    (hc : p.column + 1 < wordLimit) : p.past c = .ok (p.after [c]) := by
  unfold past
  split
  · rename_i h
    rw [nextWord_of_lt hl, after, if_pos h]
    rfl
  · rename_i h
    rw [nextWord_of_lt hc, after, if_neg h]
    rfl

theorem line_after_le (p : Position) (cs : List Char) : (p.after cs).line ≤ p.line + cs.length := by
  induction cs generalizing p with
  | nil => exact Nat.le_refl _
  | cons c cs ih =>
    rw [after, List.length_cons]
    refine Nat.le_trans (ih _) ?_
    split <;> simp only <;> omega

theorem column_after_le (p : Position) (cs : List Char) :
    (p.after cs).column ≤ p.column + cs.length := by
  induction cs generalizing p with
  | nil => exact Nat.le_refl _
  | cons c cs ih =>
    rw [after, List.length_cons]
    refine Nat.le_trans (ih _) ?_
    split <;> simp only <;> omega

/-- Positions compare by line, then by column, then by offset. -/
def order (a b : Position) : Ordering :=
  (compare a.line b.line).then ((compare a.column b.column).then (compare a.offset b.offset))

instance : Ord Position := ⟨order⟩

instance : LE Position := ⟨fun a b => (order a b).isLE = true⟩

instance : LT Position := ⟨fun a b => order a b = .lt⟩

instance (a b : Position) : Decidable (a ≤ b) :=
  inferInstanceAs (Decidable ((order a b).isLE = true))

instance (a b : Position) : Decidable (a < b) := inferInstanceAs (Decidable (order a b = .lt))

end Position

end Reckon
