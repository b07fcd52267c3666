import Reckon.Text.Span

/-! The text being read, addressed by character offset. Every question a matcher asks of the text
goes through `charAt`; the other operations are read off it. Moving a position forward re-reads the
characters in between, so the line and the column of a position always follow from the text it was
moved over, and a position found by way of several moves is the one found by a single move. -/

namespace Reckon

/-- A text as a sequence of characters. Its offsets are machine words. -/
structure Source where
  chars : Array Char
  size_lt : chars.size < wordLimit

namespace Source

/-- The characters of a string, unless there are too many to number. -/
def ofString? (text : String) : Option Source :=
  if h : text.toList.toArray.size < wordLimit then some ⟨text.toList.toArray, h⟩ else none

def empty : Source := ⟨#[], by decide⟩

instance : Inhabited Source := ⟨empty⟩

def length (src : Source) : Nat := src.chars.size

/-- The character at an offset, if the text reaches that far. -/
def charAt (src : Source) (i : Nat) : Option Char := src.chars[i]?

/-- The characters from an offset on. -/
def rest (src : Source) (i : Nat) : List Char := src.chars.toList.drop i

def startsWithAt (src : Source) : Nat → List Char → Bool
  | _, [] => true
  | i, c :: cs => src.charAt i == some c && src.startsWithAt (i + 1) cs

/-- The characters from offset `a` through offset `b`, both included. The empty slice before `a` is
named by `b = a - 1`. -/
def slice (src : Source) (a b : Nat) : Except Fault String :=
  if a ≤ b + 1 ∧ b + 1 ≤ src.length then
    .ok (String.ofList (src.chars.extract a (b + 1)).toList)
  else .error .outOfRange

def textOf (src : Source) (s : Span) : Except Fault String := src.slice s.first.offset s.last.offset

/-- The position reached from `p` by reading `n` characters. -/
def walk (src : Source) : Nat → Position → Except Fault Position
  | 0, p => .ok p
  | n + 1, p =>
    match src.charAt p.offset with
    | none => .error .outOfRange
    | some c =>
      match p.past c with
      | .error cause => .error cause
      | .ok q => src.walk n q

/-- The position with offset `target` that is reached by reading on from `p`. -/
def advance (src : Source) (p : Position) (target : Nat) : Except Fault Position :=
  if p.offset ≤ target ∧ target ≤ src.length then src.walk (target - p.offset) p
  else .error (.beyondText p.offset target src.length)

def positionOf (src : Source) (i : Nat) : Except Fault Position := src.advance .origin i

/-- The first offset, among the `n` that start at `i`, whose character fails `test`; `i + n` if
there is none. -/
def runFor (src : Source) (test : Char → Bool) : Nat → Nat → Nat
  | 0, i => i
  | n + 1, i => if (src.charAt i).any test then src.runFor test n (i + 1) else i

/-- The end of the longest run of characters from `i` on that pass `test`: the first offset that is
not part of it. -/
def runEnd (src : Source) (test : Char → Bool) (i : Nat) : Nat :=
  src.runFor test (src.length - i) i

/-! What the operations find is told in terms of the characters from an offset on. -/

theorem charAt_eq_getElem? (src : Source) (i : Nat) : src.charAt i = src.chars.toList[i]? := by
  simp [charAt]

theorem charAt_eq_none_iff {src : Source} {i : Nat} : src.charAt i = none ↔ src.length ≤ i := by
  simp [charAt, length]

theorem length_rest (src : Source) (i : Nat) : (src.rest i).length = src.length - i := by
  simp [rest, length]

theorem rest_of_charAt {src : Source} {i : Nat} {c : Char} (h : src.charAt i = some c) :
    src.rest i = c :: src.rest (i + 1) := by
  rw [charAt_eq_getElem?] at h
  obtain ⟨hi, hc⟩ := List.getElem?_eq_some_iff.mp h
  rw [rest, rest, List.drop_eq_getElem_cons hi, hc]

theorem rest_eq_nil_of_charAt {src : Source} {i : Nat} (h : src.charAt i = none) :
    src.rest i = [] :=
  List.drop_eq_nil_of_le (by simpa [length] using charAt_eq_none_iff.mp h)

theorem startsWithAt_iff {src : Source} {i : Nat} {cs : List Char} :
    src.startsWithAt i cs = true ↔ cs <+: src.rest i := by
  induction cs generalizing i with
  | nil => simp [startsWithAt]
  | cons c cs ih =>
    rw [startsWithAt, Bool.and_eq_true, ih, beq_iff_eq]
    cases h : src.charAt i with
    | none => simp [rest_eq_nil_of_charAt h]
    | some d =>
      rw [rest_of_charAt h, List.cons_prefix_cons, Option.some.injEq]
      exact and_congr_left fun _ => eq_comm

theorem runFor_eq {src : Source} {test : Char → Bool} {n i : Nat} (h : src.length - i ≤ n) :
    src.runFor test n i = i + ((src.rest i).takeWhile test).length := by
  induction n generalizing i with
  | zero =>
    have hi : src.charAt i = none := charAt_eq_none_iff.mpr (by omega)
    rw [rest_eq_nil_of_charAt hi]
    rfl
  | succ n ih =>
    rw [runFor]
    cases hi : src.charAt i with
    | none =>
      rw [rest_eq_nil_of_charAt hi]
      rfl
    | some c =>
      rw [rest_of_charAt hi, List.takeWhile_cons]
      cases hc : test c with
      | false => simp [hc]
      | true =>
        simp only [Option.any_some, hc, if_true, List.length_cons]
        rw [ih (by omega)]
        omega

theorem runEnd_eq (src : Source) (test : Char → Bool) (i : Nat) :
    src.runEnd test i = i + ((src.rest i).takeWhile test).length :=
  runFor_eq (Nat.le_refl _)

theorem walk_eq_after {src : Source} {n : Nat} {p : Position} (hn : p.offset + n ≤ src.length)
    (hl : p.line + n < wordLimit) (hc : p.column + n < wordLimit) :
    src.walk n p = .ok (p.after ((src.rest p.offset).take n)) := by
  induction n generalizing p with
  | zero => rfl
  | succ n ih =>
    cases h : src.charAt p.offset with
    | none =>
      have := charAt_eq_none_iff.mp h
      omega
    | some c =>
      have hp := Position.past_eq_after (p := p) c (by omega) (by omega)
      have ho := Position.offset_after p [c]
      have hl' := Position.line_after_le p [c]
      have hc' := Position.column_after_le p [c]
      simp only [List.length_singleton] at ho hl' hc'
      rw [walk, h]
      simp only [hp]
      rw [ih (by omega) (by omega) (by omega), ho, rest_of_charAt h, List.take_succ_cons]
      exact congrArg Except.ok (Position.after_append p [c] _).symm

/-- Inside the text, and with numbers that stay words, a position moves by reading the characters in
between. -/
theorem advance_eq_after {src : Source} {p : Position} {target : Nat} (ho : p.offset ≤ target)
    (ht : target ≤ src.length) (hl : p.line + (target - p.offset) < wordLimit)
    (hc : p.column + (target - p.offset) < wordLimit) :
    src.advance p target = .ok (p.after ((src.rest p.offset).take (target - p.offset))) := by
  rw [advance, if_pos ⟨ho, ht⟩]
  exact walk_eq_after (by omega) hl hc

theorem positionOf_eq {src : Source} {i : Nat} (h : i ≤ src.length) :
    src.positionOf i = .ok (Position.origin.after ((src.rest 0).take i)) := by
  have hs : src.length < wordLimit := src.size_lt
  have ha : src.advance .origin i =
      .ok (Position.origin.after ((src.rest Position.origin.offset).take (i - 0))) :=
    advance_eq_after (Nat.zero_le i) h (by simp only [Position.origin]; omega)
      (by simp only [Position.origin]; omega)
  simpa only [Nat.sub_zero, Position.origin, positionOf] using ha

end Source

end Reckon
