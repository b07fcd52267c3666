import Mathlib.Data.Nat.Digits.Defs
import Reckon.Numeral.Whole
import Reckon.Proofs.Grammar.Number

/-! What digits are worth. The number that digits write is the sum of their values, each times a
power of the base. Reading them one by one yields that number or finds it too large: the value only
grows with every further digit, so it leaves the range on the way exactly if it lies outside at the
end. What is no digit is found out, at the latest when it is reached. -/

namespace Reckon

/-- The digits of all bases in the order of their values. -/
def digitOrder : List Char :=
  ['0', '1', '2', '3', '4', '5', '6', '7', '8', '9', 'a', 'b', 'c', 'd', 'e', 'f']

/-- The value of a digit. Capital letters count like small ones. -/
def digitWeight (c : Char) : Nat := digitOrder.idxOf c.toLower

namespace Radix

def isDigit : Radix → Char → Bool
  | .binary => isBinaryDigit
  | .octal => isOctalDigit
  | .decimal => isDecimalDigit
  | .hexadecimal => isHexDigit

/-- The number that digits write, the first of them being the most significant. -/
def number (r : Radix) (ds : List Char) : Nat := Nat.ofDigits r.base (ds.reverse.map digitWeight)

theorem isHexDigit_of_isDigit {r : Radix} {c : Char} (h : r.isDigit c = true) :
    isHexDigit c = true := by
  cases r with
  | binary => exact isHexDigit_of_isDecimalDigit (isDecimalDigit_of_isBinaryDigit h)
  | octal => exact isHexDigit_of_isDecimalDigit (isDecimalDigit_of_isOctalDigit h)
  | decimal => exact isHexDigit_of_isDecimalDigit h
  | hexadecimal => exact h

end Radix

/-- The digits of the bases, with the letters in both cases. -/
theorem mem_of_isHexDigit {c : Char} (h : isHexDigit c = true) :
    c ∈ digitOrder ++ ['A', 'B', 'C', 'D', 'E', 'F'] := by
  have hbounds : (48 ≤ c.toNat ∧ c.toNat ≤ 57) ∨ (97 ≤ c.toNat ∧ c.toNat ≤ 102) ∨
      (65 ≤ c.toNat ∧ c.toNat ≤ 70) := by
    simp only [isHexDigit, isDecimalDigit, Bool.or_eq_true, Bool.and_eq_true, decide_eq_true_eq,
      Char.le_def, UInt32.le_iff_toNat_le, or_assoc] at h
    exact h
  have hall : ∀ n < 103, (48 ≤ n ∧ n ≤ 57) ∨ (97 ≤ n ∧ n ≤ 102) ∨ (65 ≤ n ∧ n ≤ 70) →
      Char.ofNat n ∈ digitOrder ++ ['A', 'B', 'C', 'D', 'E', 'F'] := by decide
  rw [← Char.ofNat_toNat c]
  exact hall c.toNat (by omega) hbounds

namespace Radix

variable {r : Radix} {c : Char} {ds : List Char}

/-- A digit of the base is read as what it is worth. -/
theorem digit?_eq (h : r.isDigit c = true) : r.digit? c = some (digitWeight c) := by
  have hall : (digitOrder ++ ['A', 'B', 'C', 'D', 'E', 'F']).all
      (fun c => !r.isDigit c || r.digit? c == some (digitWeight c)) = true := by
    cases r <;> decide
  have hc := List.all_eq_true.mp hall c (mem_of_isHexDigit (isHexDigit_of_isDigit h))
  rw [h, Bool.not_true, Bool.false_or] at hc
  exact eq_of_beq hc

theorem number_cons (r : Radix) (c : Char) (ds : List Char) :
    r.number (c :: ds) = digitWeight c * r.base ^ ds.length + r.number ds := by
  rw [number, number, List.reverse_cons, List.map_append, Nat.ofDigits_append, List.length_map,
    List.length_reverse, List.map_singleton, Nat.ofDigits_singleton, Nat.mul_comm, Nat.add_comm]

theorem base_pos (r : Radix) : 0 < r.base := by
  cases r <;> decide

theorem ne_sign_of_isDigit (h : r.isDigit c = true) : c ≠ '+' ∧ c ≠ '-' := by
  have hhex := isHexDigit_of_isDigit h
  constructor <;> rintro rfl <;> exact absurd hhex (by decide)

end Radix

/-- The number that the digits write in their base. -/
def WholeNumber.denoted (n : WholeNumber) : Nat := n.radix.number n.digits.text.toList

namespace WholeRange

variable {range : WholeRange} {r : Radix} {ds : List Char}

/-- Reading on from the value of the digits before. The induction is on the digits left; the bound
is checked after each of them. -/
theorem readDigits_eq (hlow : range.low ≤ 0) (hds : ∀ c ∈ ds, r.isDigit c = true) (total : Nat)
    (htotal : (total : Int) ≤ range.high) :
    range.readDigits r false total ds =
      if ((total * r.base ^ ds.length + r.number ds : Nat) : Int) ≤ range.high then
        .ok (total * r.base ^ ds.length + r.number ds : Nat)
      else .error .tooLarge := by
  induction ds generalizing total with
  | nil =>
    have hnil : total * r.base ^ ([] : List Char).length + r.number [] = total :=
      Nat.mul_one total
    rw [hnil, if_pos htotal]
    rfl
  | cons c ds ih =>
    obtain ⟨hc, hds⟩ := List.forall_mem_cons.mp hds
    have hnext : (total : Int) * r.base + digitWeight c =
        ((total * r.base + digitWeight c : Nat) : Int) := by
      rw [Nat.cast_add, Nat.cast_mul]
    have hvalue : total * r.base ^ (c :: ds).length + r.number (c :: ds) =
        (total * r.base + digitWeight c) * r.base ^ ds.length + r.number ds := by
      rw [Radix.number_cons, List.length_cons, Nat.pow_succ', Nat.add_mul, Nat.mul_assoc,
        Nat.add_assoc]
    have hgrows : total * r.base + digitWeight c ≤
        (total * r.base + digitWeight c) * r.base ^ ds.length + r.number ds :=
      Nat.le_trans (Nat.le_mul_of_pos_right _ (Nat.pow_pos r.base_pos)) (Nat.le_add_right _ _)
    rw [readDigits, Radix.digit?_eq hc]
    simp only [Bool.false_eq_true, if_false, hnext, hvalue]
    by_cases hhigh : range.high < ((total * r.base + digitWeight c : Nat) : Int)
    · rw [if_pos hhigh, if_neg (by omega)]
    · rw [if_neg hhigh, if_neg (by omega)]
      exact ih hds _ (by omega)

/-- Digits are read as the number they write, unless it is too large. -/
theorem read_of_isRun (hlow : range.low ≤ 0) (hhigh : 0 ≤ range.high) (hds : IsRun r.isDigit ds) :
    range.read r ds =
      if (r.number ds : Int) ≤ range.high then .ok (r.number ds : Nat) else .error .tooLarge := by
  obtain ⟨c, cs, rfl⟩ := List.exists_cons_of_ne_nil hds.ne_nil
  obtain ⟨hplus, hminus⟩ := Radix.ne_sign_of_isDigit (hds.all c List.mem_cons_self)
  have hread := readDigits_eq hlow hds.all 0 hhigh
  rw [Nat.zero_mul, Nat.zero_add] at hread
  rw [read, if_neg hplus, if_neg hminus]
  exact hread

theorem read_unsigned64 (hds : IsRun r.isDigit ds) :
    unsigned64.read r ds =
      if r.number ds < 2 ^ 64 then .ok (r.number ds : Nat) else .error .tooLarge := by
  have hhigh : unsigned64.high = 2 ^ 64 - 1 := rfl
  rw [read_of_isRun (Int.le_refl 0) (by decide) hds, hhigh]
  simp only [show ((r.number ds : Int) ≤ 2 ^ 64 - 1) ↔ r.number ds < 2 ^ 64 by omega]

theorem read_signed64 (hds : IsRun r.isDigit ds) :
    signed64.read r ds =
      if r.number ds < 2 ^ 63 then .ok (r.number ds : Nat) else .error .tooLarge := by
  have hhigh : signed64.high = 2 ^ 63 - 1 := Int64.toInt_maxValue
  rw [read_of_isRun (by decide) (by decide) hds, hhigh]
  simp only [show ((r.number ds : Int) ≤ 2 ^ 63 - 1) ↔ r.number ds < 2 ^ 63 by omega]

/-- A character that is no digit is an error, if the value does not leave the range before. -/
theorem exists_readDigits_eq_error {c : Char} (hmem : c ∈ ds) (hc : r.digit? c = none)
    (negative : Bool) (total : Int) : ∃ e, range.readDigits r negative total ds = .error e := by
  induction ds generalizing total with
  | nil => cases hmem
  | cons d ds ih =>
    rw [readDigits]
    cases hd : r.digit? d with
    | none => exact ⟨_, rfl⟩
    | some n =>
      have hrest : c ∈ ds := by
        refine (List.mem_cons.mp hmem).resolve_left ?_
        rintro rfl
        rw [hc] at hd
        cases hd
      have hstep : ∀ next : Int, ∃ e,
          (if range.high < next then .error .tooLarge
            else if next < range.low then .error .tooSmall
            else range.readDigits r negative next ds) = .error e := by
        intro next
        split
        · exact ⟨_, rfl⟩
        · split
          · exact ⟨_, rfl⟩
          · exact ih hrest next
      exact hstep _

/-- A character that is no digit is an error wherever it stands behind the first character. -/
theorem exists_read_eq_error (range : WholeRange) {c d : Char} (hmem : d ∈ ds)
    (hd : r.digit? d = none) : ∃ e, range.read r (c :: ds) = .error e := by
  have hmagnitude : ∀ negative, ∃ e, range.readMagnitude r negative ds = .error e := by
    intro negative
    cases ds with
    | nil => cases hmem
    | cons a as => exact exists_readDigits_eq_error hmem hd negative 0
  rw [read]
  split
  · exact hmagnitude false
  · split
    · split
      · exact hmagnitude true
      · exact ⟨_, rfl⟩
    · exact exists_readDigits_eq_error (List.mem_cons_of_mem c hmem) hd false 0

end WholeRange

end Reckon
