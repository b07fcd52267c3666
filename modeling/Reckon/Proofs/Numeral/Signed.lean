import Mathlib.Data.List.TakeWhile
import Reckon.Calc.Binding
import Reckon.Proofs.Numeral.Digits

/-! Whole numbers with a sign. Digits of a base write a number, and a sign may stand before them.
Below zero the digits are taken away from what was read before them instead of added to it, and that
is the same as reading upwards in a range that is mirrored at zero. So a text is read as a number of
64 bits exactly if it writes one, and the number is the one it writes. Any other text is refused for
the first thing that is wrong with it: what it begins with writes a number out of range already, or
a character stands where a digit is wanted and is none. -/

namespace Reckon

/-- The number has 64 bits, one of which is its sign. -/
def FitsInt64 (n : Int) : Prop := -2 ^ 63 ≤ n ∧ n < 2 ^ 63

theorem fitsInt64_toInt (v : Int64) : FitsInt64 v.toInt := ⟨v.le_toInt, v.toInt_lt⟩

theorem FitsInt64.toInt_ofInt {n : Int} (h : FitsInt64 n) : (Int64.ofInt n).toInt = n :=
  Int64.toInt_ofInt_of_le h.1 h.2

/-- The number that digits of the base write, with a sign before them or without. -/
inductive Radix.Writes (r : Radix) : List Char → Int → Prop
  | unsigned {ds : List Char} : IsRun r.isDigit ds → r.Writes ds (r.number ds)
  | plus {ds : List Char} : IsRun r.isDigit ds → r.Writes ('+' :: ds) (r.number ds)
  | minus {ds : List Char} : IsRun r.isDigit ds → r.Writes ('-' :: ds) (-(r.number ds : Int))

/-- Why a text cannot be read as a number of 64 bits in the base. Whatever comes behind the place
where reading stops does not matter. -/
inductive Radix.Refuses (r : Radix) : List Char → WholeError → Prop
  | empty : r.Refuses [] .empty
  | noNumber {c : Char} {rest : List Char} : c ≠ '+' → c ≠ '-' → r.isDigit c = false →
    r.Refuses (c :: rest) .invalidDigit
  | noDigits {sign : Char} {rest : List Char} : sign = '+' ∨ sign = '-' →
    (∀ c ∈ rest.head?, r.isDigit c = false) → r.Refuses (sign :: rest) .invalidDigit
  | stray {front rest : List Char} {n : Int} {c : Char} : r.Writes front n → FitsInt64 n →
    r.isDigit c = false → r.Refuses (front ++ c :: rest) .invalidDigit
  | tooLarge {front rest : List Char} {n : Int} : r.Writes front n → 2 ^ 63 ≤ n →
    r.Refuses (front ++ rest) .tooLarge
  | tooSmall {front rest : List Char} {n : Int} : r.Writes front n → n < -2 ^ 63 →
    r.Refuses (front ++ rest) .tooSmall

namespace Radix

variable {r : Radix} {c : Char} {cs ds front rest : List Char} {m n : Int}

theorem isHexDigit_of_digitValue {d : Nat} (h : digitValue c = some d) (hd : d < 16) :
    isHexDigit c = true := by
  have hcode : ∀ {low : Char}, low ≤ c → low.toNat ≤ c.toNat := fun hle =>
    UInt32.le_iff_toNat_le.mp hle
  have hat : ∀ {high : Char}, c.toNat ≤ high.toNat → c ≤ high := fun hle =>
    UInt32.le_iff_toNat_le.mpr hle
  unfold digitValue at h
  simp only [isHexDigit, isDecimalDigit, Bool.or_eq_true, Bool.and_eq_true, decide_eq_true_eq]
  split at h
  · rename_i hc
    exact .inl (.inl hc)
  · split at h
    · rename_i hc
      have hlow : 97 ≤ c.toNat := hcode hc.1
      have hvalue : c.toNat - 97 + 10 = d := Option.some.inj h
      have hhigh : c.toNat ≤ 'f'.toNat := by
        change c.toNat ≤ 102
        omega
      exact .inl (.inr ⟨hc.1, hat hhigh⟩)
    · split at h
      · rename_i hc
        have hlow : 65 ≤ c.toNat := hcode hc.1
        have hvalue : c.toNat - 65 + 10 = d := Option.some.inj h
        have hhigh : c.toNat ≤ 'F'.toNat := by
          change c.toNat ≤ 70
          omega
        exact .inr ⟨hc.1, hat hhigh⟩
      · cases h

/-- Nothing but a digit of the base is read as one. -/
theorem isDigit_of_digit? {d : Nat} (h : r.digit? c = some d) : r.isDigit c = true := by
  obtain ⟨hvalue, hlt⟩ := Option.filter_eq_some_iff.mp h
  have hbase : r.base ≤ 16 := by cases r <;> decide
  have hhex := isHexDigit_of_digitValue hvalue (Nat.lt_of_lt_of_le (of_decide_eq_true hlt) hbase)
  have hall : (digitOrder ++ ['A', 'B', 'C', 'D', 'E', 'F']).all
      (fun c => r.digit? c == none || r.isDigit c) = true := by
    cases r <;> decide
  have hc := List.all_eq_true.mp hall c (mem_of_isHexDigit hhex)
  simpa [h] using hc

theorem digit?_eq_none (h : r.isDigit c = false) : r.digit? c = none := by
  cases hd : r.digit? c with
  | none => rfl
  | some d =>
    rw [isDigit_of_digit? hd] at h
    cases h

/-- What writes a number begins with a sign or a digit. -/
theorem Writes.exists_cons (h : r.Writes cs n) :
    ∃ c rest, cs = c :: rest ∧ (r.isDigit c = true ∨ c = '+' ∨ c = '-') := by
  cases h with
  | unsigned hds =>
    obtain ⟨c, rest, rfl⟩ := List.exists_cons_of_ne_nil hds.ne_nil
    exact ⟨c, rest, rfl, .inl (hds.all c List.mem_cons_self)⟩
  | plus _ => exact ⟨'+', _, rfl, .inr (.inl rfl)⟩
  | minus _ => exact ⟨'-', _, rfl, .inr (.inr rfl)⟩

/-- Digits do not begin with a sign. -/
theorem not_isRun_sign (hc : c = '+' ∨ c = '-') : ¬IsRun r.isDigit (c :: cs) := by
  intro h
  obtain ⟨hplus, hminus⟩ := ne_sign_of_isDigit (h.all c List.mem_cons_self)
  exact hc.elim hplus hminus

/-- A text writes one number only. -/
theorem Writes.unique (hm : r.Writes cs m) (hn : r.Writes cs n) : m = n := by
  cases hm with
  | unsigned hds =>
    cases hn with
    | unsigned _ => rfl
    | plus _ => exact absurd hds (not_isRun_sign (.inl rfl))
    | minus _ => exact absurd hds (not_isRun_sign (.inr rfl))
  | plus _ =>
    cases hn with
    | unsigned hds => exact absurd hds (not_isRun_sign (.inl rfl))
    | plus _ => rfl
  | minus _ =>
    cases hn with
    | unsigned hds => exact absurd hds (not_isRun_sign (.inr rfl))
    | minus _ => rfl

/-- A number that a text begins with, up to what is no digit, is the number of the whole text or one
of the reasons to refuse it. -/
theorem Writes.fits_or_refuses (h : r.Writes front n)
    (hrest : ∀ c ∈ rest.head?, r.isDigit c = false) :
    (∃ m, r.Writes (front ++ rest) m ∧ FitsInt64 m) ∨ ∃ cause, r.Refuses (front ++ rest) cause := by
  by_cases hlarge : 2 ^ 63 ≤ n
  · exact .inr ⟨_, .tooLarge h hlarge⟩
  · by_cases hsmall : n < -2 ^ 63
    · exact .inr ⟨_, .tooSmall h hsmall⟩
    · have hfits : FitsInt64 n := ⟨by omega, by omega⟩
      cases rest with
      | nil =>
        rw [List.append_nil]
        exact .inl ⟨n, h, hfits⟩
      | cons c rest => exact .inr ⟨_, .stray h hfits (hrest c rfl)⟩

/-- Every text writes a number of 64 bits or is refused. -/
theorem writes_or_refuses (r : Radix) (cs : List Char) :
    (∃ n, r.Writes cs n ∧ FitsInt64 n) ∨ ∃ cause, r.Refuses cs cause := by
  have hstop : ∀ ds : List Char, ∀ c ∈ (ds.dropWhile r.isDigit).head?, r.isDigit c = false := by
    intro ds c hc
    have hhead := List.head?_dropWhile_not r.isDigit ds
    rwa [Option.mem_def.mp hc] at hhead
  -- Digits at the front of a text are followed by what is no digit.
  have hrun : ∀ {c : Char} (ds : List Char), r.isDigit c = true → ∃ front rest,
      c :: ds = front ++ rest ∧ IsRun r.isDigit front ∧ ∀ d ∈ rest.head?, r.isDigit d = false := by
    intro c ds hc
    refine ⟨_, _, List.takeWhile_append_dropWhile.symm, ⟨?_, ?_⟩, hstop (c :: ds)⟩
    · rw [List.takeWhile_cons, if_pos hc]
      exact List.cons_ne_nil _ _
    · exact fun d hd => List.mem_takeWhile_imp hd
  cases cs with
  | nil => exact .inr ⟨_, .empty⟩
  | cons c cs =>
    by_cases hsign : c = '+' ∨ c = '-'
    · by_cases hdigit : ∃ d ds, cs = d :: ds ∧ r.isDigit d = true
      · obtain ⟨d, ds, rfl, hd⟩ := hdigit
        obtain ⟨front, rest, hsplit, hfront, hrest⟩ := hrun ds hd
        rw [hsplit, ← List.cons_append]
        rcases hsign with rfl | rfl
        · exact (Writes.plus hfront).fits_or_refuses hrest
        · exact (Writes.minus hfront).fits_or_refuses hrest
      · refine .inr ⟨_, .noDigits hsign fun d hd => ?_⟩
        rw [← Bool.not_eq_true]
        intro his
        obtain ⟨ds, rfl⟩ := List.head?_eq_some_iff.mp hd
        exact hdigit ⟨d, ds, rfl, his⟩
    · rw [not_or] at hsign
      by_cases hdigit : r.isDigit c = true
      · obtain ⟨front, rest, hsplit, hfront, hrest⟩ := hrun cs hdigit
        rw [hsplit]
        exact (Writes.unsigned hfront).fits_or_refuses hrest
      · rw [Bool.not_eq_true] at hdigit
        exact .inr ⟨_, .noNumber hsign.1 hsign.2 hdigit⟩

end Radix

/-- What is too large for a range is too small for its mirror image. -/
def WholeError.mirror : WholeError → WholeError
  | .tooLarge => .tooSmall
  | .tooSmall => .tooLarge
  | e => e

namespace WholeRange

variable {range : WholeRange} {r : Radix} {c : Char} {cs ds front : List Char} {n : Int}

/-- The range of the negated numbers. -/
def mirror (range : WholeRange) : WholeRange := ⟨-range.high, -range.low⟩

/-- Reading downwards is reading upwards in the mirror image of the range. -/
theorem readDigits_mirror (hle : range.low ≤ range.high) (total : Int) (ds : List Char) :
    range.readDigits r true (-total) ds =
      ((range.mirror.readDigits r false total ds).map Neg.neg).mapError WholeError.mirror := by
  induction ds generalizing total with
  | nil => rfl
  | cons c ds ih =>
    unfold readDigits
    cases r.digit? c with
    | none => rfl
    | some d =>
      have hnext : -total * r.base - d = -(total * r.base + d) := by
        rw [Int.neg_mul, Int.neg_add, Int.sub_eq_add_neg]
      simp only [if_true, Bool.false_eq_true, if_false, hnext, mirror]
      generalize total * r.base + d = next at *
      by_cases hhigh : range.high < -next
      · rw [if_pos hhigh, if_neg (by omega), if_pos (by omega)]
        rfl
      · by_cases hlow : -next < range.low
        · rw [if_neg hhigh, if_pos hlow, if_pos (by omega)]
          rfl
        · rw [if_neg hhigh, if_neg hlow, if_neg (by omega), if_neg (by omega)]
          exact ih next

/-- Digits that are read on after others are read on from their value. -/
theorem readDigits_append (negative : Bool) (total : Int) (ds rest : List Char) :
    range.readDigits r negative total (ds ++ rest) =
      (range.readDigits r negative total ds).bind fun n => range.readDigits r negative n rest := by
  induction ds generalizing total with
  | nil => rfl
  | cons c ds ih =>
    rw [List.cons_append, readDigits, readDigits]
    cases r.digit? c with
    | none => rfl
    | some d =>
      dsimp only
      generalize (if negative then total * r.base - d else total * r.base + d) = next
      by_cases hhigh : range.high < next
      · simp only [if_pos hhigh]
        rfl
      · by_cases hlow : next < range.low
        · simp only [if_neg hhigh, if_pos hlow]
          rfl
        · simp only [if_neg hhigh, if_neg hlow]
          exact ih next

/-- A character that is no digit is refused. -/
theorem readDigits_of_not_isDigit (h : r.isDigit c = false) (negative : Bool) (total : Int)
    (rest : List Char) :
    range.readDigits r negative total (c :: rest) = .error .invalidDigit := by
  rw [readDigits, Radix.digit?_eq_none h]

/-- Digits behind a plus sign are read as if it were not there. -/
theorem readMagnitude_eq_read (hds : IsRun r.isDigit ds) :
    range.readMagnitude r false ds = range.read r ds := by
  obtain ⟨c, cs, rfl⟩ := List.exists_cons_of_ne_nil hds.ne_nil
  obtain ⟨hplus, hminus⟩ := Radix.ne_sign_of_isDigit (hds.all c List.mem_cons_self)
  rw [read, if_neg hplus, if_neg hminus]
  rfl

/-- Digits behind a minus sign are read as the negated number. There is one more below zero than
above it. -/
theorem readMagnitude_minus (hds : IsRun r.isDigit ds) :
    signed64.readMagnitude r true ds =
      if r.number ds ≤ 2 ^ 63 then .ok (-(r.number ds : Int)) else .error .tooSmall := by
  have hhigh : signed64.mirror.high = 2 ^ 63 := rfl
  have hlow : signed64.mirror.low ≤ 0 := by decide
  have hread := readDigits_eq hlow hds.all 0 (by decide)
  rw [Nat.zero_mul, Nat.zero_add, hhigh] at hread
  obtain ⟨c, cs, rfl⟩ := List.exists_cons_of_ne_nil hds.ne_nil
  rw [readMagnitude, show (0 : Int) = -((0 : Nat) : Int) from rfl,
    readDigits_mirror (by decide), hread]
  by_cases hle : r.number (c :: cs) ≤ 2 ^ 63
  · rw [if_pos hle, if_pos (by omega)]
    rfl
  · rw [if_neg hle, if_neg (by omega)]
    rfl

/-- What writes a number is read as it, unless it is out of range. -/
theorem read_of_writes (h : r.Writes cs n) :
    signed64.read r cs =
      if 2 ^ 63 ≤ n then .error .tooLarge
      else if n < -2 ^ 63 then .error .tooSmall else .ok n := by
  have hupwards : ∀ {ds : List Char}, IsRun r.isDigit ds → signed64.read r ds =
      if 2 ^ 63 ≤ (r.number ds : Int) then .error .tooLarge
      else if (r.number ds : Int) < -2 ^ 63 then .error .tooSmall else .ok (r.number ds) := by
    intro ds hds
    rw [read_signed64 hds]
    by_cases hlt : r.number ds < 2 ^ 63
    · rw [if_pos hlt, if_neg (by omega), if_neg (by omega)]
    · rw [if_neg hlt, if_pos (by omega)]
  cases h with
  | unsigned hds => exact hupwards hds
  | @plus ds hds =>
    calc signed64.read r ('+' :: ds)
        = signed64.readMagnitude r false ds := rfl
      _ = signed64.read r ds := readMagnitude_eq_read hds
      _ = _ := hupwards hds
  | @minus ds hds =>
    have hdownwards : signed64.read r ('-' :: ds) = signed64.readMagnitude r true ds := rfl
    rw [hdownwards, readMagnitude_minus hds]
    by_cases hle : r.number ds ≤ 2 ^ 63
    · rw [if_pos hle, if_neg (by omega), if_neg (by omega)]
    · rw [if_neg hle, if_neg (by omega), if_pos (by omega)]

/-- What stands behind a number is read on from it. -/
theorem exists_read_append (h : r.Writes front n) (rest : List Char) :
    ∃ negative, signed64.read r (front ++ rest) =
      (signed64.read r front).bind fun m => signed64.readDigits r negative m rest := by
  cases h with
  | unsigned hds =>
    obtain ⟨c, cs, rfl⟩ := List.exists_cons_of_ne_nil hds.ne_nil
    obtain ⟨hplus, hminus⟩ := Radix.ne_sign_of_isDigit (hds.all c List.mem_cons_self)
    refine ⟨false, ?_⟩
    rw [List.cons_append, read, read, if_neg hplus, if_neg hminus, if_neg hplus, if_neg hminus,
      ← List.cons_append]
    exact readDigits_append false 0 (c :: cs) rest
  | plus hds =>
    obtain ⟨c, cs, rfl⟩ := List.exists_cons_of_ne_nil hds.ne_nil
    exact ⟨false, readDigits_append false 0 (c :: cs) rest⟩
  | minus hds =>
    obtain ⟨c, cs, rfl⟩ := List.exists_cons_of_ne_nil hds.ne_nil
    exact ⟨true, readDigits_append true 0 (c :: cs) rest⟩

theorem read_of_refuses {cause : WholeError} (h : r.Refuses cs cause) :
    signed64.read r cs = .error cause := by
  cases h with
  | empty => rfl
  | noNumber hplus hminus hc =>
    rw [read, if_neg hplus, if_neg hminus]
    exact readDigits_of_not_isDigit hc false 0 _
  | @noDigits sign rest hsign hrest =>
    have hmagnitude : ∀ negative,
        signed64.readMagnitude r negative rest = .error .invalidDigit := by
      intro negative
      cases rest with
      | nil => rfl
      | cons c rest => exact readDigits_of_not_isDigit (hrest c rfl) negative 0 rest
    rcases hsign with rfl | rfl
    · exact hmagnitude false
    · exact hmagnitude true
  | @stray front rest n c hwrites hfits hc =>
    obtain ⟨negative, hread⟩ := exists_read_append hwrites (c :: rest)
    obtain ⟨hlow, hhigh⟩ := hfits
    rw [hread, read_of_writes hwrites, if_neg (by omega), if_neg (by omega)]
    exact readDigits_of_not_isDigit hc negative n rest
  | @tooLarge front rest n hwrites hlarge =>
    obtain ⟨negative, hread⟩ := exists_read_append hwrites rest
    rw [hread, read_of_writes hwrites, if_pos hlarge]
    rfl
  | @tooSmall front rest n hwrites hsmall =>
    obtain ⟨negative, hread⟩ := exists_read_append hwrites rest
    rw [hread, read_of_writes hwrites, if_neg (by omega), if_pos hsmall]
    rfl

end WholeRange

section ReadInt64

variable {r : Radix} {cs : List Char} {v : Int64} {cause : WholeError}

theorem readInt64_of_writes (h : r.Writes cs v.toInt) : readInt64 r cs = .ok v := by
  obtain ⟨hlow, hhigh⟩ := fitsInt64_toInt v
  rw [readInt64, WholeRange.read_of_writes h, if_neg (by omega), if_neg (by omega)]
  simp only [Int64.ofInt_toInt]

theorem readInt64_of_refuses (h : r.Refuses cs cause) : readInt64 r cs = .error cause := by
  rw [readInt64, WholeRange.read_of_refuses h]

theorem exists_writes_or_refuses (r : Radix) (cs : List Char) :
    (∃ v : Int64, r.Writes cs v.toInt) ∨ ∃ cause, r.Refuses cs cause := by
  rcases r.writes_or_refuses cs with ⟨n, hwrites, hfits⟩ | hrefuses
  · rw [← hfits.toInt_ofInt] at hwrites
    exact .inl ⟨_, hwrites⟩
  · exact .inr hrefuses

/-- A text is read as a number of 64 bits exactly if it writes the number. -/
theorem readInt64_eq_ok_iff : readInt64 r cs = .ok v ↔ r.Writes cs v.toInt := by
  refine ⟨fun h => ?_, readInt64_of_writes⟩
  rcases exists_writes_or_refuses r cs with ⟨w, hwrites⟩ | ⟨cause, hrefuses⟩
  · rw [readInt64_of_writes hwrites] at h
    obtain rfl := Except.ok.inj h
    exact hwrites
  · rw [readInt64_of_refuses hrefuses] at h
    cases h

/-- It is not read for the reason for which it is refused. -/
theorem readInt64_eq_error_iff : readInt64 r cs = .error cause ↔ r.Refuses cs cause := by
  refine ⟨fun h => ?_, readInt64_of_refuses⟩
  rcases exists_writes_or_refuses r cs with ⟨w, hwrites⟩ | ⟨cause', hrefuses⟩
  · rw [readInt64_of_writes hwrites] at h
    cases h
  · rw [readInt64_of_refuses hrefuses] at h
    obtain rfl := Except.error.inj h
    exact hrefuses

end ReadInt64

end Reckon
