import Reckon.Text.Classes

/-! How the classes of characters keep apart. Letters, digits and white space have no character in
common, and the signs and brackets of expressions are none of them. A character that ends a word is
white space or one of those signs and brackets; neither names nor digits go on with it. -/

namespace Reckon

/-- Tables of which no two ranges meet cover no code point in common. -/
theorem CodeTable.cover_eq_false {table other : CodeTable} {n : Nat}
    (hd : (table.ranges.all fun r =>
      other.ranges.all fun s => r.high < s.low || s.high < r.low) = true)
    (hn : table.cover n = true) : other.cover n = false := by
  rw [← Bool.not_eq_true]
  intro ho
  obtain ⟨r, hr, hrl, hrh⟩ := cover_eq_true_iff.mp hn
  obtain ⟨s, hs, hsl, hsh⟩ := cover_eq_true_iff.mp ho
  have hall := List.all_eq_true.mp (List.all_eq_true.mp hd r hr) s hs
  simp only [Bool.or_eq_true, decide_eq_true_eq] at hall
  omega

/-- The code points of the digits of all bases. -/
def hexDigitRanges : CodeTable where
  ranges := [⟨48, 57⟩, ⟨65, 70⟩, ⟨97, 102⟩]

theorem bounds_of_isDecimalDigit {c : Char} (h : isDecimalDigit c = true) :
    48 ≤ c.toNat ∧ c.toNat ≤ 57 := by
  simp only [isDecimalDigit, Bool.and_eq_true, decide_eq_true_eq, Char.le_def,
    UInt32.le_iff_toNat_le] at h
  exact h

theorem cover_hexDigitRanges {c : Char} (h : isHexDigit c = true) :
    hexDigitRanges.cover c.toNat = true := by
  have hcases : (48 ≤ c.toNat ∧ c.toNat ≤ 57) ∨ (97 ≤ c.toNat ∧ c.toNat ≤ 102) ∨
      (65 ≤ c.toNat ∧ c.toNat ≤ 70) := by
    simp only [isHexDigit, isDecimalDigit, Bool.or_eq_true, Bool.and_eq_true, decide_eq_true_eq,
      Char.le_def, UInt32.le_iff_toNat_le, or_assoc] at h
    exact h
  rw [CodeTable.cover_eq_true_iff]
  rcases hcases with hdigit | hlower | hupper
  · exact ⟨⟨48, 57⟩, by decide, hdigit⟩
  · exact ⟨⟨97, 102⟩, by decide, hlower⟩
  · exact ⟨⟨65, 70⟩, by decide, hupper⟩

theorem isHexDigit_of_isDecimalDigit {c : Char} (h : isDecimalDigit c = true) :
    isHexDigit c = true := by
  rw [isHexDigit, h, Bool.true_or, Bool.true_or]

theorem isDecimalDigit_of_isOctalDigit {c : Char} (h : isOctalDigit c = true) :
    isDecimalDigit c = true := by
  simp only [isOctalDigit, isDecimalDigit, Bool.and_eq_true, decide_eq_true_eq, Char.le_def,
    UInt32.le_iff_toNat_le] at h ⊢
  exact ⟨h.1, Nat.le_trans h.2 (by decide)⟩

theorem isDecimalDigit_of_isBinaryDigit {c : Char} (h : isBinaryDigit c = true) :
    isDecimalDigit c = true := by
  simp only [isBinaryDigit, Bool.or_eq_true, beq_iff_eq] at h
  rcases h with rfl | rfl <;> decide

theorem isWhiteSpace_of_isHexDigit {c : Char} (h : isHexDigit c = true) :
    isWhiteSpace c = false := by
  apply CodeTable.cover_eq_false _ (cover_hexDigitRanges h)
  decide

theorem isAlphabetic_of_isDecimalDigit {c : Char} (h : isDecimalDigit c = true) :
    isAlphabetic c = false := by
  have hcover : (CodeTable.mk [⟨48, 57⟩]).cover c.toNat = true :=
    CodeTable.cover_eq_true_iff.mpr ⟨_, List.mem_singleton_self _, bounds_of_isDecimalDigit h⟩
  apply CodeTable.cover_eq_false _ hcover
  decide +kernel

theorem isAlphabetic_of_isWhiteSpace {c : Char} (h : isWhiteSpace c = true) :
    isAlphabetic c = false := by
  apply CodeTable.cover_eq_false _ h
  decide +kernel

/-- White space, and the characters of brackets, operators and comments. -/
def endsWord (c : Char) : Bool := isWhiteSpace c || ['{', '(', ')', '+', '-', '*', '/'].contains c

theorem endsWord_cases {c : Char} (h : endsWord c = true) :
    isWhiteSpace c = true ∨ c ∈ ['{', '(', ')', '+', '-', '*', '/'] := by
  simpa only [endsWord, Bool.or_eq_true, List.contains_iff_mem] using h

/-- No name goes on with a character that ends a word. -/
theorem isNamePart_of_endsWord {c : Char} (h : endsWord c = true) : isNamePart c = false := by
  rcases endsWord_cases h with hw | hc
  · have halpha := isAlphabetic_of_isWhiteSpace hw
    have hdigit : isDecimalDigit c = false := by
      rw [← Bool.not_eq_true]
      intro hd
      rw [isWhiteSpace_of_isHexDigit (isHexDigit_of_isDecimalDigit hd)] at hw
      cases hw
    have hunder : c ≠ '_' := by
      rintro rfl
      revert hw
      decide
    simp [isNamePart, isNameStart, halpha, hdigit, hunder]
  · simp only [List.mem_cons, List.not_mem_nil, or_false] at hc
    rcases hc with rfl | rfl | rfl | rfl | rfl | rfl | rfl <;> decide

/-- No number goes on with a character that ends a word. -/
theorem isHexDigit_of_endsWord {c : Char} (h : endsWord c = true) : isHexDigit c = false := by
  rcases endsWord_cases h with hw | hc
  · rw [← Bool.not_eq_true]
    intro hd
    rw [isWhiteSpace_of_isHexDigit hd] at hw
    cases hw
  · simp only [List.mem_cons, List.not_mem_nil, or_false] at hc
    rcases hc with rfl | rfl | rfl | rfl | rfl | rfl | rfl <;> decide

/-- No name begins with a character that ends words. -/
theorem endsWord_of_isNameStart {c : Char} (h : isNameStart c = true) : endsWord c = false := by
  rw [← Bool.not_eq_true]
  intro he
  have hpart := isNamePart_of_endsWord he
  rw [isNamePart, h] at hpart
  cases hpart

theorem isWhiteSpace_of_endsWord {c : Char} (h : endsWord c = false) : isWhiteSpace c = false := by
  rw [endsWord, Bool.or_eq_false_iff] at h
  exact h.1

end Reckon
