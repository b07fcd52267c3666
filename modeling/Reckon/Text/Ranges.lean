/-! Sets of characters given as tables of code point ranges. The ranges of a table are in ascending
order and do not meet, so that a code point is looked for from the front and found, if at all, in
the first range that does not lie below it. -/

namespace Reckon

/-- The code points from `low` through `high`. -/
structure CodeRange where
  low : Nat
  high : Nat
  deriving DecidableEq

namespace CodeRange

/-- Each range is non-empty and ends before the next one starts. -/
def ascending : List CodeRange → Bool
  | [] => true
  | [r] => r.low ≤ r.high
  | r :: s :: rs => r.low ≤ r.high && r.high < s.low && ascending (s :: rs)

theorem ascending_of_cons {r : CodeRange} {rs : List CodeRange} (h : ascending (r :: rs) = true) :
    ascending rs = true := by
  cases rs with
  | nil => rfl
  | cons s rs =>
    rw [ascending, Bool.and_eq_true] at h
    exact h.2

theorem lt_of_ascending {r : CodeRange} {rs : List CodeRange} (h : ascending (r :: rs) = true) :
    ∀ s ∈ rs, r.high < s.low := by
  induction rs generalizing r with
  | nil => exact List.forall_mem_nil _
  | cons s rs ih =>
    simp only [ascending, Bool.and_eq_true, decide_eq_true_eq] at h
    obtain ⟨⟨-, hrs⟩, hrest⟩ := h
    have hs : s.low ≤ s.high := by
      cases rs with
      | nil => simpa [ascending] using hrest
      | cons t rs =>
        simp only [ascending, Bool.and_eq_true, decide_eq_true_eq] at hrest
        exact hrest.1.1
    refine List.forall_mem_cons.mpr ⟨hrs, fun t ht => ?_⟩
    have hst := ih hrest t ht
    omega

end CodeRange

/-- A set of code points as ranges in ascending order. -/
structure CodeTable where
  ranges : List CodeRange
  ascending : CodeRange.ascending ranges = true := by decide

namespace CodeTable

/-- Whether a code point is in one of the ranges. -/
def cover (table : CodeTable) (n : Nat) : Bool :=
  (table.ranges.find? fun r => n ≤ r.high).any fun r => r.low ≤ n

theorem cover_eq_true_iff {table : CodeTable} {n : Nat} :
    table.cover n = true ↔ ∃ r ∈ table.ranges, r.low ≤ n ∧ n ≤ r.high := by
  obtain ⟨rs, hrs⟩ := table
  simp only [cover]
  induction rs with
  | nil => simp
  | cons r rs ih =>
    simp only [List.find?_cons, List.mem_cons, exists_eq_or_imp]
    by_cases hr : n ≤ r.high
    · simp only [hr, decide_true, Option.any_some, decide_eq_true_eq, and_true]
      refine ⟨.inl, ?_⟩
      rintro (hlow | ⟨s, hs, hlow, -⟩)
      · exact hlow
      · -- The other ranges begin behind the end of this one.
        have hlt := CodeRange.lt_of_ascending hrs s hs
        omega
    · simp only [hr, decide_false, and_false, false_or]
      exact ih (CodeRange.ascending_of_cons hrs)

end CodeTable

end Reckon
