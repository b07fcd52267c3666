import Reckon.Text.Source

/-! The places of a text. Every offset has one position, which is found by reading the text up to
there, and moving on from the place of one offset leads to the place of another. The characters
between two offsets are cut out of the text by what comes before the first and after the second. -/

namespace Reckon

/-- Neither the line nor the column leaves the machine words before the end of the text. -/
structure Position.FitsIn (src : Source) (p : Position) : Prop where
  line : p.line + (src.length - p.offset) < wordLimit
  column : p.column + (src.length - p.offset) < wordLimit

/-- However far the text is read on from the position, its line and its column are machine words. -/
def Position.StaysInWords (src : Source) (p : Position) : Prop :=
  ∀ n, (p.after ((src.rest p.offset).take n)).line < wordLimit ∧
    (p.after ((src.rest p.offset).take n)).column < wordLimit

theorem Position.FitsIn.staysInWords {src : Source} {p : Position} (h : p.FitsIn src) :
    p.StaysInWords src := by
  intro n
  obtain ⟨hl, hc⟩ := h
  have hlen : ((src.rest p.offset).take n).length ≤ src.length - p.offset := by
    rw [List.length_take, Source.length_rest]
    exact Nat.min_le_right _ _
  have hline := p.line_after_le ((src.rest p.offset).take n)
  have hcol := p.column_after_le ((src.rest p.offset).take n)
  omega

/-- One character on, the numbers stay words. -/
theorem Position.StaysInWords.past {src : Source} {p : Position} {c : Char}
    (h : p.StaysInWords src) (hc : src.charAt p.offset = some c) :
    ∃ q, p.past c = .ok q ∧ q.StaysInWords src := by
  have hrest := Source.rest_of_charAt hc
  have hnext := h 1
  rw [hrest, List.take_succ_cons, List.take_zero] at hnext
  refine ⟨p.after [c], ?_, fun n => ?_⟩
  · unfold Position.past
    by_cases hnl : c = '\n'
    · rw [after, if_pos hnl] at hnext ⊢
      rw [if_pos hnl, nextWord_of_lt hnext.1]
      rfl
    · rw [after, if_neg hnl] at hnext ⊢
      rw [if_neg hnl, nextWord_of_lt hnext.2]
      rfl
  · have hon := h (n + 1)
    rw [hrest, List.take_succ_cons, ← List.singleton_append, after_append] at hon
    rw [offset_after]
    exact hon

theorem Position.offset_of_past {p q : Position} {c : Char} (h : p.past c = .ok q) :
    q.offset = p.offset + 1 := by
  rw [past] at h
  split at h
  · split at h
    · cases h
      rfl
    · cases h
  · split at h
    · cases h
      rfl
    · cases h

namespace Source

theorem offset_of_walk {src : Source} {n : Nat} {p q : Position} (h : src.walk n p = .ok q) :
    q.offset = p.offset + n := by
  induction n generalizing p with
  | zero =>
    obtain rfl := Except.ok.inj h
    rfl
  | succ n ih =>
    rw [walk] at h
    split at h
    · cases h
    · split at h
      · cases h
      · rename_i c _ m hpast
        rw [ih h, Position.offset_of_past hpast]
        omega

/-- Wherever a move starts, it leads to the offset that was asked for. -/
theorem offset_of_advance {src : Source} {p q : Position} {j : Nat}
    (h : src.advance p j = .ok q) : q.offset = j := by
  rw [advance] at h
  split at h
  · rw [offset_of_walk h]
    omega
  · cases h

theorem walk_of_staysInWords {src : Source} {n : Nat} {p : Position} (hp : p.StaysInWords src)
    (hn : p.offset + n ≤ src.length) : ∃ q, src.walk n p = .ok q ∧ q.StaysInWords src := by
  induction n generalizing p with
  | zero => exact ⟨p, rfl, hp⟩
  | succ n ih =>
    rw [walk]
    cases hc : src.charAt p.offset with
    | none =>
      have hend := charAt_eq_none_iff.mp hc
      omega
    | some c =>
      obtain ⟨q, hpast, hq⟩ := hp.past hc
      have hoff := Position.offset_of_past hpast
      simp only [hpast]
      exact ih hq (by omega)

/-- As long as the numbers stay words every later offset of the text can be reached. -/
theorem advance_of_staysInWords {src : Source} {p : Position} {j : Nat} (hp : p.StaysInWords src)
    (ho : p.offset ≤ j) (hj : j ≤ src.length) :
    ∃ q, src.advance p j = .ok q ∧ q.offset = j ∧ q.StaysInWords src := by
  obtain ⟨q, hwalk, hq⟩ := walk_of_staysInWords (n := j - p.offset) hp (by omega)
  have hadvance : src.advance p j = .ok q := by
    rw [advance, if_pos ⟨ho, hj⟩, hwalk]
  exact ⟨q, hadvance, offset_of_advance hadvance, hq⟩

/-- The characters from offset `i` up to offset `j`, the one at `j` not included. -/
def between (src : Source) (i j : Nat) : List Char := (src.rest i).take (j - i)

theorem length_between {src : Source} {i j : Nat} (hj : j ≤ src.length) :
    (src.between i j).length = j - i := by
  rw [between, List.length_take, length_rest]
  omega

theorem rest_add (src : Source) (i n : Nat) : src.rest (i + n) = (src.rest i).drop n := by
  rw [rest, rest, List.drop_drop]

theorem between_append_rest {src : Source} {i j : Nat} (hij : i ≤ j) :
    src.between i j ++ src.rest j = src.rest i := by
  obtain ⟨n, rfl⟩ := Nat.exists_eq_add_of_le hij
  rw [between, rest_add, Nat.add_sub_cancel_left, List.take_append_drop]

theorem between_append {src : Source} {i m j : Nat} (him : i ≤ m) (hmj : m ≤ j) :
    src.between i m ++ src.between m j = src.between i j := by
  obtain ⟨n, rfl⟩ := Nat.exists_eq_add_of_le him
  obtain ⟨k, rfl⟩ := Nat.exists_eq_add_of_le hmj
  rw [between, between, between, rest_add, Nat.add_sub_cancel_left, Nat.add_sub_cancel_left,
    show i + n + k - i = n + k by omega, List.take_add]

theorem between_self (src : Source) (i : Nat) : src.between i i = [] := by
  rw [between, Nat.sub_self, List.take_zero]

theorem mem_between_iff {src : Source} {i j : Nat} {c : Char} :
    c ∈ src.between i j ↔ ∃ k, i ≤ k ∧ k < j ∧ src.charAt k = some c := by
  rw [between, rest, List.mem_iff_getElem?]
  constructor
  · rintro ⟨n, hn⟩
    rw [List.getElem?_take] at hn
    split at hn
    · rw [List.getElem?_drop, ← charAt_eq_getElem?] at hn
      exact ⟨i + n, by omega, by omega, hn⟩
    · cases hn
  · rintro ⟨k, hik, hkj, hc⟩
    refine ⟨k - i, ?_⟩
    rw [List.getElem?_take_of_lt (by omega), List.getElem?_drop, ← charAt_eq_getElem?,
      show i + (k - i) = k by omega]
    exact hc

/-- What the text begins with at an offset are the characters between two offsets. -/
theorem between_of_rest {src : Source} {i : Nat} {cs tail : List Char}
    (h : src.rest i = cs ++ tail) : src.between i (i + cs.length) = cs := by
  rw [between, h, Nat.add_sub_cancel_left, List.take_left']
  rfl

theorem rest_of_rest {src : Source} {i : Nat} {cs tail : List Char} (h : src.rest i = cs ++ tail) :
    src.rest (i + cs.length) = tail := by
  rw [rest_add, h, List.drop_left']
  rfl

theorem le_length_of_rest {src : Source} {i : Nat} {cs tail : List Char}
    (h : src.rest i = cs ++ tail) (hcs : cs ≠ []) : i + cs.length ≤ src.length := by
  have hlen := congrArg List.length h
  have hpos := List.length_pos_iff.mpr hcs
  rw [length_rest, List.length_append] at hlen
  omega

theorem charAt_of_rest {src : Source} {i : Nat} {c : Char} {tail : List Char}
    (h : src.rest i = c :: tail) : src.charAt i = some c := by
  rw [charAt_eq_getElem?]
  have hhead : (src.chars.toList.drop i)[0]? = some c := by rw [← rest, h]; rfl
  rwa [List.getElem?_drop, Nat.add_zero] at hhead

/-- A stretch of text that is cut out by its first and last offsets. -/
theorem slice_eq_between {src : Source} {i j : Nat} (hij : i < j) (hj : j ≤ src.length) :
    src.slice i (j - 1) = .ok (String.ofList (src.between i j)) := by
  have hj1 : j - 1 + 1 = j := by omega
  rw [slice, hj1, if_pos ⟨by omega, hj⟩, between, rest, Array.toList_extract,
    List.extract_eq_take_drop]

def place (src : Source) (i : Nat) : Position := Position.origin.after (src.between 0 i)

theorem positionOf_eq_place {src : Source} {i : Nat} (h : i ≤ src.length) :
    src.positionOf i = .ok (src.place i) :=
  positionOf_eq h

theorem eq_place_of_positionOf {src : Source} {i : Nat} {p : Position}
    (h : src.positionOf i = .ok p) : i ≤ src.length ∧ p = src.place i := by
  by_cases hi : i ≤ src.length
  · rw [positionOf_eq_place hi] at h
    exact ⟨hi, (Except.ok.inj h).symm⟩
  · rw [positionOf, advance, if_neg (fun hin => hi hin.2)] at h
    cases h

theorem place_zero (src : Source) : src.place 0 = .origin := by
  rw [place, between_self]
  rfl

theorem offset_place {src : Source} {i : Nat} (h : i ≤ src.length) :
    (src.place i).offset = i := by
  rw [place, Position.offset_after, length_between h]
  simp [Position.origin]

theorem fitsIn_place {src : Source} {i : Nat} (h : i ≤ src.length) : (src.place i).FitsIn src := by
  have hs : src.length < wordLimit := src.size_lt
  have hlen := src.length_between (i := 0) h
  have hline := Position.line_after_le Position.origin (src.between 0 i)
  have hcol := Position.column_after_le Position.origin (src.between 0 i)
  simp only [Position.origin] at hline hcol
  constructor
  · rw [offset_place h]
    simp only [place, Position.origin]
    omega
  · rw [offset_place h]
    simp only [place, Position.origin]
    omega

/-- Moving on from the place of one offset leads to the place of another. -/
theorem advance_place {src : Source} {i j : Nat} (hij : i ≤ j) (hj : j ≤ src.length) :
    src.advance (src.place i) j = .ok (src.place j) := by
  have hi : i ≤ src.length := Nat.le_trans hij hj
  have ho := offset_place hi
  obtain ⟨hl, hc⟩ := fitsIn_place hi
  rw [ho] at hl hc
  rw [advance_eq_after (by omega) hj (by omega) (by omega), ho]
  change Except.ok ((src.place i).after (src.between i j)) = _
  rw [place, ← Position.after_append, between_append (Nat.zero_le i) hij, place]

/-- The characters from offset `i` up to offset `j` are `cs`. -/
structure Carries (src : Source) (i j : Nat) (cs : List Char) : Prop where
  le : i ≤ j
  le_length : j ≤ src.length
  between_eq : src.between i j = cs

theorem carries_all (src : Source) : src.Carries 0 src.length src.chars.toList where
  le := Nat.zero_le _
  le_length := Nat.le_refl _
  between_eq := by
    rw [between, rest, List.drop_zero, Nat.sub_zero]
    exact List.take_of_length_le (by simp [length])

namespace Carries

variable {src : Source} {i j : Nat} {c : Char} {cs ds : List Char}

theorem start_le (h : src.Carries i j cs) : i ≤ src.length :=
  Nat.le_trans h.le h.le_length

theorem rest_eq (h : src.Carries i j cs) : src.rest i = cs ++ src.rest j := by
  rw [← h.between_eq, between_append_rest h.le]

theorem length_eq (h : src.Carries i j cs) : i + cs.length = j := by
  have hlen := length_between (i := i) h.le_length
  have hle := h.le
  rw [h.between_eq] at hlen
  omega

/-- What is written in two parts is written one part after the other. -/
theorem split (h : src.Carries i j (cs ++ ds)) : ∃ m, src.Carries i m cs ∧ src.Carries m j ds := by
  have hlen := h.length_eq
  have hle := h.le_length
  rw [List.length_append] at hlen
  have hrest := h.rest_eq
  rw [List.append_assoc] at hrest
  have hmid := rest_of_rest hrest
  refine ⟨i + cs.length, ⟨by omega, by omega, between_of_rest hrest⟩, ⟨by omega, hle, ?_⟩⟩
  have hds := between_of_rest hmid
  rwa [show i + cs.length + ds.length = j by omega] at hds

theorem append {m : Nat} (h : src.Carries i m cs) (h' : src.Carries m j ds) :
    src.Carries i j (cs ++ ds) where
  le := Nat.le_trans h.le h'.le
  le_length := h'.le_length
  between_eq := by rw [← between_append h.le h'.le, h.between_eq, h'.between_eq]

theorem uncons (h : src.Carries i j (c :: cs)) :
    src.Carries i (i + 1) [c] ∧ src.Carries (i + 1) j cs := by
  rw [← List.singleton_append] at h
  obtain ⟨m, hc, hcs⟩ := h.split
  obtain rfl : i + 1 = m := hc.length_eq
  exact ⟨hc, hcs⟩

theorem charAt_eq (h : src.Carries i j (c :: cs)) : src.charAt i = some c :=
  charAt_of_rest h.rest_eq

/-- What holds of the first character holds of the character at `i`. -/
theorem forall_charAt {P : Char → Prop} (h : src.Carries i j (c :: cs)) (hc : P c) :
    ∀ d ∈ src.charAt i, P d := by
  rw [h.charAt_eq]
  rintro _ ⟨⟩
  exact hc

theorem startsWithAt_eq (h : src.Carries i j cs) : src.startsWithAt i cs = true :=
  startsWithAt_iff.mpr ⟨_, h.rest_eq.symm⟩

theorem lt (h : src.Carries i j cs) (hne : cs ≠ []) : i < j := by
  have hlen := h.length_eq
  have hpos := List.length_pos_iff.mpr hne
  omega

end Carries

/-- What is left of the text tells the character at its offset. -/
theorem Carries.charAt_eq_head? {src : Source} {i : Nat} {cs : List Char}
    (h : src.Carries i src.length cs) : src.charAt i = cs.head? := by
  cases cs with
  | nil =>
    obtain rfl : i = src.length := h.length_eq
    exact charAt_eq_none_iff.mpr (Nat.le_refl _)
  | cons c cs => exact h.charAt_eq

theorem carries_of_rest {src : Source} {i : Nat} {cs tail : List Char}
    (h : src.rest i = cs ++ tail) (hne : cs ≠ []) : src.Carries i (i + cs.length) cs :=
  ⟨Nat.le_add_right _ _, le_length_of_rest h hne, between_of_rest h⟩

theorem carries_singleton {src : Source} {i : Nat} {c : Char} (h : src.charAt i = some c) :
    src.Carries i (i + 1) [c] := by
  have hrest : src.rest i = [c] ++ src.rest (i + 1) := rest_of_charAt h
  exact carries_of_rest hrest (List.cons_ne_nil _ _)

/-- Either a character stands there that passes the test or none does. -/
theorem passes_or_fails (src : Source) (i : Nat) (test : Char → Bool) :
    (∃ c, src.charAt i = some c ∧ test c = true) ∨ ∀ c ∈ src.charAt i, test c = false := by
  cases hc : src.charAt i with
  | none => exact .inr nofun
  | some c =>
    cases htest : test c with
    | true => exact .inl ⟨c, rfl, htest⟩
    | false =>
      refine .inr ?_
      rintro _ ⟨⟩
      exact htest

/-- A character and all those behind it that pass a test, up to one that does not. -/
theorem exists_carries_takeWhile {src : Source} {i : Nat} {c : Char} (test : Char → Bool)
    (h : src.charAt i = some c) :
    ∃ j, src.Carries i j (c :: (src.rest (i + 1)).takeWhile test) ∧
      ∀ d ∈ src.charAt j, test d = false := by
  have hrest : src.rest i = (c :: (src.rest (i + 1)).takeWhile test) ++
      (src.rest (i + 1)).dropWhile test := by
    rw [List.cons_append, List.takeWhile_append_dropWhile, rest_of_charAt h]
  refine ⟨_, carries_of_rest hrest (List.cons_ne_nil _ _), fun d hd => ?_⟩
  have htail := (rest_of_charAt hd).symm.trans (rest_of_rest hrest)
  have hhead := List.head?_dropWhile_not test (src.rest (i + 1))
  rw [← htail] at hhead
  simpa using hhead

/-- Where a character passes a test there are one or more that do, up to one that does not. -/
theorem exists_carries_run {src : Source} {i : Nat} {c : Char} {test : Char → Bool}
    (h : src.charAt i = some c) (hc : test c = true) :
    ∃ j cs, src.Carries i j cs ∧ cs ≠ [] ∧ (∀ d ∈ cs, test d = true) ∧
      ∀ d ∈ src.charAt j, test d = false := by
  obtain ⟨j, hcarries, hstop⟩ := exists_carries_takeWhile test h
  have hall : ∀ d ∈ c :: (src.rest (i + 1)).takeWhile test, test d = true :=
    List.forall_mem_cons.mpr ⟨hc, List.all_eq_true.mp List.all_takeWhile⟩
  exact ⟨j, _, hcarries, List.cons_ne_nil _ _, hall, hstop⟩

end Source

end Reckon
