import Mathlib.Data.List.DropRight
import Mathlib.Order.Interval.Set.Basic
import Reckon.Proofs.Text.Behind

/-! Positions in the order of their offsets. The position of an offset can be told by counting: the
newlines in front of it make up its line, and the characters behind the last of them its column.
From whatever position the text is read on, it makes no difference whether that is done in one move
or in several. Each character that is read leads to a larger position, so that the positions of a
text compare as their offsets do, and two spans of it merge into the smallest one that covers both. -/

namespace Reckon

namespace Position

theorem lt_iff {p q : Position} :
    p < q ↔ p.line < q.line ∨ p.line = q.line ∧
      (p.column < q.column ∨ p.column = q.column ∧ p.offset < q.offset) := by
  change order p q = .lt ↔ _
  simp only [order, Ordering.then_eq_lt, Nat.compare_eq_lt, Nat.compare_eq_eq]

theorem lt_trans {p q r : Position} (hpq : p < q) (hqr : q < r) : p < r := by
  rw [lt_iff] at hpq hqr ⊢
  omega

theorem swap_order (p q : Position) : (p.order q).swap = q.order p := by
  simp only [order, Ordering.swap_then, Nat.compare_swap]

theorem order_self (p : Position) : p.order p = .eq := by
  simp only [order, Ordering.then_eq_eq, Nat.compare_eq_eq, and_self]

/-- A newline leads to a larger line, any other character to a larger column of the same line. -/
theorem lt_after_singleton (p : Position) (c : Char) : p < p.after [c] := by
  rw [lt_iff]
  by_cases hc : c = '\n'
  · left
    rw [after, if_pos hc]
    exact Nat.lt_succ_self p.line
  · right
    rw [after, if_neg hc]
    exact ⟨rfl, .inl (Nat.lt_succ_self p.column)⟩

theorem lt_after (p : Position) {cs : List Char} (hcs : cs ≠ []) : p < p.after cs := by
  -- The columns of several lines do not compare: the order is carried on character by character.
  induction cs generalizing p with
  | nil => exact absurd rfl hcs
  | cons c cs ih =>
    have hstep := p.lt_after_singleton c
    cases cs with
    | nil => exact hstep
    | cons d ds => exact lt_trans hstep (ih (p.after [c]) (List.cons_ne_nil d ds))

theorem column_origin_after (cs : List Char) :
    (origin.after cs).column = (cs.rtakeWhile (· ≠ '\n')).length := by
  induction cs using List.reverseRecOn with
  | nil => rfl
  | append_singleton cs c ih =>
    rw [after_append, List.rtakeWhile_concat]
    by_cases hc : c = '\n'
    · simp [after, hc]
    · simp [after, hc, ih]

end Position

namespace Source

variable {src : Source} {i j k l : Nat} {p : Position}

theorem place_eq_count (h : j ≤ src.length) :
    src.place j =
      ⟨(src.between 0 j).count '\n', ((src.between 0 j).rtakeWhile (· ≠ '\n')).length, j⟩ := by
  have hline : (src.place j).line = (src.between 0 j).count '\n' := by
    rw [place, Position.line_after]
    exact Nat.zero_add _
  have hcolumn : (src.place j).column = ((src.between 0 j).rtakeWhile (· ≠ '\n')).length :=
    Position.column_origin_after _
  change Position.mk (src.place j).line (src.place j).column (src.place j).offset = _
  rw [hline, hcolumn, offset_place h]

theorem walk_add (src : Source) (m n : Nat) (p : Position) :
    src.walk (m + n) p = src.walk m p >>= src.walk n := by
  induction m generalizing p with
  | zero =>
    rw [Nat.zero_add]
    rfl
  | succ m ih =>
    rw [Nat.succ_add, walk, walk]
    cases src.charAt p.offset with
    | none => rfl
    | some c =>
      simp only
      cases p.past c with
      | error cause => rfl
      | ok q => exact ih q

/-- Wherever a move starts, it may be made in two, and a fault of either part is the fault of the
whole. -/
theorem advance_advance (hi : p.offset ≤ i) (hij : i ≤ j) (hj : j ≤ src.length) :
    (do let q ← src.advance p i; src.advance q j) = src.advance p j := by
  have hparts : j - p.offset = (i - p.offset) + (j - i) := by omega
  rw [advance, if_pos ⟨hi, Nat.le_trans hij hj⟩, advance, if_pos ⟨Nat.le_trans hi hij, hj⟩, hparts,
    walk_add]
  cases hwalk : src.walk (i - p.offset) p with
  | error cause => rfl
  | ok q =>
    have hq : q.offset = i := by
      rw [offset_of_walk hwalk]
      omega
    change src.advance q j = src.walk (j - i) q
    rw [advance, hq, if_pos ⟨hij, hj⟩]

theorem place_lt_place (hij : i < j) (hj : j ≤ src.length) : src.place i < src.place j := by
  have hne : src.between i j ≠ [] := by
    rw [← List.length_pos_iff, length_between hj]
    omega
  calc src.place i
      < (src.place i).after (src.between i j) := Position.lt_after _ hne
    _ = src.place j := by
        rw [place, ← Position.after_append, between_append (Nat.zero_le i) (Nat.le_of_lt hij), place]

theorem order_place (hi : i ≤ src.length) (hj : j ≤ src.length) :
    (src.place i).order (src.place j) = compare i j := by
  rcases Nat.lt_trichotomy i j with hlt | rfl | hgt
  · rw [Nat.compare_eq_lt.mpr hlt]
    exact place_lt_place hlt hj
  · rw [Nat.compare_eq_eq.mpr rfl]
    exact Position.order_self _
  · have hback : (src.place j).order (src.place i) = .lt := place_lt_place hgt hi
    rw [Nat.compare_eq_gt.mpr hgt, ← Position.swap_order, hback]
    rfl

theorem place_lt_place_iff (hi : i ≤ src.length) (hj : j ≤ src.length) :
    src.place i < src.place j ↔ i < j := by
  rw [← Nat.compare_eq_lt, ← order_place hi hj]
  rfl

theorem place_le_place_iff (hi : i ≤ src.length) (hj : j ≤ src.length) :
    src.place i ≤ src.place j ↔ i ≤ j := by
  rw [← Nat.isLE_compare, ← order_place hi hj]
  rfl

/-- The span from the place of one offset to the place of another. -/
def stretch (src : Source) (i j : Nat) : Span := ⟨src.place i, src.place j⟩

theorem merge_stretch (hi : i ≤ src.length) (hj : j ≤ src.length) (hk : k ≤ src.length)
    (hl : l ≤ src.length) :
    (src.stretch i j).merge (src.stretch k l) = src.stretch (min i k) (max j l) := by
  simp only [stretch, Span.merge, place_le_place_iff hi hk, place_le_place_iff hl hj]
  rw [max_comm, min_def, max_def, apply_ite src.place, apply_ite src.place]

end Source

namespace Span

/-- Both ends of the span are positions of the text. -/
structure EndsIn (src : Source) (s : Span) : Prop where
  first : src.positionOf s.first.offset = .ok s.first
  last : src.positionOf s.last.offset = .ok s.last

/-- The span `s` begins no later than `t` and ends no earlier. -/
def Covers (s t : Span) : Prop :=
  s.first.offset ≤ t.first.offset ∧ t.last.offset ≤ s.last.offset

/-- The offsets of the characters of the span, of which there are none if it ends before it
begins. -/
def offsets (s : Span) : Set Nat := Set.Icc s.first.offset s.last.offset

/-- The span `s` of the text is the smallest that covers `a` and `b`. -/
structure IsHull (src : Source) (s a b : Span) : Prop where
  endsIn : s.EndsIn src
  covers_iff : ∀ t : Span, t.Covers s ↔ t.Covers a ∧ t.Covers b
  /-- As far as neither span is empty, the same holds of the characters they are made of. -/
  offsets_subset_iff : a.offsets.Nonempty → b.offsets.Nonempty →
    ∀ t : Span, s.offsets ⊆ t.offsets ↔ a.offsets ⊆ t.offsets ∧ b.offsets ⊆ t.offsets

variable {src : Source} {i j : Nat} {s t u : Span}

theorem Covers.refl (s : Span) : s.Covers s := ⟨Nat.le_refl _, Nat.le_refl _⟩

theorem covers_iff_offsets_subset (h : t.offsets.Nonempty) :
    s.Covers t ↔ t.offsets ⊆ s.offsets :=
  (Set.Icc_subset_Icc_iff (Set.nonempty_Icc.mp h)).symm

theorem Covers.nonempty (h : s.Covers t) (ht : t.offsets.Nonempty) : s.offsets.Nonempty :=
  ht.mono ((covers_iff_offsets_subset ht).mp h)

theorem endsIn_stretch (hi : i ≤ src.length) (hj : j ≤ src.length) :
    (src.stretch i j).EndsIn src where
  first := by rw [Source.stretch, Source.offset_place hi, Source.positionOf_eq_place hi]
  last := by rw [Source.stretch, Source.offset_place hj, Source.positionOf_eq_place hj]

theorem EndsIn.exists_stretch (h : s.EndsIn src) :
    ∃ i j, i ≤ src.length ∧ j ≤ src.length ∧ s = src.stretch i j := by
  obtain ⟨hi, hfirst⟩ := Source.eq_place_of_positionOf h.first
  obtain ⟨hj, hlast⟩ := Source.eq_place_of_positionOf h.last
  refine ⟨s.first.offset, s.last.offset, hi, hj, ?_⟩
  rw [Source.stretch, ← hfirst, ← hlast]

theorem merge_self (s : Span) : s.merge s = s := by
  simp only [merge, ite_self]

theorem EndsIn.merge_comm (hs : s.EndsIn src) (ht : t.EndsIn src) : s.merge t = t.merge s := by
  obtain ⟨i, j, hi, hj, rfl⟩ := hs.exists_stretch
  obtain ⟨k, l, hk, hl, rfl⟩ := ht.exists_stretch
  rw [Source.merge_stretch hi hj hk hl, Source.merge_stretch hk hl hi hj, min_comm, max_comm]

theorem EndsIn.merge_assoc (hs : s.EndsIn src) (ht : t.EndsIn src) (hu : u.EndsIn src) :
    (s.merge t).merge u = s.merge (t.merge u) := by
  obtain ⟨i, j, hi, hj, rfl⟩ := hs.exists_stretch
  obtain ⟨k, l, hk, hl, rfl⟩ := ht.exists_stretch
  obtain ⟨m, n, hm, hn, rfl⟩ := hu.exists_stretch
  rw [Source.merge_stretch hi hj hk hl, Source.merge_stretch hk hl hm hn,
    Source.merge_stretch (by omega) (by omega) hm hn,
    Source.merge_stretch hi hj (by omega) (by omega), min_assoc, max_assoc]

theorem covers_stretch_iff (hi : i ≤ src.length) (hj : j ≤ src.length) :
    t.Covers (src.stretch i j) ↔ t.first.offset ≤ i ∧ j ≤ t.last.offset := by
  rw [Covers, Source.stretch, Source.offset_place hi, Source.offset_place hj]

theorem EndsIn.merge (hs : s.EndsIn src) (ht : t.EndsIn src) : (s.merge t).EndsIn src := by
  obtain ⟨i, j, hi, hj, rfl⟩ := hs.exists_stretch
  obtain ⟨k, l, hk, hl, rfl⟩ := ht.exists_stretch
  rw [Source.merge_stretch hi hj hk hl]
  exact endsIn_stretch (by omega) (by omega)

theorem EndsIn.covers_merge_iff (hs : s.EndsIn src) (ht : t.EndsIn src) :
    u.Covers (s.merge t) ↔ u.Covers s ∧ u.Covers t := by
  obtain ⟨i, j, hi, hj, rfl⟩ := hs.exists_stretch
  obtain ⟨k, l, hk, hl, rfl⟩ := ht.exists_stretch
  rw [Source.merge_stretch hi hj hk hl, covers_stretch_iff (by omega) (by omega),
    covers_stretch_iff hi hj, covers_stretch_iff hk hl]
  omega

theorem isHull_merge (hs : s.EndsIn src) (ht : t.EndsIn src) : (s.merge t).IsHull src s t where
  endsIn := hs.merge ht
  covers_iff _ := hs.covers_merge_iff ht
  offsets_subset_iff hsne htne u := by
    -- What covers a span with characters has characters, so the ends tell the offsets of all three.
    have hcovers : (s.merge t).Covers s := ((hs.covers_merge_iff ht).mp (.refl _)).1
    rw [← covers_iff_offsets_subset (hcovers.nonempty hsne), ← covers_iff_offsets_subset hsne,
      ← covers_iff_offsets_subset htne]
    exact hs.covers_merge_iff ht

/-- The ends of a span without characters count as well. -/
example : merge ⟨⟨0, 3, 3⟩, ⟨0, 2, 2⟩⟩ ⟨.origin, .origin⟩ = ⟨.origin, ⟨0, 2, 2⟩⟩ := by decide

end Span

/-- The position of an offset is the one found by counting, and reading on from it leads to the
position of any later offset. From every position, two moves lead to where one does, or to the same
fault, and to no fault as long as the numbers stay words. Positions of a text compare as their
offsets do. Its spans merge into the smallest span that covers them, whatever their order. -/
theorem Source.positions_faithful (src : Source) :
    (∀ i j, i ≤ j → j ≤ src.length → ∃ p q, src.positionOf i = .ok p ∧ src.positionOf j = .ok q ∧
      q = ⟨(src.between 0 j).count '\n', ((src.between 0 j).rtakeWhile (· ≠ '\n')).length, j⟩ ∧
      src.advance p j = .ok q) ∧
    (∀ (p : Position) (i j : Nat), p.offset ≤ i → i ≤ j → j ≤ src.length →
      (do let q ← src.advance p i; src.advance q j) = src.advance p j ∧
      (p.StaysInWords src → ∃ q, src.advance p j = .ok q)) ∧
    (∀ i j p q, src.positionOf i = .ok p → src.positionOf j = .ok q →
      p.order q = compare i j ∧ (i < j ↔ p < q)) ∧
    ∀ a b c : Span, a.EndsIn src → b.EndsIn src → c.EndsIn src →
      a.merge b = b.merge a ∧ (a.merge b).merge c = a.merge (b.merge c) ∧ a.merge a = a ∧
        (a.merge b).IsHull src a b := by
  refine ⟨?counted, ?moves, ?order, ?merge⟩
  case counted =>
    intro i j hij hj
    exact ⟨src.place i, src.place j, positionOf_eq_place (Nat.le_trans hij hj),
      positionOf_eq_place hj, place_eq_count hj, advance_place hij hj⟩
  case moves =>
    intro p i j hi hij hj
    refine ⟨advance_advance hi hij hj, fun hp => ?_⟩
    obtain ⟨q, hq, -⟩ := advance_of_staysInWords hp (Nat.le_trans hi hij) hj
    exact ⟨q, hq⟩
  case order =>
    intro i j p q hp hq
    obtain ⟨hi, rfl⟩ := eq_place_of_positionOf hp
    obtain ⟨hj, rfl⟩ := eq_place_of_positionOf hq
    exact ⟨order_place hi hj, (place_lt_place_iff hi hj).symm⟩
  case merge =>
    intro a b c ha hb hc
    exact ⟨ha.merge_comm hb, ha.merge_assoc hb hc, a.merge_self, Span.isHull_merge ha hb⟩

/-- An empty line in between, a page far down, and two spans that lie apart on different lines. -/
theorem Source.positions_faithful_lines :
    ∃ (src : Source) (p q : Position) (a b : Span),
      src = Source.mk #['a', '\n', '\n', 'b', 'c'] (by decide) ∧
      src.positionOf 1 = .ok p ∧ src.positionOf 4 = .ok q ∧ q = ⟨2, 1, 4⟩ ∧
      src.advance p 4 = .ok q ∧ p < q ∧
      (do let r ← src.advance ⟨70, 3, 1⟩ 2; src.advance r 4) = src.advance ⟨70, 3, 1⟩ 4 ∧
      src.advance ⟨70, 3, 1⟩ 4 = .ok ⟨72, 1, 4⟩ ∧
      a = ⟨⟨2, 0, 3⟩, ⟨2, 1, 4⟩⟩ ∧ b = ⟨⟨0, 0, 0⟩, ⟨0, 1, 1⟩⟩ ∧ a.EndsIn src ∧ b.EndsIn src ∧
      a.merge b = b.merge a ∧ a.merge b = ⟨⟨0, 0, 0⟩, ⟨2, 1, 4⟩⟩ ∧ (a.merge b).IsHull src a b := by
  obtain ⟨hcounted, hmoves, horder, hmerge⟩ :=
    positions_faithful (Source.mk #['a', '\n', '\n', 'b', 'c'] (by decide))
  obtain ⟨p, q, hp, hq, hcount, hadvance⟩ := hcounted 1 4 (by decide) (by decide)
  obtain ⟨hsame, -⟩ := hmoves ⟨70, 3, 1⟩ 2 4 (by decide) (by decide) (by decide)
  have ha : Span.EndsIn (Source.mk #['a', '\n', '\n', 'b', 'c'] (by decide))
      ⟨⟨2, 0, 3⟩, ⟨2, 1, 4⟩⟩ := ⟨rfl, rfl⟩
  have hb : Span.EndsIn (Source.mk #['a', '\n', '\n', 'b', 'c'] (by decide))
      ⟨⟨0, 0, 0⟩, ⟨0, 1, 1⟩⟩ := ⟨rfl, rfl⟩
  obtain ⟨hcomm, -, -, hhull⟩ := hmerge _ _ _ ha hb ha
  exact ⟨_, p, q, _, _, rfl, hp, hq, hcount, hadvance, (horder 1 4 p q hp hq).2.mp (by decide),
    hsame, rfl, rfl, rfl, ha, hb, hcomm, rfl, hhull⟩

end Reckon
