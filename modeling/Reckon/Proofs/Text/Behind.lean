import Reckon.Proofs.Text.Place

/-! Texts behind other texts. The end of a text is a text of its own. Its offsets are counted from
where it begins, and so are its lines and the columns of its first line; the columns of its other
lines are those of the whole text. Questions about what comes next have the same answers in both. -/

namespace Reckon

namespace Position

/-- The place in a whole text of what stands at `p` in the end of it that begins at `base`. -/
def behind (p base : Position) : Position where
  line := base.line + p.line
  column := if p.line = 0 then base.column + p.column else p.column
  offset := base.offset + p.offset

theorem origin_behind (base : Position) : origin.behind base = base := rfl

theorem behind_after (p base : Position) (cs : List Char) :
    (p.after cs).behind base = (p.behind base).after cs := by
  induction cs generalizing p with
  | nil => rfl
  | cons c cs ih =>
    rw [after, after, ih]
    split
    · simp [behind, Nat.add_assoc]
    · congr 1
      simp only [behind, mk.injEq, Nat.add_assoc, true_and, and_true]
      split <;> rfl

theorem line_after (p : Position) (cs : List Char) :
    (p.after cs).line = p.line + cs.count '\n' := by
  induction cs generalizing p with
  | nil => rfl
  | cons c cs ih =>
    rw [after, ih, List.count_cons]
    split
    · simp_all
      omega
    · simp_all

end Position

namespace Source

/-- The text `src` is the end of the text `whole` from offset `o` on. -/
structure Ends (src whole : Source) (o : Nat) : Prop where
  length_eq : o + src.length = whole.length
  rest_eq : ∀ i, whole.rest (o + i) = src.rest i

theorem ends_of_append {src whole : Source} {before : List Char}
    (h : whole.chars.toList = before ++ src.chars.toList) : src.Ends whole before.length where
  length_eq := by
    have hlen := congrArg List.length h
    rw [List.length_append, Array.length_toList, Array.length_toList] at hlen
    exact hlen.symm
  rest_eq i := by
    rw [rest, rest, h, List.drop_append, Nat.add_sub_cancel_left,
      List.drop_eq_nil_of_le (Nat.le_add_right _ _), List.nil_append]

/-- The characters from an offset on are a text of their own. -/
theorem exists_ends {whole : Source} {o : Nat} (ho : o ≤ whole.length) :
    ∃ src : Source, src.Ends whole o := by
  have hlen := whole.length_between (i := 0) ho
  have hrest := whole.length_rest o
  have hsize : whole.length < wordLimit := whole.size_lt
  let src : Source := ⟨(whole.rest o).toArray, by rw [List.size_toArray]; omega⟩
  have happend : whole.chars.toList = whole.between 0 o ++ src.chars.toList :=
    (between_append_rest (Nat.zero_le o)).symm
  have hends := ends_of_append happend
  rw [hlen, Nat.sub_zero] at hends
  exact ⟨src, hends⟩

namespace Ends

variable {src whole : Source} {o i j : Nat} {cs : List Char}

theorem charAt_eq (h : src.Ends whole o) (i : Nat) : whole.charAt (o + i) = src.charAt i := by
  have hhead : ∀ (s : Source) (k : Nat), s.charAt k = (s.rest k).head? := by
    intro s k
    rw [charAt_eq_getElem?, rest, List.head?_drop]
  rw [hhead, hhead, h.rest_eq]

theorem startsWithAt_eq (h : src.Ends whole o) (i : Nat) (cs : List Char) :
    whole.startsWithAt (o + i) cs = src.startsWithAt i cs := by
  rw [Bool.eq_iff_iff, startsWithAt_iff, startsWithAt_iff, h.rest_eq]

theorem between_eq (h : src.Ends whole o) (i j : Nat) :
    whole.between (o + i) (o + j) = src.between i j := by
  rw [between, between, h.rest_eq, Nat.add_sub_add_left]

theorem le_length (h : src.Ends whole o) (hi : i ≤ src.length) : o + i ≤ whole.length :=
  h.length_eq ▸ Nat.add_le_add_left hi o

theorem carries (h : src.Ends whole o) (hc : src.Carries i j cs) :
    whole.Carries (o + i) (o + j) cs where
  le := Nat.add_le_add_left hc.le o
  le_length := h.le_length hc.le_length
  between_eq := (h.between_eq i j).trans hc.between_eq

/-- Each place of the text is moved behind the text in front of it. -/
theorem place_eq (h : src.Ends whole o) (i : Nat) :
    whole.place (o + i) = (src.place i).behind (whole.place o) := by
  have hbetween := h.between_eq 0 i
  rw [Nat.add_zero] at hbetween
  calc whole.place (o + i)
      = (whole.place o).after (whole.between o (o + i)) := by
        rw [place, ← between_append (Nat.zero_le o) (Nat.le_add_right o i), Position.after_append,
          place]
    _ = (Position.origin.behind (whole.place o)).after (src.between 0 i) := by
        rw [hbetween, Position.origin_behind]
    _ = (src.place i).behind (whole.place o) := by
        rw [← Position.behind_after]
        rfl

end Ends

end Source

end Reckon
