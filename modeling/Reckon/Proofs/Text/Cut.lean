import Reckon.Proofs.Token.Tiles

/-! Texts that are cut off. The beginning of a text is a text of its own, which has the same
characters at the same places up to where it is cut. A sequence that stands in the beginning stands
in the whole text, and what stands in the whole text stands in the beginning if it ends in time. -/

namespace Reckon.Source

/-- The text `own` is the beginning of the text `src`. -/
structure Begins (own src : Source) : Prop where
  le_length : own.length ≤ src.length
  between_eq : ∀ i j, j ≤ own.length → own.between i j = src.between i j

theorem begins_refl (src : Source) : src.Begins src where
  le_length := Nat.le_refl _
  between_eq _ _ _ := rfl

theorem begins_of_append {own src : Source} {after : List Char}
    (h : src.chars.toList = own.chars.toList ++ after) : own.Begins src where
  le_length := by
    have hlen := congrArg List.length h
    rw [List.length_append, Array.length_toList, Array.length_toList] at hlen
    exact Nat.le.intro hlen.symm
  between_eq i j hj := by
    have hsize : own.chars.toList.length = own.length := Array.length_toList
    rw [between, between, rest, rest, h, ← List.drop_take, ← List.drop_take,
      List.take_append_of_le_length (by omega)]

namespace Begins

variable {own src : Source} {i j : Nat} {c : Char} {cs : List Char}

theorem carries (h : own.Begins src) (hc : own.Carries i j cs) : src.Carries i j cs where
  le := hc.le
  le_length := Nat.le_trans hc.le_length h.le_length
  between_eq := (h.between_eq i j hc.le_length).symm.trans hc.between_eq

theorem carries_of_le (h : own.Begins src) (hj : j ≤ own.length) (hc : src.Carries i j cs) :
    own.Carries i j cs where
  le := hc.le
  le_length := hj
  between_eq := (h.between_eq i j hj).trans hc.between_eq

theorem charAt (h : own.Begins src) (hc : own.charAt i = some c) : src.charAt i = some c :=
  (h.carries (carries_singleton hc)).charAt_eq

theorem place_eq (h : own.Begins src) (hi : i ≤ own.length) : own.place i = src.place i := by
  rw [place, place, h.between_eq 0 i hi]

theorem leaf_eq (h : own.Begins src) (kind : LeafKind) (hij : i ≤ j) (hj : j ≤ own.length) :
    own.leaf kind i j = src.leaf kind i j := by
  rw [leaf, leaf, h.between_eq i j hj, h.place_eq (Nat.le_trans hij hj), h.place_eq (by omega)]

theorem startsWithAt (h : own.Begins src) (hs : own.startsWithAt i cs = true) :
    src.startsWithAt i cs = true := by
  cases cs with
  | nil => rfl
  | cons c cs =>
    obtain ⟨tail, hrest⟩ := startsWithAt_iff.mp hs
    exact (h.carries (carries_of_rest hrest.symm (List.cons_ne_nil _ _))).startsWithAt_eq

theorem startsWithAt_eq_false (h : own.Begins src) (hs : src.startsWithAt i cs = false) :
    own.startsWithAt i cs = false := by
  rw [← Bool.not_eq_true] at hs ⊢
  exact fun hown => hs (h.startsWithAt hown)

theorem startsWithAt_of_le (h : own.Begins src) (hs : src.startsWithAt i cs = true)
    (hi : i + cs.length ≤ own.length) : own.startsWithAt i cs = true := by
  cases cs with
  | nil => rfl
  | cons c cs =>
    obtain ⟨tail, hrest⟩ := startsWithAt_iff.mp hs
    have hcarries := carries_of_rest hrest.symm (List.cons_ne_nil _ _)
    exact (h.carries_of_le hi hcarries).startsWithAt_eq

theorem stands {α : Type} [Spanned α] {t : α} (h : own.Begins src) (hj : j ≤ own.length)
    (hs : Stands src i j t) : Stands own i j t := by
  have hlt := hs.lt
  refine ⟨hlt, hj, ?_, ?_⟩
  · rw [h.place_eq (by omega)]
    exact hs.first
  · rw [h.place_eq (by omega)]
    exact hs.last

end Begins

/-- The characters up to an offset are a text of their own. -/
theorem exists_begins {src : Source} {j : Nat} (hj : j ≤ src.length) :
    ∃ own : Source, own.chars.toList = src.between 0 j ∧ own.Begins src := by
  have hlen := src.length_between (i := 0) hj
  have hsize : src.length < wordLimit := src.size_lt
  refine ⟨⟨(src.between 0 j).toArray, by rw [List.size_toArray]; omega⟩, rfl, ?_⟩
  exact begins_of_append (between_append_rest (Nat.zero_le j)).symm

end Reckon.Source
