import Reckon.Proofs.Matcher.Faithful

/-! What a repetition takes. A matcher that is started over and over again, each time where the
token before ends, finds some tokens in turn and then misses. Since each of them takes up text there
is an end to it, and a repetition gives out just these tokens. -/

namespace Reckon.Matcher

variable {α β : Type} [Spanned α] [Leafed α] {p : Matcher α} {src : Source} {i m j : Nat} {t : α}
  {ts : List α}

/-- From offset `i` on the matcher finds the tokens in turn, and misses where the last one ends, at
offset `j`. -/
inductive Repeats (p : Matcher α) (src : Source) : Nat → Nat → List α → Prop
  | nil {i : Nat} : i ≤ src.length → p.Misses src i → Repeats p src i i []
  | cons {i m j : Nat} {t : α} {ts : List α} :
    p.Finds src i m t → Repeats p src m j ts → Repeats p src i j (t :: ts)

theorem Repeats.tiles (h : p.Repeats src i j ts) :
    Tiles src (Leaf.IsCopy src) i j (ts.flatMap Leafed.leaves) := by
  induction h with
  | nil hi _ => exact .nil hi
  | cons ht _ ih =>
    rw [List.flatMap_cons]
    exact ht.tiles.append ih

variable [Solid α]

theorem Finds.lt (h : p.Finds src i j t) : i < j :=
  h.tiles.lt_of_ne_nil (Solid.leaves_ne_nil t)

/-- What is found takes up the characters it was found for. -/
theorem Finds.takesUp (h : p.Finds src i j t) {cs : List Char} (hcs : src.Carries i j cs) :
    TakesUp src i cs t := by
  rw [← hcs.between_eq]
  exact (h.tiles.stands h.lt).takesUp (Solid.isEmpty_eq_false t)

/-- Any matcher that is faithful finds some tokens in turn. -/
theorem Faithful.exists_repeats (hp : p.Faithful) (hi : i ≤ src.length) :
    ∃ j ts, p.Repeats src i j ts := by
  induction hn : src.length - i using Nat.strongRecOn generalizing i with
  | ind n ih =>
    rcases hp.misses_or_finds hi with hmiss | ⟨m, t, ht⟩
    · exact ⟨i, [], .nil hi hmiss⟩
    · have hlt := ht.lt
      have hle := ht.tiles.le_length
      obtain ⟨j, ts, hts⟩ := ih (src.length - m) (by omega) hle rfl
      exact ⟨j, t :: ts, .cons ht hts⟩

/-- Where the text ends, no more tokens are found. -/
theorem Repeats.eq_nil_of_length_le (h : p.Repeats src i j ts) (hi : src.length ≤ i) : ts = [] := by
  cases h with
  | nil _ _ => rfl
  | cons ht _ =>
    have hlt := ht.lt
    have hle := ht.tiles.le_length
    omega

theorem Repeats.collect_eq (h : p.Repeats src i j ts) {fuel : Nat} (hf : src.length - i < fuel) :
    collect p src fuel (src.place i) = .ok ts := by
  obtain ⟨n, rfl⟩ : ∃ n, fuel = n + 1 := ⟨fuel - 1, by omega⟩
  induction h generalizing n with
  | nil _ hmiss =>
    rw [Misses] at hmiss
    rw [collect, hmiss]
  | @cons i m j t ts ht hts ih =>
    have hlt := ht.lt
    have hle := ht.tiles.le_length
    rw [collect, ht.found]
    simp only [Solid.isEmpty_eq_false, Bool.false_eq_true, if_false, ht.tiles.resume_eq,
      Source.offset_place hle]
    by_cases hend : src.length ≤ m
    · rw [if_pos hend, hts.eq_nil_of_length_le hend]
    · obtain ⟨n, rfl⟩ : ∃ n', n = n' + 1 := ⟨n - 1, by omega⟩
      rw [if_neg hend, ih n (by omega)]

theorem Repeats.finds_many [Spanned β] [Leafed β] {f : α → List α → β}
    (h : p.Repeats src i j (t :: ts))
    (hleaves : Leafed.leaves (f t ts) = (t :: ts).flatMap Leafed.leaves) :
    (Matcher.many f p).Finds src i j (f t ts) := by
  have hi := h.tiles.start_le
  refine ⟨?_, ?_⟩
  · rw [Matcher.many, h.collect_eq (by omega)]
  · rw [hleaves]
    exact h.tiles

end Reckon.Matcher
