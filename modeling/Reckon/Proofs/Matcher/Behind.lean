import Reckon.Proofs.Matcher.Faithful
import Reckon.Proofs.Token.Behind

/-! Matchers that look only forward. What such a matcher finds in a text it finds in every text
that ends with it, at the same distance from where it begins and with its positions moved
accordingly, and where it misses it misses there, too. It cannot tell whether anything stands in
front. The matchers of leaves look only forward, and so does what is combined from matchers that
do, as long as moving what is found moves its parts. -/

namespace Reckon.Matcher

open Movable

/-- Behind a text in front the matcher finds what it finds without it, moved. -/
def Forward {α : Type} [Spanned α] [Leafed α] [Movable α] (p : Matcher α) : Prop :=
  ∀ ⦃src whole : Source⦄ ⦃o i : Nat⦄, src.Ends whole o → i ≤ src.length →
    (p.Misses src i ∧ p.Misses whole (o + i)) ∨
      ∃ j t, p.Finds src i j t ∧ p.Finds whole (o + i) (o + j) (behind t (whole.place o))

variable {α β γ δ : Type} [Spanned α] [Leafed α] [Movable α] [Spanned β] [Leafed β] [Movable β]
  [Spanned γ] [Leafed γ] [Movable γ] [Spanned δ] [Leafed δ] [Movable δ]

/-! Matchers of single leaves. -/

theorem forward_char (kind : LeafKind) (c : Char) : (char kind c).Forward := by
  intro src whole o i h hi
  have hle := h.le_length hi
  by_cases hc : src.charAt i = some c
  · have hcarries := Source.carries_singleton hc
    have hfinds := finds_char kind (h.carries hcarries)
    rw [h.leaf_eq kind (Nat.lt_succ_self i)] at hfinds
    exact .inr ⟨_, _, finds_char kind hcarries, hfinds⟩
  · refine .inl ⟨misses_char kind hi ?_, misses_char kind hle ?_⟩
    · rintro d hd rfl
      exact hc hd
    · rw [h.charAt_eq]
      rintro d hd rfl
      exact hc hd

theorem forward_symbol (kind : LeafKind) (s : Symbol) : (symbol kind s).Forward := by
  intro src whole o i h hi
  have hle := h.le_length hi
  cases hs : src.startsWithAt i s.chars with
  | true =>
    obtain ⟨tail, hrest⟩ := Source.startsWithAt_iff.mp hs
    have hcarries := Source.carries_of_rest hrest.symm (List.cons_ne_nil _ _)
    have hfinds := finds_symbol kind (h.carries hcarries)
    rw [h.leaf_eq kind (hcarries.lt (List.cons_ne_nil _ _))] at hfinds
    exact .inr ⟨_, _, finds_symbol kind hcarries, hfinds⟩
  | false =>
    refine .inl ⟨misses_symbol kind hi hs, misses_symbol kind hle ?_⟩
    rw [h.startsWithAt_eq, hs]

theorem forward_run (kind : LeafKind) (test : Char → Bool) : (run kind test).Forward := by
  intro src whole o i h hi
  have hle := h.le_length hi
  rcases src.passes_or_fails i test with ⟨c, hc, htest⟩ | hno
  · obtain ⟨j, cs, hcarries, hne, hall, hstop⟩ := Source.exists_carries_run hc htest
    have hfinds := finds_run kind (h.carries hcarries) hne hall (by rwa [h.charAt_eq])
    rw [h.leaf_eq kind (hcarries.lt hne)] at hfinds
    exact .inr ⟨_, _, finds_run kind hcarries hne hall hstop, hfinds⟩
  · exact .inl ⟨misses_run kind hi hno, misses_run kind hle (by rwa [h.charAt_eq])⟩

/-! What matchers are combined to. -/

theorem Forward.firstOf {ps : List (Matcher α)} (hps : ∀ p ∈ ps, p.Forward) :
    (Matcher.firstOf ps).Forward := by
  intro src whole o i h hi
  induction ps with
  | nil => exact .inl ⟨rfl, rfl⟩
  | cons p ps ih =>
    obtain ⟨hp, hps⟩ := List.forall_mem_cons.mp hps
    rcases hp h hi with ⟨hmiss, hmiss'⟩ | ⟨j, t, hfinds, hfinds'⟩
    · rcases ih hps with ⟨hrest, hrest'⟩ | ⟨j, t, hfinds, hfinds'⟩
      · exact .inl ⟨hmiss.firstOf_eq.trans hrest, hmiss'.firstOf_eq.trans hrest'⟩
      · exact .inr ⟨j, t, .firstOf_tail hmiss hfinds, .firstOf_tail hmiss' hfinds'⟩
    · exact .inr ⟨j, t, hfinds.firstOf_head, hfinds'.firstOf_head⟩

theorem Forward.firstOf_pair {p q : Matcher α} (hp : p.Forward) (hq : q.Forward) :
    (Matcher.firstOf [p, q]).Forward :=
  Forward.firstOf (List.forall_mem_cons.mpr ⟨hp, List.forall_mem_singleton.mpr hq⟩)

theorem Forward.map {p : Matcher α} {f : α → β} (hp : p.Forward)
    (hleaves : ∀ t, Leafed.leaves (f t) = Leafed.leaves t)
    (hf : ∀ t base, f (behind t base) = behind (f t) base) : (Matcher.map f p).Forward := by
  intro src whole o i h hi
  rcases hp h hi with ⟨hmiss, hmiss'⟩ | ⟨j, t, hfinds, hfinds'⟩
  · exact .inl ⟨hmiss.map f, hmiss'.map f⟩
  · have hmap := hfinds'.map (f := f) (hleaves _)
    rw [hf] at hmap
    exact .inr ⟨j, f t, hfinds.map (hleaves t), hmap⟩

theorem Forward.seq2 {p : Matcher α} {q : Matcher β} {f : α → β → γ} (hp : p.Forward)
    (hq : q.Forward)
    (hleaves : ∀ a b, Leafed.leaves (f a b) = Leafed.leaves a ++ Leafed.leaves b)
    (hf : ∀ a b base, f (behind a base) (behind b base) = behind (f a b) base) :
    (Matcher.seq2 f p q).Forward := by
  intro src whole o i h hi
  rcases hp h hi with ⟨hmiss, hmiss'⟩ | ⟨m, a, ha, ha'⟩
  · exact .inl ⟨hmiss.seq2, hmiss'.seq2⟩
  rcases hq h ha.tiles.le_length with ⟨hmiss, hmiss'⟩ | ⟨j, b, hb, hb'⟩
  · exact .inl ⟨ha.misses_seq2 hmiss, ha'.misses_seq2 hmiss'⟩
  have hseq := ha'.seq2 (f := f) hb' (hleaves _ _)
  rw [hf] at hseq
  exact .inr ⟨j, f a b, ha.seq2 hb (hleaves a b), hseq⟩

theorem Forward.seq3 {p : Matcher α} {q : Matcher β} {r : Matcher γ} {f : α → β → γ → δ}
    (hp : p.Forward) (hq : q.Forward) (hr : r.Forward)
    (hleaves : ∀ a b c, Leafed.leaves (f a b c) =
      Leafed.leaves a ++ Leafed.leaves b ++ Leafed.leaves c)
    (hf : ∀ a b c base, f (behind a base) (behind b base) (behind c base) =
      behind (f a b c) base) : (Matcher.seq3 f p q r).Forward := by
  intro src whole o i h hi
  rcases hp h hi with ⟨hmiss, hmiss'⟩ | ⟨m, a, ha, ha'⟩
  · exact .inl ⟨hmiss.seq3, hmiss'.seq3⟩
  rcases hq h ha.tiles.le_length with ⟨hmiss, hmiss'⟩ | ⟨n, b, hb, hb'⟩
  · exact .inl ⟨ha.misses_seq3 hmiss, ha'.misses_seq3 hmiss'⟩
  rcases hr h hb.tiles.le_length with ⟨hmiss, hmiss'⟩ | ⟨j, c, hc, hc'⟩
  · exact .inl ⟨ha.misses_seq3_of_finds hb hmiss, ha'.misses_seq3_of_finds hb' hmiss'⟩
  have hseq := ha'.seq3 (f := f) hb' hc' (hleaves _ _ _)
  rw [hf] at hseq
  exact .inr ⟨j, f a b c, ha.seq3 hb hc (hleaves a b c), hseq⟩

theorem Forward.perhaps [Solid α] {p : Matcher α} (hp : p.Forward) :
    (Matcher.perhaps p).Forward := by
  intro src whole o i h hi
  have hle := h.le_length hi
  rcases hp h hi with ⟨hmiss, hmiss'⟩ | ⟨j, t, hfinds, hfinds'⟩
  · have hmissing := hmiss'.perhaps hle
    rw [h.place_eq] at hmissing
    exact .inr ⟨i, _, hmiss.perhaps hi, hmissing⟩
  · exact .inr ⟨j, _, hfinds.perhaps, hfinds'.perhaps⟩

/-- A repetition takes the same tokens in both texts. -/
theorem Forward.collect [Solid α] {p : Matcher α} (hp : p.Forward) {src whole : Source} {o i : Nat}
    (h : src.Ends whole o) (hi : i ≤ src.length) {fuel fuel' : Nat} (hf : src.length - i < fuel)
    (hf' : src.length - i < fuel') :
    ∃ ts j, Matcher.collect p src fuel (src.place i) = .ok ts ∧
      Matcher.collect p whole fuel' (whole.place (o + i)) =
        .ok (ts.map (behind · (whole.place o))) ∧
      Tiles src (Leaf.IsCopy src) i j (ts.flatMap Leafed.leaves) := by
  have hlen := h.length_eq
  -- Longer texts allow more tokens, so the two bounds are kept apart: each exceeds the number of
  -- characters that are left, which is the same in both texts.
  induction fuel generalizing i fuel' with
  | zero => omega
  | succ fuel ih =>
    obtain ⟨fuel', rfl⟩ : ∃ n, fuel' = n + 1 := ⟨fuel' - 1, by omega⟩
    rcases hp h hi with ⟨hmiss, hmiss'⟩ | ⟨j, t, hfinds, hfinds'⟩
    · rw [Misses] at hmiss hmiss'
      refine ⟨[], i, ?_, ?_, .nil hi⟩
      · rw [Matcher.collect, hmiss]
      · rw [Matcher.collect, hmiss']
        rfl
    have hij := hfinds.tiles.lt_of_ne_nil (Solid.leaves_ne_nil t)
    have hj := hfinds.tiles.le_length
    rw [Matcher.collect, Matcher.collect, hfinds.found, hfinds'.found]
    simp only [Solid.isEmpty_eq_false, Bool.false_eq_true, if_false, hfinds.tiles.resume_eq,
      hfinds'.tiles.resume_eq, Source.offset_place hj,
      Source.offset_place (show o + j ≤ whole.length by omega)]
    by_cases hend : src.length ≤ j
    · refine ⟨[t], j, if_pos hend, if_pos (by omega), ?_⟩
      rw [List.flatMap_singleton]
      exact hfinds.tiles
    · obtain ⟨ts, k, hts, hts', htiles⟩ :=
        ih hj (show src.length - j < fuel by omega) (show src.length - j < fuel' by omega)
      rw [if_neg hend, if_neg (by omega), hts, hts']
      refine ⟨t :: ts, k, rfl, rfl, ?_⟩
      rw [List.flatMap_cons]
      exact hfinds.tiles.append htiles

theorem Forward.many [Solid α] {p : Matcher α} {f : α → List α → β} (hp : p.Forward)
    (hleaves : ∀ t ts, Leafed.leaves (f t ts) = (t :: ts).flatMap Leafed.leaves)
    (hf : ∀ t ts base, f (behind t base) (ts.map (behind · base)) = behind (f t ts) base) :
    (Matcher.many f p).Forward := by
  intro src whole o i h hi
  have hlen := h.length_eq
  obtain ⟨ts, j, hts, hts', htiles⟩ := hp.collect h hi
    (show src.length - i < src.length + 1 by omega)
    (show src.length - i < whole.length + 1 by omega)
  cases ts with
  | nil =>
    refine .inl ⟨?_, ?_⟩
    · rw [Misses, Matcher.many, hts]
    · rw [Misses, Matcher.many, hts']
      rfl
  | cons t ts =>
    rw [← hleaves] at htiles
    refine .inr ⟨j, f t ts, ⟨?_, htiles⟩, ⟨?_, ?_⟩⟩
    · rw [Matcher.many, hts]
    · rw [Matcher.many, hts', List.map_cons]
      exact congrArg Attempt.found (hf t ts _)
    · rw [leaves_behind]
      exact h.tiles htiles

end Reckon.Matcher
