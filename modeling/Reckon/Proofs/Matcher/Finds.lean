import Reckon.Matcher.Leaf
import Reckon.Proofs.Token.Tiles

/-! What matchers find where the text is known. A matcher finds a token from one offset up to
another if that token is its answer at the first offset and the leaves of the token tile the text in
between; it misses where it answers that nothing is there. For each way of combining matchers it is
told from the parts what the whole finds and where it misses. -/

namespace Reckon.Matcher

/-- Started at offset `i` the matcher finds `t`, whose leaves reach up to offset `j`. -/
structure Finds {α : Type} [Spanned α] [Leafed α] (p : Matcher α) (src : Source) (i j : Nat)
    (t : α) :
    Prop where
  found : p src (src.place i) = .found t
  tiles : Tiles src (Leaf.IsCopy src) i j (Leafed.leaves t)

/-- Started at offset `i` the matcher finds nothing. -/
def Misses {α : Type} (p : Matcher α) (src : Source) (i : Nat) : Prop :=
  p src (src.place i) = .absent

variable {src : Source} {i j : Nat}

/-! Matchers of single leaves. -/

theorem finds_char {c : Char} (kind : LeafKind) (h : src.Carries i j [c]) :
    (char kind c).Finds src i j (src.leaf kind i j) := by
  have hj : i + 1 = j := h.length_eq
  subst hj
  refine ⟨?_, src.tiles_leaf kind (Nat.lt_succ_self i) h.le_length⟩
  rw [char, Source.offset_place h.start_le, if_pos h.charAt_eq, Source.leaf,
    h.between_eq]
  rfl

theorem misses_char {c : Char} (kind : LeafKind) (hi : i ≤ src.length)
    (h : ∀ d ∈ src.charAt i, d ≠ c) : (char kind c).Misses src i := by
  rw [Misses, char, Source.offset_place hi]
  exact if_neg fun hc => h c hc rfl

theorem finds_symbol {s : Symbol} (kind : LeafKind) (h : src.Carries i j s.chars) :
    (symbol kind s).Finds src i j (src.leaf kind i j) := by
  have hlen := h.length_eq
  have hj : i + s.tail.length + 1 = j := hlen
  have hle := h.le_length
  refine ⟨?_, src.tiles_leaf kind (by omega) hle⟩
  rw [symbol, Source.offset_place (by omega), if_pos h.startsWithAt_eq,
    Source.advance_place (by omega) (by omega), Source.leaf, h.between_eq,
    show j - 1 = i + s.tail.length by omega]
  rfl

theorem misses_symbol {s : Symbol} (kind : LeafKind) (hi : i ≤ src.length)
    (h : src.startsWithAt i s.chars = false) : (symbol kind s).Misses src i := by
  rw [Misses, symbol, Source.offset_place hi, if_neg (by simp [h])]

/-- The leaf cut out of the text from one offset through another. -/
theorem through_eq (kind : LeafKind) (hij : i < j) (hj : j ≤ src.length) :
    Leaf.through kind src (src.place i) (j - 1) = .found (src.leaf kind i j) := by
  rw [Leaf.through, Source.advance_place (by omega) (by omega), Source.offset_place (by omega),
    Source.slice_eq_between hij hj]
  rfl

theorem finds_run {test : Char → Bool} {cs : List Char} (kind : LeafKind) (h : src.Carries i j cs)
    (hne : cs ≠ []) (hcs : ∀ c ∈ cs, test c = true) (hstop : ∀ c ∈ src.charAt j, test c = false) :
    (run kind test).Finds src i j (src.leaf kind i j) := by
  have hij := h.lt hne
  have htail : (src.rest j).takeWhile test = [] := by
    cases hc : src.charAt j with
    | none =>
      rw [Source.rest_eq_nil_of_charAt hc]
      rfl
    | some c => rw [Source.rest_of_charAt hc, List.takeWhile_cons_of_neg (by simp [hstop c hc])]
  have hend : src.runEnd test i = j := by
    rw [Source.runEnd_eq, h.rest_eq, List.takeWhile_append_of_pos hcs, htail, List.append_nil]
    exact h.length_eq
  refine ⟨?_, src.tiles_leaf kind hij h.le_length⟩
  rw [run, Source.offset_place h.start_le, hend, if_neg (by omega)]
  exact through_eq kind hij h.le_length

/-- Where one character passes the test there is a run. -/
theorem exists_finds_run {test : Char → Bool} {c : Char} (kind : LeafKind)
    (h : src.charAt i = some c) (hc : test c = true) : ∃ j l, (run kind test).Finds src i j l := by
  obtain ⟨j, cs, hcarries, hne, hall, hstop⟩ := Source.exists_carries_run h hc
  exact ⟨j, _, finds_run kind hcarries hne hall hstop⟩

theorem misses_run {test : Char → Bool} (kind : LeafKind) (hi : i ≤ src.length)
    (h : ∀ c ∈ src.charAt i, test c = false) : (run kind test).Misses src i := by
  have hend : src.runEnd test i = i := by
    rw [Source.runEnd_eq]
    cases hc : src.charAt i with
    | none =>
      rw [Source.rest_eq_nil_of_charAt hc]
      rfl
    | some c =>
      rw [Source.rest_of_charAt hc, List.takeWhile_cons_of_neg (by simp [h c hc])]
      rfl
  rw [Misses, run, Source.offset_place hi, hend]
  exact if_pos rfl

/-! What matchers are combined to. -/

variable {α β γ δ : Type} {p : Matcher α} {q : Matcher β} {r : Matcher γ} {m n : Nat}

theorem firstOf_of_found {ps : List (Matcher α)} {a : α} (h : p src (src.place i) = .found a) :
    firstOf (p :: ps) src (src.place i) = .found a := by
  rw [firstOf, h]
  rfl

theorem firstOf_append (ps qs : List (Matcher α)) (src : Source) (here : Position) :
    firstOf (ps ++ qs) src here = (firstOf ps src here).orElse fun _ => firstOf qs src here := by
  induction ps with
  | nil => rfl
  | cons p ps ih =>
    rw [List.cons_append, firstOf, firstOf, ih]
    cases p src here <;> rfl

theorem Misses.firstOf_eq {ps : List (Matcher α)} (h : p.Misses src i) :
    firstOf (p :: ps) src (src.place i) = firstOf ps src (src.place i) := by
  rw [Misses] at h
  rw [firstOf, h]
  rfl

theorem map_of_found {a : α} (h : p src (src.place i) = .found a) (f : α → β) :
    Matcher.map f p src (src.place i) = .found (f a) := by
  rw [Matcher.map, h]
  rfl

theorem misses_firstOf {ps : List (Matcher α)} (h : ∀ p ∈ ps, p.Misses src i) :
    (firstOf ps).Misses src i := by
  induction ps with
  | nil => rfl
  | cons p ps ih =>
    have hps := ih fun q hq => h q (List.mem_cons_of_mem _ hq)
    exact (h p List.mem_cons_self).firstOf_eq.trans hps

/-- Where none of the alternatives succeeds each of them misses. -/
theorem misses_of_misses_firstOf {ps : List (Matcher α)} (h : (firstOf ps).Misses src i) :
    ∀ p ∈ ps, p.Misses src i := by
  induction ps with
  | nil => exact List.forall_mem_nil _
  | cons p ps ih =>
    rw [Misses, firstOf] at h
    cases hp : p src (src.place i) with
    | found a =>
      rw [hp] at h
      cases h
    | fault cause =>
      rw [hp] at h
      cases h
    | absent =>
      rw [hp] at h
      exact List.forall_mem_cons.mpr ⟨hp, ih h⟩

theorem misses_of_misses_map {f : α → β} (h : (Matcher.map f p).Misses src i) :
    p.Misses src i := by
  rw [Misses, Matcher.map] at h
  cases hp : p src (src.place i) with
  | found a =>
    rw [hp] at h
    cases h
  | fault cause =>
    rw [hp] at h
    cases h
  | absent => exact hp

theorem Misses.map (h : p.Misses src i) (f : α → β) : (Matcher.map f p).Misses src i := by
  rw [Misses] at h
  rw [Misses, Matcher.map, h]
  rfl

theorem Misses.step [Spanned α] (h : p.Misses src i) : p.step src (src.place i) = .absent := by
  rw [Misses] at h
  rw [Matcher.step, h]
  rfl

theorem Misses.seq2 [Spanned α] [Spanned β] {f : α → β → γ} (h : p.Misses src i) :
    (Matcher.seq2 f p q).Misses src i := by
  rw [Misses, Matcher.seq2, h.step]
  rfl

theorem Misses.seq3 [Spanned α] [Spanned β] [Spanned γ] {f : α → β → γ → δ} (h : p.Misses src i) :
    (Matcher.seq3 f p q r).Misses src i := by
  rw [Misses, Matcher.seq3, h.step]
  rfl

theorem Misses.many [Spanned α] {f : α → List α → β} (h : p.Misses src i) :
    (Matcher.many f p).Misses src i := by
  rw [Misses] at h
  rw [Misses, Matcher.many, collect, h]

variable [Spanned α] [Leafed α] [Spanned β] [Leafed β] {a : α} {b : β}

omit [Spanned β] [Leafed β] in
theorem Finds.not_misses (h : p.Finds src i j a) : ¬p.Misses src i := by
  intro hmiss
  rw [Misses, h.found] at hmiss
  cases hmiss

theorem Finds.step (h : p.Finds src i j a) :
    p.step src (src.place i) = .found (a, src.place j) := by
  rw [Matcher.step, h.found]
  simp only [Attempt.found_bind, h.tiles.resume_eq, Attempt.ofExcept_ok]
  rfl

theorem Finds.firstOf_head {ps : List (Matcher α)} (h : p.Finds src i j a) :
    (firstOf (p :: ps)).Finds src i j a :=
  ⟨firstOf_of_found h.found, h.tiles⟩

theorem Finds.firstOf_tail {ps : List (Matcher α)} (hp : p.Misses src i)
    (h : (firstOf ps).Finds src i j a) : (firstOf (p :: ps)).Finds src i j a :=
  ⟨hp.firstOf_eq.trans h.found, h.tiles⟩

theorem Finds.firstOf_append {ps qs : List (Matcher α)} (hps : ∀ p ∈ ps, p.Misses src i)
    (h : (firstOf qs).Finds src i j a) : (firstOf (ps ++ qs)).Finds src i j a := by
  induction ps with
  | nil => exact h
  | cons p ps ih =>
    have htail := ih fun q hq => hps q (List.mem_cons_of_mem _ hq)
    exact .firstOf_tail (hps p List.mem_cons_self) htail

theorem Finds.firstOf_append_left {ps qs : List (Matcher α)}
    (h : (firstOf ps).Finds src i j a) : (firstOf (ps ++ qs)).Finds src i j a := by
  refine ⟨?_, h.tiles⟩
  rw [Matcher.firstOf_append, h.found]
  rfl

theorem Finds.map (h : p.Finds src i j a) {f : α → β}
    (hf : Leafed.leaves (f a) = Leafed.leaves a) : (Matcher.map f p).Finds src i j (f a) := by
  refine ⟨map_of_found h.found f, ?_⟩
  rw [hf]
  exact h.tiles

omit [Leafed β] in
theorem Finds.misses_seq2 {f : α → β → γ} (ha : p.Finds src i m a) (hb : q.Misses src m) :
    (Matcher.seq2 f p q).Misses src i := by
  rw [Misses, Matcher.seq2, ha.step]
  simp only [Attempt.found_bind, hb.step]
  rfl

variable [Spanned γ] [Leafed γ] [Spanned δ] [Leafed δ] {c : γ}

theorem Finds.seq2 {f : α → β → γ} (ha : p.Finds src i m a) (hb : q.Finds src m j b)
    (hf : Leafed.leaves (f a b) = Leafed.leaves a ++ Leafed.leaves b) :
    (Matcher.seq2 f p q).Finds src i j (f a b) := by
  refine ⟨?_, ?_⟩
  · rw [Matcher.seq2, ha.step]
    simp only [Attempt.found_bind, hb.step]
    rfl
  · rw [hf]
    exact ha.tiles.append hb.tiles

theorem Finds.seq3 {f : α → β → γ → δ} (ha : p.Finds src i m a) (hb : q.Finds src m n b)
    (hc : r.Finds src n j c)
    (hf : Leafed.leaves (f a b c) = Leafed.leaves a ++ Leafed.leaves b ++ Leafed.leaves c) :
    (Matcher.seq3 f p q r).Finds src i j (f a b c) := by
  refine ⟨?_, ?_⟩
  · rw [Matcher.seq3, ha.step]
    simp only [Attempt.found_bind, hb.step, hc.step]
    rfl
  · rw [hf]
    exact (ha.tiles.append hb.tiles).append hc.tiles

omit [Leafed β] [Leafed γ] [Spanned δ] [Leafed δ] in
theorem Finds.misses_seq3 {f : α → β → γ → δ} (ha : p.Finds src i m a) (hb : q.Misses src m) :
    (Matcher.seq3 f p q r).Misses src i := by
  rw [Misses, Matcher.seq3, ha.step]
  simp only [Attempt.found_bind, hb.step]
  rfl

omit [Leafed γ] [Spanned δ] [Leafed δ] in
theorem Finds.misses_seq3_of_finds {f : α → β → γ → δ} (ha : p.Finds src i m a)
    (hb : q.Finds src m n b) (hc : r.Misses src n) : (Matcher.seq3 f p q r).Misses src i := by
  rw [Misses, Matcher.seq3, ha.step]
  simp only [Attempt.found_bind, hb.step, hc.step]
  rfl

theorem Finds.perhaps [Solid α] (h : p.Finds src i j a) :
    (Matcher.perhaps p).Finds src i j (.present a) := by
  refine ⟨?_, h.tiles⟩
  rw [Matcher.perhaps, h.found]

theorem Misses.perhaps [Solid α] (h : p.Misses src i) (hi : i ≤ src.length) :
    (Matcher.perhaps p).Finds src i i (.missing (src.place i)) := by
  rw [Misses] at h
  refine ⟨?_, .nil hi⟩
  rw [Matcher.perhaps, h]

end Reckon.Matcher
