import Reckon.Matcher.Automaton
import Reckon.Proofs.Matcher.Finds

/-! Matchers that keep to the text. A matcher is faithful if, wherever in the text it is started, it
is not aborted, and the leaves of what it finds tile the text from there up to a later offset. The
matchers of single leaves are faithful, and whatever is combined from faithful matchers is faithful
as long as no leaf is dropped on the way. -/

namespace Reckon

/-- Nothing is aborted, and what is found satisfies `P`. -/
def Attempt.Holds {α : Type} (P : α → Prop) : Attempt α → Prop
  | .found a => P a
  | .absent => True
  | .fault _ => False

namespace Attempt.Holds

variable {α β : Type} {P : α → Prop} {Q : β → Prop} {x : Attempt α}

theorem mono {P' : α → Prop} (h : x.Holds P) (himp : ∀ a, P a → P' a) : x.Holds P' := by
  cases x with
  | found a => exact himp a h
  | absent => exact h
  | fault cause => exact h

theorem bind {f : α → Attempt β} (h : x.Holds P) (hf : ∀ a, P a → (f a).Holds Q) :
    (x >>= f).Holds Q := by
  cases x with
  | found a => exact hf a h
  | absent => trivial
  | fault cause => exact h

theorem orElse {y : Unit → Attempt α} (h : x.Holds P) (hy : (y ()).Holds P) :
    (x.orElse y).Holds P := by
  cases x with
  | found a => exact h
  | absent => exact hy
  | fault cause => exact h

end Attempt.Holds

/-- A table without gaps: every state names a row of it, and every row has a column for each class
of characters. -/
structure Automaton.InRange (a : Automaton) : Prop where
  initial : ∀ row, a.initial.row? = some row → row < a.table.length
  columns : ∀ entries ∈ a.table, ∀ c, a.classify c < entries.length
  rows : ∀ entries ∈ a.table, ∀ s ∈ entries, ∀ row, s.row? = some row → row < a.table.length

namespace Automaton

variable {a : Automaton}

/-- A state that names a row is followed by a state that names a row, if it names one. -/
theorem InRange.next (h : a.InRange) {row : Nat} (hrow : row < a.table.length) (c : Char) :
    ∃ s, a.next row c = .ok s ∧ ∀ row', s.row? = some row' → row' < a.table.length := by
  have hmem := List.getElem_mem hrow
  have hcol := h.columns _ hmem c
  refine ⟨_, ?_, h.rows _ hmem _ (List.getElem_mem hcol)⟩
  rw [Automaton.next, List.getElem?_eq_getElem hrow]
  simp only [List.getElem?_eq_getElem hcol]

/-- The automaton is not aborted, and reads characters of the text only. -/
theorem InRange.stepsFor (h : a.InRange) (src : Source) (n : Nat) {state : AutomatonState} {i : Nat}
    (hs : ∀ row, state.row? = some row → row < a.table.length) :
    ∃ steps, a.stepsFor src n state i = .ok steps ∧
      ∀ s ∈ steps, i ≤ s.offset ∧ s.offset < src.length := by
  induction n generalizing state i with
  | zero => exact ⟨[], rfl, nofun⟩
  | succ n ih =>
    rw [Automaton.stepsFor]
    split
    · rename_i row c hrow hc
      obtain ⟨after, hnext, hafter⟩ := h.next (hs row hrow) c
      obtain ⟨steps, hsteps, hall⟩ := ih (i := i + 1) hafter
      rw [hnext]
      simp only [hsteps]
      refine ⟨_, rfl, ?_⟩
      intro s hmem
      rcases List.mem_cons.mp hmem with rfl | hmem
      · refine ⟨Nat.le_refl i, Nat.lt_of_not_le fun hle => ?_⟩
        rw [Source.charAt_eq_none_iff.mpr hle] at hc
        cases hc
      · have := hall s hmem
        omega
    · exact ⟨[], rfl, nofun⟩

/-- The last offset accepted is that of a step. -/
theorem exists_of_lastAccepted {steps : List Step} {last : Nat}
    (h : lastAccepted steps = some last) : ∃ s ∈ steps, s.offset = last := by
  induction steps with
  | nil => cases h
  | cons s ss ih =>
    rw [lastAccepted] at h
    cases hss : lastAccepted ss with
    | some m =>
      rw [hss] at h
      obtain rfl := Option.some.inj h
      obtain ⟨s', hmem, heq⟩ := ih hss
      exact ⟨s', List.mem_cons_of_mem _ hmem, heq⟩
    | none =>
      rw [hss, Option.none_or] at h
      split at h
      · exact ⟨s, List.mem_cons_self, Option.some.inj h⟩
      · cases h

end Automaton

/-- Wherever it is started, the matcher is not aborted, and what it finds tiles the text from there.
-/
def Matcher.Faithful {α : Type} [Spanned α] [Leafed α] (p : Matcher α) : Prop :=
  ∀ (src : Source) (i : Nat), i ≤ src.length →
    (p src (src.place i)).Holds fun t => ∃ j, Tiles src (Leaf.IsCopy src) i j (Leafed.leaves t)

namespace Matcher

variable {α β γ δ : Type} [Spanned α] [Leafed α] [Spanned β] [Leafed β] [Spanned γ] [Leafed γ]
  [Spanned δ] [Leafed δ]

/-- A faithful matcher misses or finds something that reaches up to a later offset. -/
theorem Faithful.misses_or_finds {p : Matcher α} (hp : p.Faithful) {src : Source} {i : Nat}
    (hi : i ≤ src.length) : p.Misses src i ∨ ∃ j t, p.Finds src i j t := by
  have h := hp src i hi
  cases hx : p src (src.place i) with
  | found t =>
    rw [hx] at h
    obtain ⟨j, ht⟩ := h
    exact .inr ⟨j, t, hx, ht⟩
  | absent => exact .inl hx
  | fault cause =>
    rw [hx] at h
    exact h.elim

/-! Matchers of single leaves. -/

theorem faithful_char (kind : LeafKind) (c : Char) : (char kind c).Faithful := by
  intro src i hi
  by_cases hc : src.charAt i = some c
  · have hrest : src.rest i = [c] ++ src.rest (i + 1) := Source.rest_of_charAt hc
    have h := finds_char kind (Source.carries_of_rest hrest (List.cons_ne_nil _ _))
    rw [h.found]
    exact ⟨_, h.tiles⟩
  · have h : (char kind c).Misses src i := by
      apply misses_char kind hi
      rintro d hd rfl
      exact hc hd
    rw [h]
    trivial

theorem faithful_symbol (kind : LeafKind) (s : Symbol) : (symbol kind s).Faithful := by
  intro src i hi
  by_cases hs : src.startsWithAt i s.chars = true
  · obtain ⟨tail, hrest⟩ := Source.startsWithAt_iff.mp hs
    have h := finds_symbol kind (Source.carries_of_rest hrest.symm (List.cons_ne_nil _ _))
    rw [h.found]
    exact ⟨_, h.tiles⟩
  · rw [Bool.not_eq_true] at hs
    rw [misses_symbol kind hi hs]
    trivial

theorem faithful_run (kind : LeafKind) (test : Char → Bool) : (run kind test).Faithful := by
  intro src i hi
  rw [run, Source.offset_place hi]
  split
  · trivial
  · rename_i hne
    have hstop := Source.runEnd_eq src test i
    have hle := (List.takeWhile_prefix test (l := src.rest i)).length_le
    rw [Source.length_rest] at hle
    have hij : i < src.runEnd test i := by omega
    have hj : src.runEnd test i ≤ src.length := by omega
    rw [through_eq kind hij hj]
    exact ⟨_, src.tiles_leaf kind hij hj⟩

theorem faithful_automaton (kind : LeafKind) {a : Automaton} (ha : a.InRange) :
    (automaton kind a).Faithful := by
  intro src i hi
  obtain ⟨steps, hsteps, hall⟩ := ha.stepsFor src (src.length - i) (i := i) ha.initial
  rw [automaton, Source.offset_place hi, Automaton.steps, hsteps]
  simp only [Attempt.ofExcept_ok, Attempt.found_bind]
  split
  · trivial
  · rename_i last hlast
    obtain ⟨s, hmem, rfl⟩ := Automaton.exists_of_lastAccepted hlast
    obtain ⟨hle, hlt⟩ := hall s hmem
    rw [← Nat.add_sub_cancel s.offset 1, through_eq kind (Nat.lt_succ_of_le hle) hlt]
    exact ⟨_, src.tiles_leaf kind (Nat.lt_succ_of_le hle) hlt⟩

/-! What matchers are combined to. -/

omit [Spanned α] [Leafed α] in
/-- What holds of each alternative holds of the one that is taken. -/
theorem holds_firstOf {P : α → Prop} {ps : List (Matcher α)} {src : Source} {here : Position}
    (h : ∀ p ∈ ps, (p src here).Holds P) : (firstOf ps src here).Holds P := by
  induction ps with
  | nil => trivial
  | cons p ps ih =>
    have hp := h p List.mem_cons_self
    have hps := ih fun q hq => h q (List.mem_cons_of_mem _ hq)
    exact hp.orElse hps

theorem Faithful.firstOf {ps : List (Matcher α)} (h : ∀ p ∈ ps, p.Faithful) :
    (Matcher.firstOf ps).Faithful :=
  fun src i hi => holds_firstOf fun p hp => h p hp src i hi

theorem Faithful.firstOf_pair {p q : Matcher α} (hp : p.Faithful) (hq : q.Faithful) :
    (Matcher.firstOf [p, q]).Faithful :=
  Faithful.firstOf (List.forall_mem_cons.mpr ⟨hp, List.forall_mem_singleton.mpr hq⟩)

/-- A change of what is found that keeps the leaves. -/
theorem Faithful.map {p : Matcher α} {f : α → β} (hp : p.Faithful)
    (hf : ∀ t, Leafed.leaves (f t) = Leafed.leaves t) : (Matcher.map f p).Faithful := by
  intro src i hi
  apply (hp src i hi).bind
  rintro t ⟨j, ht⟩
  refine ⟨j, ?_⟩
  rw [hf]
  exact ht

/-- After a token has been found, reading goes on where its leaves end. -/
theorem Faithful.step {p : Matcher α} (hp : p.Faithful) {src : Source} {i : Nat}
    (hi : i ≤ src.length) : (p.step src (src.place i)).Holds fun found =>
      ∃ j, found.2 = src.place j ∧ Tiles src (Leaf.IsCopy src) i j (Leafed.leaves found.1) := by
  apply (hp src i hi).bind
  rintro t ⟨j, ht⟩
  rw [ht.resume_eq]
  exact ⟨j, rfl, ht⟩

theorem Faithful.seq2 {p : Matcher α} {q : Matcher β} {f : α → β → γ} (hp : p.Faithful)
    (hq : q.Faithful)
    (hf : ∀ a b, Leafed.leaves (f a b) = Leafed.leaves a ++ Leafed.leaves b) :
    (Matcher.seq2 f p q).Faithful := by
  intro src i hi
  apply (hp.step hi).bind
  rintro ⟨a, _⟩ ⟨j, rfl, ha⟩
  apply (hq.step ha.le_length).bind
  rintro ⟨b, _⟩ ⟨k, rfl, hb⟩
  refine ⟨k, ?_⟩
  rw [hf]
  exact ha.append hb

theorem Faithful.seq3 {p : Matcher α} {q : Matcher β} {r : Matcher γ} {f : α → β → γ → δ}
    (hp : p.Faithful) (hq : q.Faithful) (hr : r.Faithful)
    (hf : ∀ a b c, Leafed.leaves (f a b c) =
      Leafed.leaves a ++ Leafed.leaves b ++ Leafed.leaves c) :
    (Matcher.seq3 f p q r).Faithful := by
  intro src i hi
  apply (hp.step hi).bind
  rintro ⟨a, _⟩ ⟨j, rfl, ha⟩
  apply (hq.step ha.le_length).bind
  rintro ⟨b, _⟩ ⟨k, rfl, hb⟩
  apply (hr.step hb.le_length).bind
  rintro ⟨c, _⟩ ⟨l, rfl, hc⟩
  refine ⟨l, ?_⟩
  rw [hf]
  exact (ha.append hb).append hc

theorem Faithful.perhaps [Solid α] {p : Matcher α} (hp : p.Faithful) :
    (Matcher.perhaps p).Faithful := by
  intro src i hi
  have h := hp src i hi
  rw [Matcher.perhaps]
  split
  · rename_i t ht
    rw [ht] at h
    exact h
  · exact ⟨i, .nil hi⟩
  · rename_i cause hc
    rw [hc] at h
    exact h

/-- What may be missing is always found, if only as missing. -/
theorem Faithful.exists_finds_perhaps [Solid α] {p : Matcher α} (hp : p.Faithful) {src : Source}
    {i : Nat} (hi : i ≤ src.length) : ∃ j t, (Matcher.perhaps p).Finds src i j t := by
  rcases hp.misses_or_finds hi with hmiss | ⟨j, t, hfinds⟩
  · exact ⟨i, _, hmiss.perhaps hi⟩
  · exact ⟨j, _, hfinds.perhaps⟩

/-- A repetition that is allowed one more token than characters are left is not endless. -/
theorem Faithful.collect {p : Matcher α} (hp : p.Faithful) {src : Source} {fuel i : Nat}
    (hi : i ≤ src.length) (hf : src.length - i < fuel) :
    ∃ ts j, collect p src fuel (src.place i) = .ok ts ∧
      Tiles src (Leaf.IsCopy src) i j (ts.flatMap Leafed.leaves) := by
  induction fuel generalizing i with
  | zero => omega
  | succ fuel ih =>
    have h := hp src i hi
    rw [Matcher.collect]
    split
    · rename_i cause hc
      rw [hc] at h
      exact h.elim
    · exact ⟨[], i, rfl, .nil hi⟩
    · rename_i t ht
      rw [ht] at h
      obtain ⟨j, ht⟩ := h
      have hj := ht.le_length
      split
      · exact ⟨[], i, rfl, .nil hi⟩
      · rename_i hne
        rw [Leafed.isEmpty_eq, List.isEmpty_iff] at hne
        have hij := ht.lt_of_ne_nil hne
        rw [ht.resume_eq]
        simp only [Source.offset_place hj]
        split
        · refine ⟨[t], j, rfl, ?_⟩
          rw [List.flatMap_cons, List.flatMap_nil, List.append_nil]
          exact ht
        · obtain ⟨ts, k, hts, htiles⟩ := ih hj (by omega)
          rw [hts]
          refine ⟨t :: ts, k, rfl, ?_⟩
          rw [List.flatMap_cons]
          exact ht.append htiles

theorem Faithful.many {p : Matcher α} {f : α → List α → β} (hp : p.Faithful)
    (hf : ∀ t ts, Leafed.leaves (f t ts) = (t :: ts).flatMap Leafed.leaves) :
    (Matcher.many f p).Faithful := by
  intro src i hi
  have hfuel : src.length - i < src.length + 1 := by omega
  obtain ⟨ts, j, hts, htiles⟩ := hp.collect hi hfuel
  rw [Matcher.many, hts]
  cases ts with
  | nil => trivial
  | cons t ts =>
    refine ⟨j, ?_⟩
    rw [hf]
    exact htiles

end Matcher

end Reckon
