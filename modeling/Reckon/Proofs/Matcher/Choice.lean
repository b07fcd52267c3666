import Reckon.Proofs.Matcher.Finds

/-! Choices whose order does not matter. Alternatives are tried in order, and the first that finds
something wins. Where at most one of them finds anything, it wins in any order. That is so wherever
they begin with different characters: a matcher that finds what begins with a character of a class
misses where no such character stands. -/

namespace Reckon.Matcher

variable {α β : Type} {src : Source} {here : Position} {i : Nat}

/-- At most one of the matchers finds something, and none of the others is aborted. -/
def Exclusive (ps : List (Matcher α)) (src : Source) (here : Position) : Prop :=
  ps.Pairwise fun p q => p src here = .absent ∨ q src here = .absent

/-- What one of exclusive alternatives finds is what is found. -/
theorem Exclusive.firstOf_eq {ps : List (Matcher α)} {p : Matcher α} {a : α}
    (h : Exclusive ps src here) (hp : p ∈ ps) (ha : p src here = .found a) :
    firstOf ps src here = .found a := by
  induction ps with
  | nil => cases hp
  | cons q ps ih =>
    obtain ⟨hq, hps⟩ := List.pairwise_cons.mp h
    rw [firstOf]
    rcases List.mem_cons.mp hp with rfl | hp
    · rw [ha]
      rfl
    · have habsent : q src here = .absent := by
        refine (hq p hp).resolve_right fun hno => ?_
        rw [ha] at hno
        cases hno
      rw [habsent]
      exact ih hps hp

/-- Exclusive alternatives may be tried in any order. -/
theorem Exclusive.firstOf_perm {ps qs : List (Matcher α)} (h : Exclusive ps src here)
    (hperm : ps.Perm qs) : firstOf ps src here = firstOf qs src here := by
  induction hperm with
  | nil => rfl
  | cons p _ ih =>
    rw [firstOf, firstOf, ih (List.pairwise_cons.mp h).2]
  | swap p q ps =>
    obtain ⟨hq, -⟩ := List.pairwise_cons.mp h
    rw [firstOf, firstOf, firstOf, firstOf]
    -- One of the two is absent, so what the other does is done whichever comes first.
    rcases hq p List.mem_cons_self with habsent | habsent <;> rw [habsent]
    · cases p src here <;> rfl
    · cases q src here <;> rfl
  | trans hleft _ ihleft ihright =>
    have hmiddle := (hleft.pairwise_iff Or.symm).mp h
    exact (ihleft h).trans (ihright hmiddle)

/-- No character passes both tests. -/
def Apart (f g : Char → Bool) : Prop := ∀ c, f c = true → g c = false

theorem Apart.symm {f g : Char → Bool} (h : Apart f g) : Apart g f := by
  intro c hg
  rw [← Bool.not_eq_true]
  intro hf
  rw [h c hf] at hg
  cases hg

theorem Apart.or {f g g' : Char → Bool} (h : Apart f g) (h' : Apart f g') :
    Apart f fun c => g c || g' c := by
  intro c hf
  exact Bool.or_eq_false_iff.mpr ⟨h c hf, h' c hf⟩

/-- A test that none of the listed characters passes. -/
theorem apart_of_all {f : Char → Bool} {cs : List Char} (h : cs.all (!f ·) = true) :
    Apart f cs.contains := by
  refine Apart.symm fun c hc => ?_
  have hno := List.all_eq_true.mp h c (List.contains_iff_mem.mp hc)
  rwa [Bool.not_eq_true'] at hno

/-- Where no character stands that passes the test, the matcher misses. -/
def BeginsWith (p : Matcher α) (test : Char → Bool) : Prop :=
  ∀ (src : Source) (i : Nat), i ≤ src.length → (∀ c ∈ src.charAt i, test c = false) →
    p.Misses src i

theorem BeginsWith.map {p : Matcher α} {test : Char → Bool} (h : p.BeginsWith test) (f : α → β) :
    (Matcher.map f p).BeginsWith test :=
  fun src i hi hno => (h src i hi hno).map f

/-- Of two matchers that begin with different characters one misses. -/
theorem BeginsWith.misses_or_misses {p : Matcher α} {q : Matcher β} {f g : Char → Bool}
    (hp : p.BeginsWith f) (hq : q.BeginsWith g) (hfg : Apart f g)
    (hi : i ≤ src.length) : p.Misses src i ∨ q.Misses src i := by
  rcases src.passes_or_fails i f with ⟨c, hc, hf⟩ | hno
  · refine .inr (hq src i hi fun d hd => ?_)
    obtain rfl := Option.some.inj (hc.symm.trans hd)
    exact hfg c hf
  · exact .inl (hp src i hi hno)

/-- Matchers that begin with different characters are exclusive. -/
theorem exclusive_of_beginsWith {kinds : List ((Char → Bool) × Matcher α)}
    (h : ∀ k ∈ kinds, k.2.BeginsWith k.1) (hd : kinds.Pairwise fun k l => Apart k.1 l.1)
    (hi : i ≤ src.length) :
    Exclusive (kinds.map Prod.snd) src (src.place i) := by
  rw [Exclusive, List.pairwise_map]
  exact hd.imp_of_mem fun hk hl hkl => (h _ hk).misses_or_misses (h _ hl) hkl hi

end Reckon.Matcher
