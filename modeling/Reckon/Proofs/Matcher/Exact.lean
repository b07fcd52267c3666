import Reckon.Proofs.Matcher.Pieces

/-! Matchers that read the text exactly: wherever they are started they end without being aborted,
and what they find stands there and holds the text it stands on. So do the matchers of leaves, and
so does whatever alternatives, sequences, options, repetitions and changes of what is found make of
exact matchers, as long as their tokens are merged from those of the parts. A repetition comes to
an end because each of its tokens takes up text.

An option holds what was found as it is, and what it holds counts as text. So an option of an exact
matcher is exact just when what is optional is never a placeholder already. One that may be becomes
exact again if the option is at once made into a token that is a placeholder too. -/

namespace Reckon.Matcher

open Piece

/-- The token is found somewhere in some text. -/
def CanFind {α : Type} (p : Matcher α) (t : α) : Prop := ∃ src here, p src here = .found t

/-- Wherever it is started, the matcher is not aborted, and what it finds stands there and holds the
text it stands on. -/
def Exact {α : Type} [Spanned α] [Worded α] (p : Matcher α) : Prop :=
  ∀ (src : Source) (i : Nat), i ≤ src.length →
    (p src (src.place i)).Holds fun t => ∃ j, InTurn src i j [.of t]

namespace Exact

variable {α β γ δ ε : Type} [Spanned α] [Worded α] [Spanned β] [Worded β] [Spanned γ] [Worded γ]
  [Spanned δ] [Worded δ] [Spanned ε] [Worded ε] {p : Matcher α} {q : Matcher β} {r : Matcher γ}
  {s : Matcher δ} {src : Source} {i : Nat}

theorem holds (hp : p.Exact) (hi : i ≤ src.length) :
    (p src (src.place i)).Holds fun t => p.CanFind t ∧ ∃ j, InTurn src i j [.of t] := by
  have h := hp src i hi
  cases hx : p src (src.place i) with
  | found t =>
    rw [hx] at h
    exact ⟨⟨src, src.place i, hx⟩, h⟩
  | absent => trivial
  | fault cause =>
    rw [hx] at h
    exact h

/-- After a token has been found, reading goes on where it ends. -/
theorem step (hp : p.Exact) (hi : i ≤ src.length) :
    (p.step src (src.place i)).Holds fun found =>
      p.CanFind found.1 ∧ ∃ j, found.2 = src.place j ∧ InTurn src i j [.of found.1] := by
  apply (hp.holds hi).bind
  rintro t ⟨hfound, j, ht⟩
  rw [ht.resume_eq]
  exact ⟨hfound, j, rfl, ht⟩

/-- A faithful matcher of leaves is exact. -/
theorem of_faithful {p : Matcher Leaf} (hp : p.Faithful) : p.Exact := by
  intro src i hi
  apply (hp src i hi).mono
  rintro l ⟨j, htiles⟩
  have hne : Leafed.leaves l ≠ [] := Solid.leaves_ne_nil l
  have hs := htiles.stands (htiles.lt_of_ne_nil hne)
  have hcopy : l.IsCopy src := htiles.forall_mem l List.mem_cons_self
  rw [Leaf.IsCopy, hs.textOf] at hcopy
  refine ⟨j, inTurn_of_stands hs rfl ?_⟩
  rw [Except.ok.inj hcopy]
  exact (String.join_cons).trans String.append_empty

theorem firstOf {ps : List (Matcher α)} (h : ∀ p ∈ ps, p.Exact) : (Matcher.firstOf ps).Exact :=
  fun src i hi => holds_firstOf fun p hp => h p hp src i hi

theorem map {f : α → β} (hp : p.Exact)
    (hf : ∀ a, p.CanFind a → IsMerged (.of (f a)) [.of a]) : (Matcher.map f p).Exact := by
  intro src i hi
  apply (hp.holds hi).bind
  rintro a ⟨hfound, j, ha⟩
  exact ⟨j, ha.merge (hf a hfound)⟩

theorem seq2 {f : α → β → γ} (hp : p.Exact) (hq : q.Exact)
    (hf : ∀ a b, p.CanFind a → q.CanFind b → IsMerged (.of (f a b)) [.of a, .of b]) :
    (Matcher.seq2 f p q).Exact := by
  intro src i hi
  apply (hp.step hi).bind
  rintro ⟨a, _⟩ ⟨hpa, j, rfl, ha⟩
  apply (hq.step ha.le_length).bind
  rintro ⟨b, _⟩ ⟨hqb, k, rfl, hb⟩
  exact ⟨k, (ha.append hb).merge (hf a b hpa hqb)⟩

theorem seq3 {f : α → β → γ → δ} (hp : p.Exact) (hq : q.Exact) (hr : r.Exact)
    (hf : ∀ a b c, p.CanFind a → q.CanFind b → r.CanFind c →
      IsMerged (.of (f a b c)) [.of a, .of b, .of c]) : (Matcher.seq3 f p q r).Exact := by
  intro src i hi
  apply (hp.step hi).bind
  rintro ⟨a, _⟩ ⟨hpa, j, rfl, ha⟩
  apply (hq.step ha.le_length).bind
  rintro ⟨b, _⟩ ⟨hqb, k, rfl, hb⟩
  apply (hr.step hb.le_length).bind
  rintro ⟨c, _⟩ ⟨hrc, l, rfl, hc⟩
  exact ⟨l, ((ha.append hb).append hc).merge (hf a b c hpa hqb hrc)⟩

theorem seq4 {f : α → β → γ → δ → ε} (hp : p.Exact) (hq : q.Exact) (hr : r.Exact) (hs : s.Exact)
    (hf : ∀ a b c d, p.CanFind a → q.CanFind b → r.CanFind c → s.CanFind d →
      IsMerged (.of (f a b c d)) [.of a, .of b, .of c, .of d]) :
    (Matcher.seq4 f p q r s).Exact := by
  intro src i hi
  apply (hp.step hi).bind
  rintro ⟨a, _⟩ ⟨hpa, j, rfl, ha⟩
  apply (hq.step ha.le_length).bind
  rintro ⟨b, _⟩ ⟨hqb, k, rfl, hb⟩
  apply (hr.step hb.le_length).bind
  rintro ⟨c, _⟩ ⟨hrc, l, rfl, hc⟩
  apply (hs.step hc.le_length).bind
  rintro ⟨d, _⟩ ⟨hsd, m, rfl, hd⟩
  exact ⟨m, (((ha.append hb).append hc).append hd).merge (hf a b c d hpa hqb hrc hsd)⟩

/-- An option is exact after a change that makes a token of it, whether something is missing or not.
-/
theorem map_perhaps {f : Perhaps α → β} (hp : p.Exact)
    (hpresent : ∀ a, p.CanFind a → IsMerged (.of (f (.present a))) [.of a])
    (hmissing : ∀ here, IsMerged (.of (f (.missing here))) []) :
    (Matcher.map f (Matcher.perhaps p)).Exact := by
  intro src i hi
  have h := hp.holds hi
  rw [Matcher.map, Matcher.perhaps]
  cases hx : p src (src.place i) with
  | found a =>
    rw [hx] at h
    obtain ⟨hfound, j, ha⟩ := h
    exact ⟨j, ha.merge (hpresent a hfound)⟩
  | absent => exact ⟨i, (InTurn.nil hi).merge (hmissing _)⟩
  | fault cause =>
    rw [hx] at h
    exact h

/-- An option that holds a placeholder counts as text, but there is none that it holds. -/
theorem not_exact_perhaps (hp : p.Exact) (hi : i ≤ src.length) {t : α}
    (ht : p src (src.place i) = .found t) (he : Spanned.isEmpty t = true) :
    ¬(Matcher.perhaps p).Exact := by
  intro hoption
  have htoken := hp src i hi
  have hpresent := hoption src i hi
  rw [ht] at htoken
  rw [Matcher.perhaps, ht] at hpresent
  obtain ⟨j, hj⟩ := htoken
  obtain ⟨k, hk⟩ := hpresent
  -- The token ends where it begins, while the option, which is not empty, takes up text.
  obtain rfl := hj.eq_of_isEmpty he
  have hs := hk.stands rfl
  have hlt := hs.lt
  have hlen := src.length_between (i := i) hs.le
  have htexts := hk.join_texts.symm.trans hj.join_texts
  rw [String.ofList_inj, Source.between_self] at htexts
  rw [htexts, List.length_nil] at hlen
  omega

theorem exact_perhaps_iff (hp : p.Exact) :
    (Matcher.perhaps p).Exact ↔ ∀ (src : Source) (i : Nat) (t : α), i ≤ src.length →
      p src (src.place i) = .found t → Spanned.isEmpty t = false := by
  constructor
  · intro hoption src i t hi ht
    rw [← Bool.not_eq_true]
    exact fun he => hp.not_exact_perhaps hi ht he hoption
  · intro hsolid src i hi
    have htoken := hp src i hi
    rw [Matcher.perhaps]
    cases ht : p src (src.place i) with
    | found t =>
      rw [ht] at htoken
      obtain ⟨j, hj⟩ := htoken
      exact ⟨j, hj.merge (isMerged_present_iff.mpr (hsolid src i t hi ht))⟩
    | absent => exact ⟨i, (InTurn.nil hi).merge (isMerged_missing _)⟩
    | fault cause =>
      rw [ht] at htoken
      exact htoken

theorem perhaps (hp : p.Exact)
    (hf : ∀ a, p.CanFind a → IsMerged (.of (Perhaps.present a)) [.of a]) :
    (Matcher.perhaps p).Exact :=
  hp.exact_perhaps_iff.mpr fun src i t _ ht => isMerged_present_iff.mp (hf t ⟨src, src.place i, ht⟩)

/-- A repetition that is allowed one more token than characters are left is not endless: none of its
tokens is empty, so there are no more of them than characters. -/
theorem collect (hp : p.Exact) {fuel : Nat} (hi : i ≤ src.length) (hf : src.length - i < fuel) :
    ∃ ts j, Matcher.collect p src fuel (src.place i) = .ok ts ∧ InTurn src i j (ts.map .of) ∧
      (∀ t ∈ ts, p.CanFind t ∧ Spanned.isEmpty t = false) ∧ ts.length ≤ src.length - i := by
  induction fuel generalizing i with
  | zero => omega
  | succ fuel ih =>
    have h := hp.holds hi
    rw [Matcher.collect]
    cases hx : p src (src.place i) with
    | fault cause =>
      rw [hx] at h
      exact h.elim
    | absent => exact ⟨[], i, rfl, .nil hi, List.forall_mem_nil _, Nat.zero_le _⟩
    | found t =>
      rw [hx] at h
      obtain ⟨hfound, j, ht⟩ := h
      rcases ht.cases_of with ⟨he, rfl⟩ | ⟨hne, hs⟩
      · refine ⟨[], i, ?_, .nil hi, List.forall_mem_nil _, Nat.zero_le _⟩
        exact if_pos he
      · have hlt := hs.lt
        have hj := hs.le
        simp only [hne, Bool.false_eq_true, if_false, ht.resume_eq, Source.offset_place hj]
        split
        · have hone : [t].length ≤ src.length - i := by
            rw [List.length_singleton]
            omega
          exact ⟨[t], j, rfl, ht, List.forall_mem_singleton.mpr ⟨hfound, hne⟩, hone⟩
        · obtain ⟨ts, k, hts, hall, hts', hlen⟩ := ih hj (by omega)
          rw [hts]
          refine ⟨t :: ts, k, rfl, ht.append hall,
            List.forall_mem_cons.mpr ⟨⟨hfound, hne⟩, hts'⟩, ?_⟩
          rw [List.length_cons]
          omega

theorem many {f : α → List α → β} (hp : p.Exact)
    (hf : ∀ a as, (∀ t ∈ a :: as, p.CanFind t) →
      IsMerged (.of (f a as)) ((a :: as).map Piece.of)) : (Matcher.many f p).Exact := by
  intro src i hi
  have hfuel : src.length - i < src.length + 1 := by omega
  obtain ⟨ts, j, hts, hturn, hall, -⟩ := hp.collect hi hfuel
  rw [Matcher.many, hts]
  cases ts with
  | nil => trivial
  | cons t ts => exact ⟨j, hturn.merge (hf t ts fun u hu => (hall u hu).1)⟩

end Exact

end Reckon.Matcher
