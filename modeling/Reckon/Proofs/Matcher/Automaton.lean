import Mathlib.Computability.DFA
import Mathlib.Order.Bounds.Basic
import Reckon.Proofs.Matcher.Faithful

/-! What an automaton finds. Its table makes it a deterministic automaton in the usual sense, one
that is never stopped: each character leads from a state to a state, and a dead state stays dead. An
automaton that is run on a text stops early, where it is dead, and forgets where it accepted last as
soon as it accepts again. Nothing is missed by that. The last offset that is remembered is the
greatest one up to which the text belongs to the language of the automaton. -/

namespace Reckon

namespace Automaton

/-- The state that a character leads to. What is dead stays dead. -/
def follow (a : Automaton) (state : AutomatonState) (c : Char) : AutomatonState :=
  match state.row? with
  | none => .dead
  | some row => (a.next row c).toOption.getD .dead

/-- The automaton as one that reads every text to its end. -/
def toDFA (a : Automaton) : DFA Char AutomatonState where
  step := a.follow
  start := a.initial
  accept := {state | state.isAccepting = true}

/-- The offsets from `i` on up to which the text is accepted, if it is read from there in the state.
The character at such an offset is the last one of the text accepted. -/
def acceptedFrom (a : Automaton) (src : Source) (state : AutomatonState) (i : Nat) : Set Nat :=
  {k | i ≤ k ∧ k < src.length ∧ src.between i (k + 1) ∈ a.toDFA.acceptsFrom state}

variable {a : Automaton} {src : Source} {state : AutomatonState} {i k : Nat} {c : Char}

theorem follow_of_next {row : Nat} {after : AutomatonState} (hrow : state.row? = some row)
    (h : a.next row c = .ok after) : a.follow state c = after := by
  rw [follow, hrow]
  simp only [h]
  rfl

/-- Behind a dead state nothing is accepted. -/
theorem not_mem_acceptsFrom_of_row? (h : state.row? = none) (cs : List Char) :
    cs ∉ a.toDFA.acceptsFrom state := by
  obtain rfl : state = .dead := by
    cases state with
    | dead => rfl
    | reading _ => cases h
    | accepting _ => cases h
  have hdead : a.toDFA.evalFrom .dead cs = .dead := by
    induction cs with
    | nil => rfl
    | cons c cs ih => exact ih
  rw [DFA.mem_acceptsFrom, hdead]
  exact Bool.false_ne_true

theorem acceptedFrom_of_row? (h : state.row? = none) : a.acceptedFrom src state i = ∅ :=
  Set.eq_empty_of_forall_notMem fun _ hk => not_mem_acceptsFrom_of_row? h _ hk.2.2

theorem acceptedFrom_of_length_le (h : src.length ≤ i) : a.acceptedFrom src state i = ∅ := by
  refine Set.eq_empty_of_forall_notMem ?_
  rintro k ⟨hik, hk, -⟩
  omega

/-- One character is read, and either the text is accepted up to it or up to a later one. -/
theorem mem_acceptedFrom_iff (hc : src.charAt i = some c) :
    k ∈ a.acceptedFrom src state i ↔
      k = i ∧ (a.follow state c).isAccepting = true ∨
        k ∈ a.acceptedFrom src (a.follow state c) (i + 1) := by
  have hone := Source.carries_singleton hc
  have hbetween : ∀ j, i + 1 ≤ j → src.between i j = c :: src.between (i + 1) j := by
    intro j hj
    rw [← Source.between_append (Nat.le_succ i) hj, hone.between_eq, List.singleton_append]
  constructor
  · rintro ⟨hik, hk, haccepts⟩
    rw [hbetween _ (by omega)] at haccepts
    by_cases heq : k = i
    · subst heq
      rw [Source.between_self] at haccepts
      exact .inl ⟨rfl, haccepts⟩
    · exact .inr ⟨by omega, hk, haccepts⟩
  · rintro (⟨rfl, haccepts⟩ | ⟨hik, hk, haccepts⟩)
    · refine ⟨Nat.le_refl k, hone.le_length, ?_⟩
      rw [hone.between_eq]
      exact haccepts
    · refine ⟨by omega, hk, ?_⟩
      rw [hbetween _ (by omega)]
      exact haccepts

/-- What the steps that were taken remember: the greatest offset up to which the text is accepted,
or nothing if there is none. -/
def Remembers (ends : Set Nat) : Option Nat → Prop
  | none => ends = ∅
  | some last => IsGreatest ends last

/-- One more step in front: its offset is remembered if it accepts and nothing was accepted later.
-/
theorem Remembers.cons {ends : Set Nat} {last : Option Nat} {accepting : Bool}
    (h : Remembers ends last) (hle : ∀ k ∈ ends, i ≤ k) :
    Remembers {k | k = i ∧ accepting = true ∨ k ∈ ends}
      (last.or (if accepting then some i else none)) := by
  cases last with
  | some last =>
    obtain ⟨hmem, hupper⟩ : IsGreatest ends last := h
    refine ⟨.inr hmem, ?_⟩
    rintro k (⟨rfl, -⟩ | hk)
    · exact hle last hmem
    · exact hupper hk
  | none =>
    obtain rfl : ends = ∅ := h
    cases accepting with
    | false => exact Set.eq_empty_of_forall_notMem (by simp)
    | true =>
      refine ⟨.inl ⟨rfl, rfl⟩, ?_⟩
      rintro k (⟨rfl, -⟩ | hk)
      · exact Nat.le_refl k
      · exact absurd hk (Set.notMem_empty k)

/-- From any state on, the steps remember where the text was accepted last. The induction is on the
number of characters that are left. -/
theorem InRange.remembers (h : a.InRange) {n : Nat} {steps : List Step}
    (hs : ∀ row, state.row? = some row → row < a.table.length) (hn : src.length - i ≤ n)
    (hsteps : a.stepsFor src n state i = .ok steps) :
    Remembers (a.acceptedFrom src state i) (lastAccepted steps) := by
  induction n generalizing state i steps with
  | zero =>
    obtain rfl := Except.ok.inj hsteps
    exact acceptedFrom_of_length_le (by omega)
  | succ n ih =>
    rw [Automaton.stepsFor] at hsteps
    cases hrow : state.row? with
    | none =>
      rw [hrow] at hsteps
      obtain rfl := Except.ok.inj hsteps
      exact acceptedFrom_of_row? hrow
    | some row =>
      cases hc : src.charAt i with
      | none =>
        rw [hrow, hc] at hsteps
        obtain rfl := Except.ok.inj hsteps
        exact acceptedFrom_of_length_le (Source.charAt_eq_none_iff.mp hc)
      | some c =>
        obtain ⟨after, hnext, hafter⟩ := h.next (hs row hrow) c
        obtain ⟨rest, hrest, -⟩ := h.stepsFor src n (i := i + 1) hafter
        rw [hrow, hc] at hsteps
        simp only [hnext, hrest] at hsteps
        obtain rfl := Except.ok.inj hsteps
        have hends : a.acceptedFrom src state i =
            {k | k = i ∧ after.isAccepting = true ∨ k ∈ a.acceptedFrom src after (i + 1)} := by
          ext k
          rw [← follow_of_next hrow hnext]
          exact mem_acceptedFrom_iff hc
        rw [hends]
        exact (ih hafter (by omega) hrest).cons fun k hk => Nat.le_of_succ_le hk.1

end Automaton

namespace Matcher

/-- An automaton finds the text up to the greatest offset up to which it accepts, and misses if it
accepts up to none. -/
theorem automaton_greatest (kind : LeafKind) {a : Automaton} (ha : a.InRange) (src : Source)
    (i : Nat) (here : Position) (h : src.positionOf i = .ok here) :
    (automaton kind a src here = .absent ↔
      ¬∃ k, i ≤ k ∧ k < src.length ∧ src.between i (k + 1) ∈ a.toDFA.accepts) ∧
    (automaton kind a src here ≠ .absent →
      ∃ l m, automaton kind a src here = .found l ∧ l.kind = kind ∧
        IsGreatest {k | i ≤ k ∧ k < src.length ∧ src.between i (k + 1) ∈ a.toDFA.accepts} m ∧
        TakesUp src i (src.between i (m + 1)) l) := by
  obtain ⟨hi, rfl⟩ := Source.eq_place_of_positionOf h
  obtain ⟨steps, hsteps, -⟩ := ha.stepsFor src (src.length - i) (i := i) ha.initial
  have hremembers := ha.remembers ha.initial (Nat.le_refl _) hsteps
  cases hlast : Automaton.lastAccepted steps with
  | none =>
    rw [hlast] at hremembers
    have habsent : automaton kind a src (src.place i) = .absent := by
      rw [automaton, Source.offset_place hi, Automaton.steps, hsteps]
      simp only [Attempt.ofExcept_ok, Attempt.found_bind, hlast]
    refine ⟨iff_of_true habsent ?_, fun hfound => absurd habsent hfound⟩
    rintro ⟨k, hk⟩
    have hmem : k ∈ a.acceptedFrom src a.initial i := hk
    rw [show a.acceptedFrom src a.initial i = ∅ from hremembers] at hmem
    exact hmem
  | some m =>
    rw [hlast] at hremembers
    obtain ⟨⟨him, hm, haccepts⟩, hupper⟩ := hremembers
    have hstands : Stands src i (m + 1) (src.leaf kind i (m + 1)) := ⟨by omega, hm, rfl, rfl⟩
    have hfound : automaton kind a src (src.place i) = .found (src.leaf kind i (m + 1)) := by
      rw [automaton, Source.offset_place hi, Automaton.steps, hsteps]
      simp only [Attempt.ofExcept_ok, Attempt.found_bind, hlast]
      exact through_eq kind (Nat.lt_succ_of_le him) hm
    refine ⟨iff_of_false ?_ (not_not_intro ⟨m, him, hm, haccepts⟩), fun _ => ?_⟩
    · rw [hfound]
      intro hno
      cases hno
    · exact ⟨_, m, hfound, rfl, ⟨⟨him, hm, haccepts⟩, hupper⟩, hstands.takesUp rfl⟩

/-- The letters `a` and `b` in turn, an equal number of both. -/
def pairsAutomaton : Automaton where
  initial := .reading 0
  table := [[.reading 1, .dead, .dead], [.dead, .accepting 2, .dead], [.reading 1, .dead, .dead]]
  classify c := if c = 'a' then 0 else if c = 'b' then 1 else 2

theorem inRange_pairsAutomaton : pairsAutomaton.InRange where
  initial := by decide
  columns := by
    intro entries hentries c
    have hlength : ∀ entries ∈ pairsAutomaton.table, entries.length = 3 := by decide
    rw [hlength entries hentries, pairsAutomaton]
    dsimp only
    split
    · decide
    · split <;> decide
  rows := by decide

/-- An `a` that no `b` follows is read but not taken up. -/
theorem automaton_greatest_pairs :
    pairsAutomaton.InRange ∧
      (Source.mk #['x', 'a', 'b', 'a', 'b', 'a', 'z'] (by decide)).positionOf 1 = .ok ⟨0, 1, 1⟩ ∧
      ∃ l, automaton .identifier pairsAutomaton
          (Source.mk #['x', 'a', 'b', 'a', 'b', 'a', 'z'] (by decide)) ⟨0, 1, 1⟩ = .found l ∧
        TakesUp (Source.mk #['x', 'a', 'b', 'a', 'b', 'a', 'z'] (by decide)) 1
          ['a', 'b', 'a', 'b'] l := by
  obtain ⟨-, hfound⟩ := automaton_greatest .identifier inRange_pairsAutomaton
    (Source.mk #['x', 'a', 'b', 'a', 'b', 'a', 'z'] (by decide)) 1 ⟨0, 1, 1⟩ rfl
  have hread : automaton .identifier pairsAutomaton
      (Source.mk #['x', 'a', 'b', 'a', 'b', 'a', 'z'] (by decide)) ⟨0, 1, 1⟩ =
        .found ⟨.identifier, "abab", ⟨0, 1, 1⟩, ⟨0, 4, 4⟩⟩ := rfl
  obtain ⟨l, m, hl, -, -, htakes⟩ := hfound (by rw [hread]; nofun)
  obtain rfl := Attempt.found.inj (hl.symm.trans hread)
  have htext := String.ofList_injective (Except.ok.inj htakes.text).symm
  rw [htext] at htakes
  exact ⟨inRange_pairsAutomaton, rfl, _, hl, htakes⟩

end Matcher

end Reckon
