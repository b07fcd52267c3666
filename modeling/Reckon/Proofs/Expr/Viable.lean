import Reckon.Proofs.Expr.Discipline

/-! Where a list of items stops being the beginning of an expression. Items that a reader takes can
always be completed: by an operand if one is missing, and then by as many closing parentheses as are
open. An item that is not taken is taken in no continuation either. So the reader finds the first
item behind which nothing could help, and if there is none it is at the end of the items that
something is missing. -/

namespace Reckon

namespace Expr

/-- Some continuation of the items is an expression. -/
def Viable (ts : List Item) : Prop := ∃ more stop e, ofItems (ts ++ more) stop = .ok e

/-- What is missing at the end of items that are the beginning of an expression but none
themselves: an operand at their beginning and behind an operator, a closing parenthesis elsewhere.
-/
def missingAtEnd (ts : List Item) (stop : Position) : ParseError :=
  if ts = [] ∨ Item.lastKind ts = .operator then .unexpectedEnd stop else .closingExpected stop

end Expr

namespace ExprReader

open Reckon.Expr

variable {r : ExprReader} {ts : List Item}

/-- The reader takes the first `k` items and refuses the next one with the error `e`. -/
def FailsAt (ts : List Item) (k : Nat) (e : ParseError) : Prop :=
  ∃ r t, (start.steps (ts.take k)).result = .ok r ∧ ts[k]? = some t ∧
    (r.step t).result = .error e

theorem exists_of_steps_append {us : List Item} {q : ExprReader}
    (h : (r.steps (ts ++ us)).result = .ok q) : ∃ r', (r.steps ts).result = .ok r' := by
  rw [steps_append] at h
  obtain ⟨r', hr', -⟩ := Logged.exists_of_bind_eq_ok h
  exact ⟨r', hr'⟩

theorem result_steps_append {us : List Item} {q : ExprReader}
    (h : (r.steps ts).result = .ok q) : (r.steps (ts ++ us)).result = (q.steps us).result := by
  rw [steps_append, Logged.result_bind, h]
  rfl

theorem ofItems_of_steps (h : (start.steps ts).result = .ok r) (stop : Position) :
    ofItems ts stop = (r.finish stop).result := by
  rw [ofItems, read, Logged.result_bind, h]
  rfl

/-- Items that begin an expression are taken. -/
theorem exists_of_viable (h : Viable ts) : ∃ r, (start.steps ts).result = .ok r := by
  obtain ⟨more, stop, e, h⟩ := h
  obtain ⟨q, hq, -⟩ := Logged.exists_of_bind_eq_ok h
  exact exists_of_steps_append hq

/-- At the end there is an expression, or something is missing. -/
theorem finish_of_steps (h : (start.steps ts).result = .ok r) (stop : Position) :
    (∃ e, (r.finish stop).result = .ok e) ∨
      (r.finish stop).result = .error (missingAtEnd ts stop) := by
  cases hf : (r.finish stop).result with
  | ok e => exact .inl ⟨e, rfl⟩
  | error e =>
    right
    have hlast := previous_of_steps h
    rcases (reads_of_steps h).finish_error hf with ⟨rfl, hmissing⟩ | ⟨rfl, hop, hopen⟩
    · rw [missingAtEnd, if_pos (hlast ▸ hmissing)]
    · rw [missingAtEnd, if_neg]
      rintro (rfl | hkind)
      · cases h
        exact hopen rfl
      · exact hop (hlast.trans hkind)

/-- A closing parenthesis, wherever it stands. -/
def closingItem : Item := ⟨.closing, ")", .origin, .origin⟩

theorem step_closingItem (h : Reads r ts) (hp : r.previous.endsOperand = true)
    (hu : r.unmatched ≠ 0) : ∃ q, (r.step closingItem).result = .ok q ∧
      Reads q (ts ++ [closingItem]) ∧ q.previous.endsOperand = true ∧
      q.unmatched = r.unmatched - 1 := by
  obtain ⟨q, hq, hreads⟩ := h.closing hp hu (t := closingItem) rfl
  have hprevious : q.previous = .closing := previous_of_step hq
  refine ⟨q, hq, hreads, by rw [hprevious]; rfl, ?_⟩
  rw [step_closing rfl hp hu] at hq
  obtain ⟨reduced, -, hq⟩ := Logged.exists_of_bind_eq_ok hq
  cases hq
  rfl

/-- Behind an operand all open parentheses may be closed. -/
theorem steps_closingItems (h : Reads r ts) (hp : r.previous.endsOperand = true) :
    ∃ q, (r.steps (List.replicate r.unmatched closingItem)).result = .ok q ∧
      q.previous.endsOperand = true ∧ q.unmatched = 0 := by
  induction hn : r.unmatched generalizing r ts with
  | zero => exact ⟨r, rfl, hp, hn⟩
  | succ n ih =>
    obtain ⟨q, hq, hreads, hends, hcount⟩ := step_closingItem h hp (by omega)
    obtain ⟨final, hfinal, hlast⟩ := ih hreads hends (by omega)
    refine ⟨final, ?_, hlast⟩
    rw [List.replicate_succ, steps, Logged.result_bind, hq]
    exact hfinal

/-- Where an operand is missing a literal is taken. -/
theorem exists_operand (h : (start.steps ts).result = .ok r) :
    ∃ more q, (start.steps (ts ++ more)).result = .ok q ∧ q.previous.endsOperand = true := by
  cases hp : r.previous.endsOperand with
  | true =>
    refine ⟨[], r, ?_, hp⟩
    rw [List.append_nil]
    exact h
  | false =>
    refine ⟨[⟨.literal, "0", .origin, .origin⟩], ?_⟩
    rw [result_steps_append h, steps_singleton, step_literal rfl hp]
    exact ⟨_, rfl, rfl⟩

/-- Items that are taken begin an expression. -/
theorem viable_of_steps (h : (start.steps ts).result = .ok r) : Viable ts := by
  obtain ⟨more, q, hq, hp⟩ := exists_operand h
  obtain ⟨final, hfinal, hends, hclosed⟩ := steps_closingItems (reads_of_steps hq) hp
  have hsteps := (result_steps_append hq).trans hfinal
  rw [List.append_assoc] at hsteps
  refine ⟨more ++ List.replicate q.unmatched closingItem, .origin, ?_⟩
  cases hf : (final.finish .origin).result with
  | ok e =>
    exact ⟨e, (ofItems_of_steps hsteps _).trans hf⟩
  | error e =>
    -- Nothing is missing behind an operand once all parentheses are closed.
    exfalso
    have hlast := previous_of_steps hsteps
    rcases (reads_of_steps hsteps).finish_error hf with ⟨-, hnil | hop⟩ | ⟨-, -, hopen⟩
    · rw [hnil] at hlast
      rw [hlast] at hends
      cases hends
    · rw [hop] at hends
      cases hends
    · exact hopen hclosed

/-- The items that begin an expression are those that are taken. -/
theorem viable_iff : Viable ts ↔ ∃ r, (start.steps ts).result = .ok r :=
  ⟨exists_of_viable, fun ⟨_, h⟩ => viable_of_steps h⟩

theorem take_succ_of_getElem? {k : Nat} {t : Item} (h : ts[k]? = some t) :
    ts.take (k + 1) = ts.take k ++ [t] := by
  rw [List.take_add_one, h]
  rfl

/-- An item is refused if and only if the items before it begin an expression and do not do so with
it. -/
theorem failsAt_iff_viable (ts : List Item) (k : Nat) (e : ParseError) :
    FailsAt ts k e ↔ ∃ t, ts[k]? = some t ∧ Viable (ts.take k) ∧ ¬Viable (ts.take (k + 1)) ∧
      e = refusal (Item.lastKind (ts.take k)) t := by
  constructor
  · rintro ⟨r, t, hr, ht, he⟩
    refine ⟨t, ht, viable_of_steps hr, ?_, ?_⟩
    · rw [take_succ_of_getElem? ht]
      intro hviable
      obtain ⟨q, hq⟩ := exists_of_viable hviable
      rw [result_steps_append hr, steps_singleton, he] at hq
      cases hq
    · rw [← previous_of_steps hr]
      exact (reads_of_steps hr).step_error he
  · rintro ⟨t, ht, hbefore, hafter, rfl⟩
    obtain ⟨r, hr⟩ := exists_of_viable hbefore
    refine ⟨r, t, hr, ht, ?_⟩
    cases hs : (r.step t).result with
    | ok q =>
      refine absurd (viable_of_steps (r := q) ?_) hafter
      rw [take_succ_of_getElem? ht, result_steps_append hr, steps_singleton]
      exact hs
    | error e => rw [(reads_of_steps hr).step_error hs, previous_of_steps hr]

/-- A reader that refuses an item ends with the error about it. -/
theorem ofItems_of_failsAt {k : Nat} {e : ParseError} (h : FailsAt ts k e) (stop : Position) :
    ofItems ts stop = .error e := by
  obtain ⟨r, t, hr, ht, he⟩ := h
  have hsplit : ts = ts.take k ++ t :: ts.drop (k + 1) := by
    obtain ⟨hk, rfl⟩ := List.getElem?_eq_some_iff.mp ht
    rw [List.getElem_cons_drop, List.take_append_drop]
  have hsteps : (start.steps ts).result = .error e := by
    rw [hsplit, result_steps_append hr, steps, Logged.result_bind, he]
    rfl
  rw [ofItems, read, Logged.result_bind, hsteps]
  rfl

/-- Where reading fails, an item was refused or something is missing at the end. -/
theorem error_cases {stop : Position} {e : ParseError} (h : ofItems ts stop = .error e) :
    (∃ k, FailsAt ts k e) ∨ Viable ts ∧ e = missingAtEnd ts stop := by
  rcases Logged.bind_eq_error h with h | ⟨r, hr, hf⟩
  · left
    obtain ⟨us, t, vs, q, rfl, hq, ht⟩ := steps_error h
    refine ⟨us.length, q, t, ?_, ?_, ht⟩
    · rw [List.take_left']
      · exact hq
      · rfl
    · simp
  · right
    refine ⟨viable_of_steps hr, ?_⟩
    rcases finish_of_steps hr stop with ⟨e', he'⟩ | he'
    · rw [hf] at he'
      cases he'
    · rw [hf] at he'
      exact Except.error.inj he'

end ExprReader

/-- Reading fails at the first item behind which nothing could help, with an error about that item;
and if all items begin an expression but are none, it fails at their end for what is missing there.
-/
theorem Expr.ofItems_eq_error_iff (ts : List Item) (stop : Position) :
    (∀ k e, ExprReader.FailsAt ts k e ↔ ∃ t, ts[k]? = some t ∧ Viable (ts.take k) ∧
      ¬Viable (ts.take (k + 1)) ∧ e = ExprReader.refusal (Item.lastKind (ts.take k)) t) ∧
    ∀ e, ofItems ts stop = .error e ↔ (∃ k, ExprReader.FailsAt ts k e) ∨
      Viable ts ∧ (∀ e', ofItems ts stop ≠ .ok e') ∧ e = missingAtEnd ts stop := by
  refine ⟨ExprReader.failsAt_iff_viable ts, fun e => ⟨fun h => ?_, ?_⟩⟩
  · rcases ExprReader.error_cases h with hfails | ⟨hviable, he⟩
    · exact .inl hfails
    · refine .inr ⟨hviable, ?_, he⟩
      rw [h]
      nofun
  · rintro (⟨k, hfails⟩ | ⟨hviable, hno, rfl⟩)
    · exact ExprReader.ofItems_of_failsAt hfails stop
    · obtain ⟨r, hr⟩ := ExprReader.exists_of_viable hviable
      rw [ExprReader.ofItems_of_steps hr] at hno ⊢
      rcases ExprReader.finish_of_steps hr stop with ⟨e, he⟩ | he
      · exact absurd he (hno e)
      · exact he

end Reckon
