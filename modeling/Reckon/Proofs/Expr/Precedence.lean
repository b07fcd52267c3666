import Reckon.Proofs.Expr.Stacks

/-! Reading with two stacks accepts exactly the lexemes of canonical expressions, and finds the
expression. That what is found is canonical and spelled by the items follows from what the stacks
hold before and after each item; that every canonical expression is found follows from what a reader
does with its lexemes. -/

namespace Reckon

namespace ExprReader

/-- What holds of a reader that has taken the items `ts`. An operand that was just completed is a
single item or stands in parentheses. -/
structure Reads (r : ExprReader) (ts : List Item) : Prop where
  unmatched : r.unmatched = r.operators.count .opening
  awaiting : r.previous.endsOperand = false → Awaiting r.previous r.operators r.operands ts
  complete : r.previous.endsOperand = true → Complete r.operators r.operands ts
  atomic : r.previous.endsOperand = true → ∀ e ∈ r.operands.head?, e.root? = none

theorem reads_start : Reads start [] where
  unmatched := rfl
  awaiting _ := .start
  complete h := nomatch h
  atomic h := nomatch h

/-- A leaf is an operand of its own. -/
theorem Reads.leaf {r : ExprReader} {ts : List Item} (h : Reads r ts)
    (hp : r.previous.endsOperand = false) {e : Expr} {t : Item} (he : e.lexemes = [t.lexeme])
    (hc : e.Canonical) (hr : e.root? = none) {k : ItemKind} (hk : k.endsOperand = true) :
    Reads ⟨e :: r.operands, r.operators, r.unmatched, k⟩ (ts ++ [t]) where
  unmatched := h.unmatched
  awaiting hk' := absurd (hk.symm.trans hk') (by decide)
  complete _ := .intro (h.awaiting hp) hc (by rw [he]; rfl) (fun p hp => by simp [hr] at hp)
  atomic _ := by
    intro e' he'
    obtain rfl : e = e' := Option.some.inj he'
    exact hr

/-- An operator after an operand is always taken. -/
theorem Reads.operator {r : ExprReader} {ts : List Item} (h : Reads r ts)
    (hp : r.previous.endsOperand = true) {op : Operator} {t : Item}
    (ht : t.lexeme = .ofOperator op) :
    ∃ r', (r.step t).result = .ok r' ∧ Reads r' (ts ++ [t]) := by
  have hbinds : TopBinds op r.operands := by
    intro e he p hr
    rw [h.atomic hp e he] at hr
    cases hr
  obtain ⟨ops, es, hres, hc, hb, ha, hn⟩ := (h.complete hp).reduceFor hbinds t.first
  refine ⟨⟨es, .operator op :: ops, r.unmatched, .operator⟩, ?_, ?_⟩
  · rw [step_operator ht hp, Logged.result_bind, hres]
    rfl
  · cases hc with
    | @intro k _ e es us vs hw hc hvs hf =>
      exact {
        unmatched := by rw [h.unmatched, ← hn, List.count_cons_of_ne (by simp)]
        awaiting := fun _ => .operator hw hc hvs (hb e rfl) ha ht
        complete := by intro h; cases h
        atomic := by intro h; cases h }

/-- A closing parenthesis after an operand is taken if a parenthesis is open. -/
theorem Reads.closing {r : ExprReader} {ts : List Item} (h : Reads r ts)
    (hp : r.previous.endsOperand = true) (hu : r.unmatched ≠ 0) {t : Item}
    (ht : t.kind = .closing) :
    ∃ r', (r.step t).result = .ok r' ∧ Reads r' (ts ++ [t]) := by
  obtain ⟨ops, inner, rest, hres, hc, hn⟩ :=
    (h.complete hp).closeParen ht (h.unmatched ▸ hu) t.first
  refine ⟨⟨.paren inner :: rest, ops, r.unmatched - 1, .closing⟩, ?_, ?_⟩
  · rw [step_closing ht hp hu, Logged.result_bind, hres]
    rfl
  · exact {
      unmatched := by rw [h.unmatched, ← hn]; rfl
      awaiting := by intro h; cases h
      complete := fun _ => hc
      atomic := fun _ e he => by
        obtain rfl := Option.some.inj he
        rfl }

/-- Taking an item keeps what holds of a reader. -/
theorem Reads.step {r r' : ExprReader} {ts : List Item} {t : Item} (h : Reads r ts)
    (hs : (r.step t).result = .ok r') : Reads r' (ts ++ [t]) := by
  cases ha : r.previous.allows t.kind with
  | false =>
    rw [ExprReader.step, ha] at hs
    cases hs
  | true =>
    cases hk : t.kind with
    | literal =>
      rw [hk, ItemKind.allows_literal, Bool.not_eq_true'] at ha
      have ht : t.lexeme = ⟨.literal, t.text⟩ := by
        rw [Item.lexeme_of_ne (by simp [hk]) (by simp [hk]), hk]
      rw [step_literal ht ha] at hs
      obtain rfl := Except.ok.inj hs
      exact h.leaf ha (e := .literal t.text) (by rw [ht]; rfl) trivial rfl rfl
    | name =>
      rw [hk, ItemKind.allows_name, Bool.not_eq_true'] at ha
      have ht : t.lexeme = ⟨.name, t.text⟩ := by
        rw [Item.lexeme_of_ne (by simp [hk]) (by simp [hk]), hk]
      rw [step_name ht ha] at hs
      obtain rfl := Except.ok.inj hs
      exact h.leaf ha (e := .name t.text) (by rw [ht]; rfl) trivial rfl rfl
    | operator =>
      rw [hk, ItemKind.allows_operator] at ha
      cases hop : Operator.ofSymbol? t.text with
      | none =>
        rw [ExprReader.step, hk, ItemKind.allows_operator, ha, hop] at hs
        cases hs
      | some op =>
        have ht : t.lexeme = .ofOperator op := by
          rw [Item.lexeme_of_ne (by simp [hk]) (by simp [hk]), hk, Operator.text_of_ofSymbol? hop]
          rfl
        obtain ⟨q, hq, hreads⟩ := h.operator ha ht
        obtain rfl := Except.ok.inj (hq.symm.trans hs)
        exact hreads
    | opening =>
      rw [hk, ItemKind.allows_opening, Bool.not_eq_true'] at ha
      rw [step_opening hk ha] at hs
      obtain rfl := Except.ok.inj hs
      exact {
        unmatched := by rw [h.unmatched, List.count_cons_self]
        awaiting := fun _ => .opening (h.awaiting ha) hk
        complete := by intro h; cases h
        atomic := by intro h; cases h }
    | closing =>
      by_cases hu : r.unmatched = 0 ∨ r.previous = .opening
      · rw [ExprReader.step, ha, hk] at hs
        simp only [if_true, if_pos hu] at hs
        cases hs
      · rw [not_or] at hu
        have hp : r.previous.endsOperand = true := by
          rw [hk, ItemKind.allows_closing] at ha
          simpa [hu.2] using ha
        obtain ⟨q, hq, hreads⟩ := h.closing hp hu.1 hk
        obtain rfl := Except.ok.inj (hq.symm.trans hs)
        exact hreads

/-- Taking items one by one keeps what holds of a reader. -/
theorem Reads.steps {r r' : ExprReader} {ts us : List Item} (h : Reads r ts)
    (hs : (r.steps us).result = .ok r') : Reads r' (ts ++ us) := by
  induction us generalizing r ts with
  | nil =>
    obtain rfl := Except.ok.inj hs
    rwa [List.append_nil]
  | cons u us ih =>
    rw [ExprReader.steps, Logged.result_bind] at hs
    cases hu : (r.step u).result with
    | error e =>
      rw [hu] at hs
      cases hs
    | ok q =>
      rw [hu] at hs
      have hq := ih (h.step hu) hs
      rwa [List.append_assoc] at hq

/-- What a reader ends with is canonical and spelled by the items it has taken. -/
theorem Reads.finish {r : ExprReader} {ts : List Item} (h : Reads r ts) {stop : Position} {e : Expr}
    (he : (r.finish stop).result = .ok e) : e.Canonical ∧ ts.map Item.lexeme = e.lexemes := by
  by_cases hop : r.previous = .operator
  · rw [ExprReader.finish, if_pos hop] at he
    cases he
  by_cases hu : r.unmatched ≠ 0
  · rw [ExprReader.finish, if_neg hop, if_pos hu] at he
    cases he
  have hn : r.operators.count .opening = 0 := by rw [← h.unmatched]; simpa using hu
  rw [ExprReader.finish, if_neg hop, if_neg hu, Logged.result_bind] at he
  cases hp : r.previous.endsOperand with
  | false =>
    have hopening : r.previous = .opening := by
      cases hk : r.previous <;> simp_all [ItemKind.endsOperand]
    have hw := h.awaiting hp
    rw [hopening] at hw
    obtain ⟨hops, hes, -⟩ := hw.eq_start hn
    rw [hops, hes] at he
    cases he
  | true =>
    obtain ⟨e', hres, hc, hts⟩ := (h.complete hp).reduceAll hn stop
    rw [hres] at he
    obtain rfl := Except.ok.inj he
    exact ⟨hc, hts⟩

end ExprReader

namespace Expr

/-- Items are read as an expression if and only if the expression is canonical and the items spell
it. -/
theorem ofItems_eq_ok_iff (ts : List Item) (stop : Position) (e : Expr) :
    ofItems ts stop = .ok e ↔ e.Canonical ∧ ts.map Item.lexeme = e.lexemes := by
  constructor
  · intro h
    rw [ofItems, ExprReader.read, Logged.result_bind] at h
    cases hr : (ExprReader.start.steps ts).result with
    | error cause =>
      rw [hr] at h
      cases h
    | ok r =>
      rw [hr] at h
      exact (ExprReader.reads_start.steps hr).finish h
  · rintro ⟨hc, hts⟩
    rw [ofItems, ExprReader.read_of_lexemes hc hts]
    rfl

end Expr

end Reckon
