import Reckon.Proofs.Expr.Spine

/-! What the two stacks of a reader hold. Read from the bottom up they tell the items that were
read: each open parenthesis stands for itself, each operator for the operand before it and for
itself, and an operand on top, if there is one, for its own lexemes. Operators that lie directly on
one another bind ever more strongly, every operand is canonical, and each fits between the operators
it stands between. Taking an item keeps all this, so no operand is ever missing and what is left at
the end is canonical. -/

namespace Reckon.ExprReader

/-- The stacks of a reader that needs an operand next, the kind of the item it took last, and the
items it has taken. -/
inductive Awaiting : ItemKind → List Held → List Expr → List Item → Prop
  | start : Awaiting .opening [] [] []
  | opening {k : ItemKind} {ops : List Held} {es : List Expr} {ts : List Item} {t : Item} :
    Awaiting k ops es ts → t.kind = .opening → Awaiting .opening (.opening :: ops) es (ts ++ [t])
  | operator {k : ItemKind} {ops : List Held} {es : List Expr} {ts us : List Item} {e : Expr}
      {op : Operator} {t : Item} :
    Awaiting k ops es ts → e.Canonical → us.map Item.lexeme = e.lexemes →
    (∀ p ∈ e.root?, op.precedence ≤ p.precedence) → Admits ops op → t.lexeme = .ofOperator op →
    Awaiting .operator (.operator op :: ops) (e :: es) (ts ++ us ++ [t])

/-- The stacks of a reader that has just completed an operand, and the items it has taken. -/
inductive Complete : List Held → List Expr → List Item → Prop
  | intro {k : ItemKind} {ops : List Held} {e : Expr} {es : List Expr} {ts us : List Item} :
    Awaiting k ops es ts → e.Canonical → us.map Item.lexeme = e.lexemes → Fits ops e →
    Complete ops (e :: es) (ts ++ us)

/-- There is an operand on the stack for each operator. -/
theorem Awaiting.length_operands {k : ItemKind} {ops : List Held} {es : List Expr} {ts : List Item}
    (h : Awaiting k ops es ts) : es.length + ops.count .opening = ops.length := by
  induction h with
  | start => rfl
  | opening h ht ih =>
    rw [List.count_cons_self, List.length_cons]
    omega
  | operator h hc hus hb ha ht ih =>
    rw [List.count_cons_of_ne (by simp), List.length_cons, List.length_cons]
    omega

/-- Without an open parenthesis and right after what may begin an expression nothing has been read.
-/
theorem Awaiting.eq_start {ops : List Held} {es : List Expr} {ts : List Item}
    (h : Awaiting .opening ops es ts) (hn : ops.count .opening = 0) :
    ops = [] ∧ es = [] ∧ ts = [] := by
  cases h with
  | start => exact ⟨rfl, rfl, rfl⟩
  | opening h ht => simp at hn

/-- Two operands and the operator between them become one operand. -/
theorem Complete.join {op : Operator} {ops : List Held} {es : List Expr} {ts : List Item}
    (h : Complete (.operator op :: ops) es ts) :
    ∃ right left rest, es = right :: left :: rest ∧
      Complete ops (.binary left op right :: rest) ts := by
  cases h with
  | @intro k _ right es ts rs h hc hrs hf =>
    cases h with
    | @operator k _ rest ts ls left _ t h hcl hls hb ha ht =>
      refine ⟨right, left, rest, rfl, ?_⟩
      have hcanonical : (Expr.binary left op right).Canonical := ⟨hcl, hc, hb, hf⟩
      have hspelled : (ls ++ t :: rs).map Item.lexeme = (Expr.binary left op right).lexemes := by
        rw [List.map_append, List.map_cons, hls, ht, hrs]
        rfl
      have hfits : Fits ops (.binary left op right) := by
        intro p hp
        obtain rfl : op = p := Option.some.inj hp
        exact ha
      have hjoined := Complete.intro h hcanonical hspelled hfits
      simpa using hjoined

/-- An operand between parentheses is an operand, whatever it was before. -/
theorem Complete.close {ops : List Held} {es : List Expr} {ts : List Item} {u : Item}
    (h : Complete (.opening :: ops) es ts) (hu : u.kind = .closing) :
    ∃ inner rest, es = inner :: rest ∧ Complete ops (.paren inner :: rest) (ts ++ [u]) := by
  cases h with
  | @intro k _ inner es ts ms h hc hms hf =>
    cases h with
    | @opening k _ _ ts t h ht =>
      refine ⟨inner, es, rfl, ?_⟩
      have hspelled : (t :: ms ++ [u]).map Item.lexeme = (Expr.paren inner).lexemes := by
        rw [List.map_append, List.map_cons, hms, Item.lexeme_of_opening ht, List.map_singleton,
          Item.lexeme_of_closing hu]
        rfl
      have hclosed := Complete.intro h (e := .paren inner) hc hspelled (fun p hp => nomatch hp)
      simpa using hclosed

/-- What is complete with nothing on the stack of operators is a canonical expression. -/
theorem Complete.eq_singleton {es : List Expr} {ts : List Item} (h : Complete [] es ts) :
    ∃ e, es = [e] ∧ e.Canonical ∧ ts.map Item.lexeme = e.lexemes := by
  cases h with
  | @intro k _ e es ts us h hc hus hf =>
    cases h with
    | start => exact ⟨e, rfl, hc, hus⟩

/-- The operand on top does not hinder an operator from being pushed. -/
def TopBinds (op : Operator) (es : List Expr) : Prop :=
  ∀ e ∈ es.head?, ∀ p ∈ e.root?, op.precedence ≤ p.precedence

/-- Joining before an operator leaves an operand that the operator may take. -/
theorem Complete.reduceFor {ops : List Held} {es : List Expr} {ts : List Item} {op : Operator}
    (h : Complete ops es ts) (hb : TopBinds op es) (here : Position) :
    ∃ ops' es', (reduceFor op here ops es).result = .ok (es', ops') ∧ Complete ops' es' ts ∧
      TopBinds op es' ∧ Admits ops' op ∧ ops'.count .opening = ops.count .opening := by
  induction ops generalizing es with
  | nil => exact ⟨[], es, rfl, h, hb, trivial, rfl⟩
  | cons item ops ih =>
    cases item with
    | opening => exact ⟨.opening :: ops, es, rfl, h, hb, trivial, rfl⟩
    | operator top =>
      by_cases hlt : top.precedence < op.precedence
      · refine ⟨.operator top :: ops, es, ?_, h, hb, hlt, rfl⟩
        rw [ExprReader.reduceFor, if_pos hlt]
        rfl
      · obtain ⟨right, left, rest, rfl, hjoined⟩ := h.join
        have hbinds : TopBinds op (.binary left top right :: rest) := by
          intro e he p hp
          obtain rfl : Expr.binary left top right = e := Option.some.inj he
          obtain rfl : top = p := Option.some.inj hp
          exact Nat.le_of_not_lt hlt
        obtain ⟨ops', es', hres, hc, ht, ha, hn⟩ := ih hjoined hbinds
        refine ⟨ops', es', ?_, hc, ht, ha, ?_⟩
        · rw [ExprReader.reduceFor, if_neg hlt, reduce_pair, bind_assoc, Logged.result_bind]
          exact hres
        · rw [hn, List.count_cons_of_ne (by simp)]

/-- Joining down to an open parenthesis that is there succeeds. -/
theorem Complete.closeParen {ops : List Held} {es : List Expr} {ts : List Item} {u : Item}
    (h : Complete ops es ts) (hu : u.kind = .closing) (hn : ops.count .opening ≠ 0)
    (here : Position) :
    ∃ ops' inner rest, (closeParen here ops es).result = .ok (.paren inner :: rest, ops') ∧
      Complete ops' (.paren inner :: rest) (ts ++ [u]) ∧
      ops'.count .opening + 1 = ops.count .opening := by
  induction ops generalizing es with
  | nil => exact absurd rfl hn
  | cons item ops ih =>
    cases item with
    | opening =>
      obtain ⟨inner, rest, rfl, hclosed⟩ := h.close hu
      exact ⟨ops, inner, rest, rfl, hclosed, List.count_cons_self.symm⟩
    | operator top =>
      rw [List.count_cons_of_ne (by simp)] at hn ⊢
      obtain ⟨right, left, rest, rfl, hjoined⟩ := h.join
      obtain ⟨ops', inner, rest', hres, hc, hcount⟩ := ih hjoined hn
      refine ⟨ops', inner, rest', ?_, hc, hcount⟩
      rw [ExprReader.closeParen, reduce_pair, bind_assoc, Logged.result_bind]
      exact hres

/-- Joining all that is left succeeds if no parenthesis is open. -/
theorem Complete.reduceAll {ops : List Held} {es : List Expr} {ts : List Item}
    (h : Complete ops es ts) (hn : ops.count .opening = 0) (here : Position) :
    ∃ e, (reduceAll here ops es).result = .ok [e] ∧ e.Canonical ∧
      ts.map Item.lexeme = e.lexemes := by
  induction ops generalizing es with
  | nil =>
    obtain ⟨e, rfl, hc, hts⟩ := h.eq_singleton
    exact ⟨e, rfl, hc, hts⟩
  | cons item ops ih =>
    cases item with
    | opening => simp at hn
    | operator top =>
      rw [List.count_cons_of_ne (by simp)] at hn
      obtain ⟨right, left, rest, rfl, hjoined⟩ := h.join
      obtain ⟨e, hres, hc, hts⟩ := ih hjoined hn
      refine ⟨e, ?_, hc, hts⟩
      rw [ExprReader.reduceAll, reduce_pair, bind_assoc, Logged.result_bind]
      exact hres

end Reckon.ExprReader
