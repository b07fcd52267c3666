import Reckon.Proofs.Expr.Precedence

/-! The stacks of a reader after each item. There is one open parenthesis on the stack for each that
was not closed, one operand for each operator on the stack and one more where an operand was just
completed, and between two open parentheses the operators bind ever more strongly from the bottom
up, of which two levels of precedence leave room for two. So whoever takes something from a stack
finds it there, and the only errors of a reader are those about the item it was given and about the
end of the items. -/

namespace Reckon

def Held.isOperator : Held → Bool
  | .operator _ => true
  | .opening => false

/-- The kind of the last item. Before the first one it is like that of an opening parenthesis. -/
def Item.lastKind (ts : List Item) : ItemKind := (ts.getLast?.map Item.kind).getD .opening

theorem Operator.precedence_le (op : Operator) : op.precedence ≤ 1 := by
  cases op <;> decide

theorem Operator.ofSymbol?_eq_none_iff {symbol : String} :
    ofSymbol? symbol = none ↔ symbol ∉ ["+", "-", "*", "/"] := by
  unfold ofSymbol?
  repeat' split
  all_goals simp_all

namespace ExprReader

/-- The operators of a stack, parted by the open parentheses. The innermost part comes first, and in
each part the operator on top. -/
def levels : List Held → List (List Operator)
  | [] => [[]]
  | .opening :: ops => [] :: levels ops
  | .operator op :: ops => (levels ops).modifyHead (op :: ·)

/-- Every operator binds more strongly than those below it. -/
def Rises (level : List Operator) : Prop :=
  level.Pairwise fun upper lower => lower.precedence < upper.precedence

theorem Rises.length_le {level : List Operator} (h : Rises level) : level.length ≤ 2 := by
  match level, h with
  | [], _ => exact Nat.zero_le _
  | [_], _ => exact Nat.le_succ _
  | [_, _], _ => exact Nat.le_refl _
  | first :: second :: third :: rest, h =>
    obtain ⟨hfirst, hrest⟩ := List.pairwise_cons.mp h
    obtain ⟨hsecond, -⟩ := List.pairwise_cons.mp hrest
    have h12 := hfirst second List.mem_cons_self
    have h23 := hsecond third List.mem_cons_self
    have hle := first.precedence_le
    omega

/-- An operator may be put on operators that rise if it binds more strongly than the one on top. -/
theorem Rises.cons {top op : Operator} {level : List Operator} (h : Rises (top :: level))
    (hop : top.precedence < op.precedence) : Rises (op :: top :: level) := by
  obtain ⟨htop, -⟩ := List.pairwise_cons.mp h
  refine List.pairwise_cons.mpr ⟨?_, h⟩
  intro lower hlower
  rcases List.mem_cons.mp hlower with rfl | hlower
  · exact hop
  · exact Nat.lt_trans (htop lower hlower) hop

theorem levels_ne_nil (ops : List Held) : levels ops ≠ [] := by
  induction ops with
  | nil => exact List.cons_ne_nil _ _
  | cons item ops ih =>
    cases item with
    | opening => exact List.cons_ne_nil _ _
    | operator op =>
      obtain ⟨level, rest, hlevels⟩ := List.exists_cons_of_ne_nil ih
      rw [levels, hlevels]
      exact List.cons_ne_nil _ _

theorem rises_of_admits {op : Operator} {ops : List Held} (ha : Admits ops op)
    (h : ∀ level ∈ levels ops, Rises level) :
    ∀ level ∈ levels (.operator op :: ops), Rises level := by
  cases ops with
  | nil =>
    intro level hlevel
    obtain rfl := List.mem_singleton.mp hlevel
    exact List.pairwise_singleton _ _
  | cons item ops =>
    cases item with
    | opening =>
      obtain ⟨-, hrest⟩ := List.forall_mem_cons.mp h
      exact List.forall_mem_cons.mpr ⟨List.pairwise_singleton _ _, hrest⟩
    | operator top =>
      obtain ⟨level, rest, hlevels⟩ := List.exists_cons_of_ne_nil (levels_ne_nil ops)
      rw [levels, hlevels, List.modifyHead_cons] at h
      obtain ⟨hlevel, hrest⟩ := List.forall_mem_cons.mp h
      rw [levels, levels, hlevels, List.modifyHead_cons, List.modifyHead_cons]
      exact List.forall_mem_cons.mpr ⟨hlevel.cons ha, hrest⟩

variable {k : ItemKind} {ops : List Held} {es : List Expr} {ts : List Item} {r : ExprReader}

theorem Awaiting.rises (h : Awaiting k ops es ts) : ∀ level ∈ levels ops, Rises level := by
  induction h with
  | start =>
    intro level hlevel
    obtain rfl := List.mem_singleton.mp hlevel
    exact .nil
  | opening _ _ ih => exact List.forall_mem_cons.mpr ⟨.nil, ih⟩
  | operator _ _ _ _ ha _ ih => exact rises_of_admits ha ih

theorem Complete.rises (h : Complete ops es ts) : ∀ level ∈ levels ops, Rises level := by
  cases h with
  | intro hw _ _ _ => exact hw.rises

theorem Complete.length_operands (h : Complete ops es ts) :
    es.length + ops.count .opening = ops.length + 1 := by
  cases h with
  | intro hw _ _ _ =>
    have hlen := hw.length_operands
    rw [List.length_cons]
    omega

theorem countP_isOperator (ops : List Held) :
    ops.countP Held.isOperator + ops.count .opening = ops.length := by
  induction ops with
  | nil => rfl
  | cons item ops ih =>
    cases item with
    | operator op =>
      rw [List.countP_cons_of_pos rfl, List.count_cons_of_ne (by simp), List.length_cons]
      omega
    | opening =>
      rw [List.countP_cons_of_neg (by simp [Held.isOperator]), List.count_cons_self,
        List.length_cons]
      omega

/-! Which errors a reader finds. -/

/-- A reader that takes an item keeps its kind. -/
theorem previous_of_step {r' : ExprReader} {t : Item} (h : (r.step t).result = .ok r') :
    r'.previous = t.kind := by
  unfold step at h
  split at h
  · split at h <;> rename_i hk
    · cases h
      exact hk.symm
    · cases h
      exact hk.symm
    · split at h
      · cases h
      · obtain ⟨reduced, -, h⟩ := Logged.exists_of_bind_eq_ok h
        cases h
        exact hk.symm
    · cases h
      exact hk.symm
    · split at h
      · cases h
      · obtain ⟨reduced, -, h⟩ := Logged.exists_of_bind_eq_ok h
        cases h
        exact hk.symm
  · cases h

theorem steps_concat {r' : ExprReader} {t : Item} (h : (r.steps (ts ++ [t])).result = .ok r') :
    ∃ q, (r.steps ts).result = .ok q ∧ (q.step t).result = .ok r' := by
  rw [steps_append] at h
  obtain ⟨q, hq, h⟩ := Logged.exists_of_bind_eq_ok h
  rw [steps_singleton] at h
  exact ⟨q, hq, h⟩

theorem previous_of_steps (h : (start.steps ts).result = .ok r) :
    r.previous = Item.lastKind ts := by
  rcases List.eq_nil_or_concat ts with rfl | ⟨us, t, rfl⟩
  · cases h
    rfl
  · rw [List.concat_eq_append] at h ⊢
    obtain ⟨q, -, hstep⟩ := steps_concat h
    rw [previous_of_step hstep, Item.lastKind, List.getLast?_concat, Option.map_some,
      Option.getD_some]

theorem reads_of_steps (h : (start.steps ts).result = .ok r) : Reads r ts := reads_start.steps h

/-- Items that are not all taken hold a first one that is not. -/
theorem steps_error {e : ParseError} (h : (r.steps ts).result = .error e) :
    ∃ us t vs q, ts = us ++ t :: vs ∧ (r.steps us).result = .ok q ∧
      (q.step t).result = .error e := by
  induction ts generalizing r with
  | nil => cases h
  | cons t ts ih =>
    rw [steps] at h
    rcases Logged.bind_eq_error h with h | ⟨q, hq, h⟩
    · exact ⟨[], t, ts, r, rfl, rfl, h⟩
    · obtain ⟨us, u, vs, q', rfl, hus, hu⟩ := ih h
      refine ⟨t :: us, u, vs, q', rfl, ?_, hu⟩
      rw [steps, Logged.result_bind, hq]
      exact hus

/-- What is said about an item that is not taken behind one of kind `before`. Where an operator may
stand it was one that is not known; anywhere else the item itself is out of place. -/
def refusal (before : ItemKind) (t : Item) : ParseError :=
  if before.endsOperand = true ∧ t.kind = .operator ∧ t.text ∉ ["+", "-", "*", "/"] then
    .unknownOperator t.text t.first
  else .unexpectedToken t.text t.first

theorem Reads.step_error (h : Reads r ts) {t : Item} {e : ParseError}
    (he : (r.step t).result = .error e) : e = refusal r.previous t := by
  cases ha : r.previous.allows t.kind with
  | false =>
    rw [ExprReader.step, ha] at he
    cases he
    refine (if_neg ?_).symm
    rintro ⟨hp, hk, -⟩
    rw [hk, ItemKind.allows_operator, hp] at ha
    cases ha
  | true =>
    cases hk : t.kind with
    | literal =>
      rw [ExprReader.step, ha, hk] at he
      cases he
    | name =>
      rw [ExprReader.step, ha, hk] at he
      cases he
    | opening =>
      rw [ExprReader.step, ha, hk] at he
      cases he
    | operator =>
      rw [hk, ItemKind.allows_operator] at ha
      cases hop : Operator.ofSymbol? t.text with
      | none =>
        rw [ExprReader.step, hk, ItemKind.allows_operator, ha, hop] at he
        cases he
        exact (if_pos ⟨ha, hk, Operator.ofSymbol?_eq_none_iff.mp hop⟩).symm
      | some op =>
        have ht : t.lexeme = .ofOperator op := by
          rw [Item.lexeme_of_ne (by simp [hk]) (by simp [hk]), hk, Operator.text_of_ofSymbol? hop]
          rfl
        obtain ⟨q, hq, -⟩ := h.operator ha ht
        rw [hq] at he
        cases he
    | closing =>
      by_cases hu : r.unmatched = 0 ∨ r.previous = .opening
      · rw [ExprReader.step, ha, hk] at he
        simp only [if_true, if_pos hu] at he
        cases he
        exact (if_neg (fun hop => by simp [hk] at hop)).symm
      · rw [not_or] at hu
        have hp : r.previous.endsOperand = true := by
          rw [hk, ItemKind.allows_closing] at ha
          simpa [hu.2] using ha
        obtain ⟨q, hq, -⟩ := h.closing hp hu.1 hk
        rw [hq] at he
        cases he

/-- At the end either an operand is missing or a parenthesis is still open. -/
theorem Reads.finish_error (h : Reads r ts) {stop : Position} {e : ParseError}
    (he : (r.finish stop).result = .error e) :
    e = .unexpectedEnd stop ∧ (ts = [] ∨ r.previous = .operator) ∨
      e = .closingExpected stop ∧ r.previous ≠ .operator ∧ r.unmatched ≠ 0 := by
  by_cases hop : r.previous = .operator
  · rw [ExprReader.finish, if_pos hop] at he
    cases he
    exact .inl ⟨rfl, .inr hop⟩
  by_cases hu : r.unmatched ≠ 0
  · rw [ExprReader.finish, if_neg hop, if_pos hu] at he
    cases he
    exact .inr ⟨rfl, hop, hu⟩
  have hn : r.operators.count .opening = 0 := by rw [← h.unmatched]; simpa using hu
  rw [ExprReader.finish, if_neg hop, if_neg hu, Logged.result_bind] at he
  cases hp : r.previous.endsOperand with
  | false =>
    have hopening : r.previous = .opening := by
      cases hk : r.previous <;> simp_all [ItemKind.endsOperand]
    have hw := h.awaiting hp
    rw [hopening] at hw
    obtain ⟨hops, hes, hts⟩ := hw.eq_start hn
    rw [hops, hes] at he
    cases he
    exact .inl ⟨rfl, .inl hts⟩
  | true =>
    obtain ⟨e', hres, -, -⟩ := (h.complete hp).reduceAll hn stop
    rw [hres] at he
    cases he

/-- The stacks of a reader that has taken the items `ts`. -/
structure Disciplined (r : ExprReader) (ts : List Item) : Prop where
  openings : r.operators.count .opening = r.unmatched
  /-- Where an operand is missing there is one for each operator. -/
  awaiting : Item.lastKind ts = .operator ∨ Item.lastKind ts = .opening →
    r.operands.length = r.operators.countP Held.isOperator
  /-- Behind an operand there is one more. -/
  complete : Item.lastKind ts = .literal ∨ Item.lastKind ts = .name ∨ Item.lastKind ts = .closing →
    r.operands.length = r.operators.countP Held.isOperator + 1
  rises : ∀ level ∈ levels r.operators, Rises level ∧ level.length ≤ 2

theorem Reads.disciplined (h : Reads r ts) (hprevious : r.previous = Item.lastKind ts) :
    Disciplined r ts := by
  have hcount := countP_isOperator r.operators
  have hends : r.previous.endsOperand = true ∨ r.previous.endsOperand = false := by
    cases r.previous.endsOperand <;> simp
  refine ⟨h.unmatched.symm, ?_, ?_, ?_⟩
  · intro hlast
    have hp : r.previous.endsOperand = false := by
      rw [hprevious]
      rcases hlast with hlast | hlast <;> rw [hlast] <;> rfl
    have hlen := (h.awaiting hp).length_operands
    omega
  · intro hlast
    have hp : r.previous.endsOperand = true := by
      rw [hprevious]
      rcases hlast with hlast | hlast | hlast <;> rw [hlast] <;> rfl
    have hlen := (h.complete hp).length_operands
    omega
  · have hrises : ∀ level ∈ levels r.operators, Rises level := by
      rcases hends with hp | hp
      · exact (h.complete hp).rises
      · exact (h.awaiting hp).rises
    exact fun level hlevel => ⟨hrises level hlevel, (hrises level hlevel).length_le⟩

/-- As long as items are taken the stacks are kept in order, and neither an item nor the end of the
items is ever met with a stack on which something is missing. -/
theorem steps_disciplined (ts : List Item) (stop : Position) :
    (∀ us, us <+: ts → ∀ r, (start.steps us).result = .ok r → Disciplined r us ∧
      ∀ t here, (r.step t).result ≠ .error (.malformed here)) ∧
    ∀ here, Expr.ofItems ts stop ≠ .error (.malformed here) := by
  have hrefusal : ∀ k t here, refusal k t ≠ .malformed here := by
    intro k t here
    unfold refusal
    split <;> nofun
  have hstep : ∀ us r, (start.steps us).result = .ok r →
      ∀ t here, (r.step t).result ≠ .error (.malformed here) := by
    intro us r hr t here he
    exact hrefusal _ _ _ ((reads_of_steps hr).step_error he).symm
  refine ⟨?_, ?_⟩
  · intro us _ r hr
    exact ⟨(reads_of_steps hr).disciplined (previous_of_steps hr), hstep us r hr⟩
  · intro here he
    rcases Logged.bind_eq_error he with he | ⟨r, hr, he⟩
    · obtain ⟨us, t, vs, q, -, hq, ht⟩ := steps_error he
      exact hstep us q hq t here ht
    · rcases (reads_of_steps hr).finish_error he with ⟨h, -⟩ | ⟨h, -⟩ <;> cases h

/-- Inside a parenthesis, behind the operator of a product that is to be added. -/
theorem steps_disciplined_levels :
    ∃ r, (start.steps [⟨.opening, "(", .origin, .origin⟩, ⟨.name, "a", .origin, .origin⟩,
        ⟨.operator, "+", .origin, .origin⟩, ⟨.literal, "2", .origin, .origin⟩,
        ⟨.operator, "*", .origin, .origin⟩]).result = .ok r ∧
      levels r.operators = [[.times, .plus], []] ∧ r.operands.length = 2 := by
  refine ⟨_, rfl, rfl, ?_⟩
  have h := (steps_disciplined [⟨.opening, "(", .origin, .origin⟩, ⟨.name, "a", .origin, .origin⟩,
    ⟨.operator, "+", .origin, .origin⟩, ⟨.literal, "2", .origin, .origin⟩,
    ⟨.operator, "*", .origin, .origin⟩] .origin).1 _ (List.prefix_refl _) _ rfl
  exact h.1.awaiting (.inl rfl)

end ExprReader

end Reckon
