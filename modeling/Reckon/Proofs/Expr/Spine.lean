import Reckon.Expr.Reader
import Reckon.Proofs.Expr.Canonical

/-! What a reader does with the lexemes of a canonical expression. It joins operands as late as it
can, so after the last lexeme the operators along the right edge of the tree are still held back,
each with its left operand. The next operator that binds no more strongly, a closing parenthesis or
the end of the items joins them from the top down, and what comes out is the expression. -/

namespace Reckon

namespace Logged

variable {σ ε α β : Type}

/-- Writes several entries. -/
def tellAll (entries : List σ) : Logged σ ε Unit := ⟨entries, .ok ()⟩

theorem tellAll_append (entries more : List σ) :
    (tellAll (entries ++ more) : Logged σ ε Unit) = tellAll entries >>= fun _ => tellAll more :=
  rfl

theorem tellAll_cons (entry : σ) (more : List σ) :
    (tellAll (entry :: more) : Logged σ ε Unit) = tell entry >>= fun _ => tellAll more := rfl

end Logged

namespace Expr

/-- The operators along the right edge of the tree, the last one first. -/
def spine : Expr → List Held
  | .binary _ op right => spine right ++ [.operator op]
  | _ => []

/-- The operands along the right edge of the tree, the last one first. -/
def limbs : Expr → List Expr
  | .binary left _ right => limbs right ++ [left]
  | e => [e]

/-- The moves that join the operands along the right edge. -/
def joins : Expr → List Move
  | .binary _ op right => joins right ++ [.reduce op]
  | _ => []

/-- The moves made over the lexemes of the expression. -/
def reading : Expr → List Move
  | .literal text => [.shift text]
  | .name text => [.shift text]
  | .binary left op right => reading left ++ joins left ++ .push op :: reading right
  | .paren inner => reading inner ++ joins inner

end Expr

namespace ExprReader

open Logged

/-- Whether an operator may be pushed without joining anything first: it binds more strongly than
the operator on top of the stack, if there is one. -/
def Admits : List Held → Operator → Prop
  | .operator top :: _, op => top.precedence < op.precedence
  | _, _ => True

theorem Admits.mono {ops : List Held} {op p : Operator} (h : Admits ops op)
    (hp : op.precedence ≤ p.precedence) : Admits ops p := by
  cases ops with
  | nil => trivial
  | cons item ops =>
    cases item with
    | operator top => exact Nat.lt_of_lt_of_le h hp
    | opening => trivial

/-- Whether an expression may become the right operand of the operator on top of the stack. -/
def Fits (ops : List Held) (e : Expr) : Prop := ∀ p ∈ e.root?, Admits ops p

theorem reduce_pair (op : Operator) (here : Position) (right left : Expr) (es : List Expr) :
    reduce op here (right :: left :: es) =
      tellAll [.reduce op] >>= fun _ => pure (.binary left op right :: es) := rfl

theorem reduceFor_of_admits {op : Operator} {ops : List Held} (h : Admits ops op) (here : Position)
    (es : List Expr) : reduceFor op here ops es = pure (es, ops) := by
  cases ops with
  | nil => rfl
  | cons item ops =>
    cases item with
    | operator top =>
      have htop : top.precedence < op.precedence := h
      rw [reduceFor, if_pos htop]
    | opening => rfl

/-- An operator that binds no more strongly than the root joins the whole right edge. -/
theorem reduceFor_spine {op : Operator} {e : Expr} (hc : e.Canonical)
    (hb : ∀ p ∈ e.root?, op.precedence ≤ p.precedence) (here : Position) (ops : List Held)
    (es : List Expr) :
    reduceFor op here (e.spine ++ ops) (e.limbs ++ es) =
      tellAll e.joins >>= fun _ => reduceFor op here ops (e :: es) := by
  induction e generalizing ops es with
  | literal text => rfl
  | name text => rfl
  | paren inner ih => rfl
  | binary left top right ihl ihr =>
    obtain ⟨-, hcr, -, hright⟩ := hc
    have htop : op.precedence ≤ top.precedence := hb top rfl
    have hr : ∀ p ∈ right.root?, op.precedence ≤ p.precedence := fun p hp =>
      Nat.le_trans htop (Nat.le_of_lt (hright p hp))
    rw [Expr.spine, Expr.limbs, Expr.joins, List.append_assoc, List.append_assoc, ihr hcr hr,
      tellAll_append, bind_assoc]
    congr 1
    funext
    rw [List.singleton_append, List.singleton_append, reduceFor, if_neg (by omega), reduce_pair,
      bind_assoc]
    rfl

/-- A closing parenthesis joins the whole right edge. -/
theorem closeParen_spine (here : Position) (e : Expr) (ops : List Held) (es : List Expr) :
    closeParen here (e.spine ++ ops) (e.limbs ++ es) =
      tellAll e.joins >>= fun _ => closeParen here ops (e :: es) := by
  induction e generalizing ops es with
  | literal text => rfl
  | name text => rfl
  | paren inner ih => rfl
  | binary left top right ihl ihr =>
    rw [Expr.spine, Expr.limbs, Expr.joins, List.append_assoc, List.append_assoc, ihr,
      tellAll_append, bind_assoc]
    congr 1

/-- The end of the items joins the whole right edge. -/
theorem reduceAll_spine (here : Position) (e : Expr) (ops : List Held) (es : List Expr) :
    reduceAll here (e.spine ++ ops) (e.limbs ++ es) =
      tellAll e.joins >>= fun _ => reduceAll here ops (e :: es) := by
  induction e generalizing ops es with
  | literal text => rfl
  | name text => rfl
  | paren inner ih => rfl
  | binary left top right ihl ihr =>
    rw [Expr.spine, Expr.limbs, Expr.joins, List.append_assoc, List.append_assoc, ihr,
      tellAll_append, bind_assoc]
    congr 1

theorem steps_append (r : ExprReader) (ts us : List Item) :
    r.steps (ts ++ us) = r.steps ts >>= fun r => r.steps us := by
  induction ts generalizing r with
  | nil => rfl
  | cons t ts ih =>
    rw [List.cons_append, steps, steps, bind_assoc]
    exact congrArg _ (funext fun r => ih r)

theorem steps_singleton (r : ExprReader) (t : Item) : r.steps [t] = r.step t := by
  rw [steps]
  exact bind_pure _

theorem step_literal {text : String} {t : Item} (ht : t.lexeme = ⟨.literal, text⟩) {r : ExprReader}
    (hr : r.previous.endsOperand = false) :
    r.step t = do
      tell (.shift text)
      return ⟨.literal text :: r.operands, r.operators, r.unmatched, .literal⟩ := by
  have hk : t.kind = .literal := by rw [← Item.kind_lexeme, ht]
  rw [Item.lexeme_of_ne (by simp [hk]) (by simp [hk]), Lexeme.mk.injEq] at ht
  rw [step, hk, ItemKind.allows_literal, hr, ht.2]
  rfl

theorem step_name {text : String} {t : Item} (ht : t.lexeme = ⟨.name, text⟩) {r : ExprReader}
    (hr : r.previous.endsOperand = false) :
    r.step t = do
      tell (.shift text)
      return ⟨.name text :: r.operands, r.operators, r.unmatched, .name⟩ := by
  have hk : t.kind = .name := by rw [← Item.kind_lexeme, ht]
  rw [Item.lexeme_of_ne (by simp [hk]) (by simp [hk]), Lexeme.mk.injEq] at ht
  rw [step, hk, ItemKind.allows_name, hr, ht.2]
  rfl

/-- An operator after an operand joins what binds at least as strongly and is pushed. -/
theorem step_operator {op : Operator} {t : Item} (ht : t.lexeme = .ofOperator op) {r : ExprReader}
    (hr : r.previous.endsOperand = true) :
    r.step t = do
      let (operands, operators) ← reduceFor op t.first r.operators r.operands
      tell (.push op)
      return ⟨operands, .operator op :: operators, r.unmatched, .operator⟩ := by
  have hk : t.kind = .operator := by rw [← Item.kind_lexeme, ht]; rfl
  rw [Item.lexeme_of_ne (by simp [hk]) (by simp [hk]), Lexeme.ofOperator, Lexeme.mk.injEq] at ht
  rw [step, hk, ItemKind.allows_operator, hr, ht.2]
  simp only [if_true, Operator.ofSymbol?_text]

theorem step_opening {t : Item} (ht : t.kind = .opening) {r : ExprReader}
    (hr : r.previous.endsOperand = false) :
    r.step t = pure ⟨r.operands, .opening :: r.operators, r.unmatched + 1, .opening⟩ := by
  rw [step, ht, ItemKind.allows_opening, hr]
  rfl

/-- A closing parenthesis after an operand joins down to its partner. -/
theorem step_closing {t : Item} (ht : t.kind = .closing) {r : ExprReader}
    (hr : r.previous.endsOperand = true) (hu : r.unmatched ≠ 0) :
    r.step t = do
      let (operands, operators) ← closeParen t.first r.operators r.operands
      return ⟨operands, operators, r.unmatched - 1, .closing⟩ := by
  have hp : r.previous ≠ .opening := by
    intro h
    rw [h] at hr
    cases hr
  rw [step, ht, ItemKind.allows_closing, hr, Bool.true_or, if_pos rfl]
  exact if_neg (by simp [hu, hp])

/-- Over the lexemes of a canonical expression a reader makes the moves of the expression and holds
back its right edge. -/
theorem steps_of_lexemes {e : Expr} (hc : e.Canonical) {ts : List Item}
    (hts : ts.map Item.lexeme = e.lexemes) {r : ExprReader} (hr : r.previous.endsOperand = false)
    (hf : Fits r.operators e) :
    r.steps ts = tellAll e.reading >>= fun _ =>
      pure ⟨e.limbs ++ r.operands, e.spine ++ r.operators, r.unmatched, e.lastKind⟩ := by
  induction e generalizing ts r with
  | literal text =>
    obtain ⟨t, rfl, ht⟩ := List.map_eq_singleton_iff.mp hts
    rw [steps_singleton, step_literal ht hr]
    rfl
  | name text =>
    obtain ⟨t, rfl, ht⟩ := List.map_eq_singleton_iff.mp hts
    rw [steps_singleton, step_name ht hr]
    rfl
  | binary left op right ihl ihr =>
    obtain ⟨hcl, hcr, hleft, hright⟩ := hc
    obtain ⟨ls, rest, rfl, hls, hrest⟩ := List.map_eq_append_iff.mp hts
    obtain ⟨t, rs, rfl, ht, hrs⟩ := List.map_eq_cons_iff.mp hrest
    have hop : Admits r.operators op := hf op rfl
    have hfl : Fits r.operators left := fun p hp => hop.mono (hleft p hp)
    rw [steps_append, ihl hcl hls hr hfl, bind_assoc, pure_bind, steps,
      step_operator ht left.endsOperand_lastKind, reduceFor_spine hcl hleft,
      reduceFor_of_admits hop]
    simp only [bind_assoc, pure_bind]
    have hread := ihr hcr hrs (r := ⟨left :: r.operands, .operator op :: r.operators, r.unmatched,
      .operator⟩) rfl hright
    rw [hread, Expr.reading, Expr.limbs, Expr.spine, tellAll_append, tellAll_append, tellAll_cons,
      List.append_assoc, List.append_assoc]
    simp only [bind_assoc]
    rfl
  | paren inner ih =>
    obtain ⟨t, rest, rfl, ht, hrest⟩ := List.map_eq_cons_iff.mp hts
    obtain ⟨ms, us, rfl, hms, hus⟩ := List.map_eq_append_iff.mp hrest
    obtain ⟨u, rfl, hu⟩ := List.map_eq_singleton_iff.mp hus
    have hkt : t.kind = .opening := by rw [← Item.kind_lexeme, ht]; rfl
    have hku : u.kind = .closing := by rw [← Item.kind_lexeme, hu]; rfl
    have hread := ih hc hms (r := ⟨r.operands, .opening :: r.operators, r.unmatched + 1, .opening⟩)
      rfl (fun _ _ => trivial)
    rw [steps, step_opening hkt hr, pure_bind, steps_append, hread, bind_assoc, pure_bind,
      steps_singleton, step_closing hku inner.endsOperand_lastKind (Nat.succ_ne_zero _),
      closeParen_spine, Expr.reading, tellAll_append]
    simp only [bind_assoc]
    rfl

/-- A reader that is given the lexemes of a canonical expression finds the expression. -/
theorem read_of_lexemes {e : Expr} (hc : e.Canonical) {ts : List Item}
    (hts : ts.map Item.lexeme = e.lexemes) (stop : Position) :
    read ts stop = tellAll (e.reading ++ e.joins ++ [.accept]) >>= fun _ => pure e := by
  have hread := steps_of_lexemes hc hts (r := start) rfl (fun _ _ => trivial)
  have hlast : e.lastKind ≠ .operator := by
    intro h
    have := e.endsOperand_lastKind
    rw [h] at this
    cases this
  rw [read, hread, bind_assoc, pure_bind, finish, if_neg hlast, if_neg (by simp [start])]
  rw [reduceAll_spine, tellAll_append, tellAll_append]
  simp only [bind_assoc]
  rfl

end ExprReader

end Reckon
