import Reckon.Proofs.Calc.Literal
import Reckon.Proofs.Numeral.Signed

/-! Evaluation is exact or stops at the first fault. The value of an expression is told over all
whole numbers, with no bound on what is computed on the way. A node of the tree is at fault by
itself: a name that is not bound, a literal that writes no number of 64 bits, a division by zero, or
an operation whose exact result does not have 64 bits. An expression none of whose nodes is at fault
evaluates to its exact value, and any other to the fault that comes first when operands are looked
at before the operators that join them. -/

namespace Reckon

/-- The number that the characters of a literal write: in the base of the marker they begin with, or
as decimal digits if they begin with none. -/
inductive WritesLiteral : List Char → Int → Prop
  | marked {r : Radix} {c : Char} {cs : List Char} {n : Int} : r.marker? = some c →
    r.Writes cs n → WritesLiteral (c :: cs) n
  | decimal {cs : List Char} {n : Int} : Radix.decimal.Writes cs n → WritesLiteral cs n

/-- Why the characters of a literal write no number of 64 bits. -/
inductive RefusesLiteral : List Char → WholeError → Prop
  | marked {r : Radix} {c : Char} {cs : List Char} {cause : WholeError} : r.marker? = some c →
    r.Refuses cs cause → RefusesLiteral (c :: cs) cause
  | decimal {cs : List Char} {cause : WholeError} :
    (∀ c ∈ cs.head?, ∀ r : Radix, r.marker? ≠ some c) → Radix.decimal.Refuses cs cause →
    RefusesLiteral cs cause

section Literal

variable {c : Char} {cs : List Char} {r : Radix} {n : Int} {cause : WholeError} {text : String}

/-- Decimal digits and their sign are no markers. -/
theorem Radix.Writes.ofMarker?_eq_none (h : Radix.decimal.Writes (c :: cs) n) :
    Radix.ofMarker? c = none := by
  obtain ⟨d, rest, heq, hd⟩ := h.exists_cons
  obtain ⟨rfl, rfl⟩ := List.cons.inj heq
  rcases hd with hd | rfl | rfl
  · exact Reckon.ofMarker?_eq_none (ne_marker_of_isDecimalDigit hd)
  · rfl
  · rfl

/-- Behind a marker only its base counts. -/
theorem writesLiteral_of_marker (hr : r.marker? = some c) :
    WritesLiteral (c :: cs) n ↔ r.Writes cs n := by
  refine ⟨fun h => ?_, .marked hr⟩
  rw [← Radix.ofMarker?_eq_some_iff] at hr
  cases h with
  | marked hr' hwrites =>
    rw [Radix.ofMarker?_eq_some_iff.mpr hr'] at hr
    obtain rfl := Option.some.inj hr
    exact hwrites
  | decimal hwrites =>
    rw [hwrites.ofMarker?_eq_none] at hr
    cases hr

theorem refusesLiteral_of_marker (hr : r.marker? = some c) :
    RefusesLiteral (c :: cs) cause ↔ r.Refuses cs cause := by
  refine ⟨fun h => ?_, .marked hr⟩
  cases h with
  | marked hr' hrefuses =>
    have hsame := Radix.ofMarker?_eq_some_iff.mpr hr
    rw [Radix.ofMarker?_eq_some_iff.mpr hr'] at hsame
    obtain rfl := Option.some.inj hsame
    exact hrefuses
  | decimal hno _ => exact absurd hr (hno c rfl r)

/-- Without a marker the digits are decimal. -/
theorem writesLiteral_of_no_marker (hno : ∀ c ∈ cs.head?, ∀ r : Radix, r.marker? ≠ some c) :
    WritesLiteral cs n ↔ Radix.decimal.Writes cs n := by
  refine ⟨fun h => ?_, .decimal⟩
  cases h with
  | @marked r c cs _ hr _ => exact absurd hr (hno c rfl r)
  | decimal hwrites => exact hwrites

theorem refusesLiteral_of_no_marker (hno : ∀ c ∈ cs.head?, ∀ r : Radix, r.marker? ≠ some c) :
    RefusesLiteral cs cause ↔ Radix.decimal.Refuses cs cause := by
  refine ⟨fun h => ?_, .decimal hno⟩
  cases h with
  | @marked r c cs _ hr _ => exact absurd hr (hno c rfl r)
  | decimal _ hrefuses => exact hrefuses

/-- Every literal is read in one of the bases, with its marker taken off if it has one. -/
theorem exists_literalValue_eq (text : String) :
    ∃ r ds, literalValue text = (readInt64 r ds).mapError (.invalidLiteral text) ∧
      (∀ n, WritesLiteral text.toList n ↔ r.Writes ds n) ∧
      ∀ cause, RefusesLiteral text.toList cause ↔ r.Refuses ds cause := by
  obtain ⟨cs, rfl⟩ : ∃ cs, text = String.ofList cs := ⟨text.toList, String.ofList_toList.symm⟩
  rw [String.toList_ofList]
  by_cases hmarker : ∃ c ds r, cs = c :: ds ∧ Radix.marker? r = some c
  · obtain ⟨c, ds, r, rfl, hr⟩ := hmarker
    exact ⟨r, ds, literalValue_of_marker hr ds, fun _ => writesLiteral_of_marker hr,
      fun _ => refusesLiteral_of_marker hr⟩
  · have hno : ∀ c ∈ cs.head?, ∀ r : Radix, r.marker? ≠ some c := by
      intro c hc r hr
      obtain ⟨ds, rfl⟩ := List.head?_eq_some_iff.mp hc
      exact hmarker ⟨c, ds, r, rfl, hr⟩
    refine ⟨.decimal, cs, ?_, fun _ => writesLiteral_of_no_marker hno,
      fun _ => refusesLiteral_of_no_marker hno⟩
    cases cs with
    | nil => rfl
    | cons c ds =>
      refine literalValue_of_decimal ⟨?_, ?_, ?_⟩ ds <;> rintro rfl
      · exact hno '%' rfl .binary rfl
      · exact hno '&' rfl .octal rfl
      · exact hno '$' rfl .hexadecimal rfl

@[simp] theorem mapError_eq_ok {α ε ε' : Type} {x : Except ε α} {f : ε → ε'} {a : α} :
    x.mapError f = .ok a ↔ x = .ok a := by
  cases x <;> simp [Except.mapError]

@[simp] theorem mapError_eq_error {α ε ε' : Type} {x : Except ε α} {f : ε → ε'} {e : ε'} :
    x.mapError f = .error e ↔ ∃ cause, x = .error cause ∧ f cause = e := by
  cases x <;> simp [Except.mapError]

/-- A literal evaluates to the number that it writes, if this has 64 bits. -/
theorem literalValue_eq_ok_iff {v : Int64} :
    literalValue text = .ok v ↔ WritesLiteral text.toList v.toInt := by
  obtain ⟨r, ds, hvalue, hwrites, -⟩ := exists_literalValue_eq text
  rw [hvalue, mapError_eq_ok, readInt64_eq_ok_iff, hwrites]

/-- It fails for the reason for which it writes none, and is told with its text. -/
theorem literalValue_eq_error_iff {e : EvalError} :
    literalValue text = .error e ↔
      ∃ cause, RefusesLiteral text.toList cause ∧ EvalError.invalidLiteral text cause = e := by
  obtain ⟨r, ds, hvalue, -, hrefuses⟩ := exists_literalValue_eq text
  rw [hvalue, mapError_eq_error]
  simp only [readInt64_eq_error_iff, hrefuses]

theorem WritesLiteral.unique {m : Int} (hm : WritesLiteral cs m) (hn : WritesLiteral cs n) :
    m = n := by
  obtain ⟨r, ds, -, hwrites, -⟩ := exists_literalValue_eq (String.ofList cs)
  rw [String.toList_ofList] at hwrites
  exact ((hwrites m).mp hm).unique ((hwrites n).mp hn)

/-- A literal that is refused writes no number of 64 bits. -/
theorem RefusesLiteral.not_writesLiteral (h : RefusesLiteral text.toList cause)
    (hfits : FitsInt64 n) : ¬WritesLiteral text.toList n := by
  intro hwrites
  rw [← hfits.toInt_ofInt, ← literalValue_eq_ok_iff,
    literalValue_eq_error_iff.mpr ⟨cause, h, rfl⟩] at hwrites
  cases hwrites

/-- A literal is refused for one reason only. -/
theorem RefusesLiteral.unique {cause' : WholeError} (h : RefusesLiteral text.toList cause)
    (h' : RefusesLiteral text.toList cause') : cause = cause' := by
  have hsame := (literalValue_eq_error_iff.mpr ⟨cause, h, rfl⟩).symm.trans
    (literalValue_eq_error_iff.mpr ⟨cause', h', rfl⟩)
  exact (EvalError.invalidLiteral.inj (Except.error.inj hsame)).2

end Literal

theorem fitInt64_eq_ite (n : Int) :
    fitInt64 n = if -2 ^ 63 ≤ n ∧ n ≤ 2 ^ 63 - 1 then some (Int64.ofInt n) else none := by
  rw [fitInt64, Int64.toInt_minValue, Int64.toInt_maxValue]

/-- An operation is refused for a divisor that is zero, and otherwise it is exact or has no result.
-/
theorem Operator.apply_cases (op : Operator) (a b : Int64) :
    (op = .divide ∧ b.toInt = 0) ∧ op.apply a b = .error .divisionByZero ∨
    ¬(op = .divide ∧ b.toInt = 0) ∧
      ((∃ c, op.apply a b = .ok c ∧ c.toInt = op.onInt a.toInt b.toInt) ∨
        op.apply a b = .error (.overflow op) ∧ ¬FitsInt64 (op.onInt a.toInt b.toInt)) := by
  have hzero : b = 0 ↔ b.toInt = 0 := by rw [← Int64.toInt_inj, Int64.toInt_zero]
  unfold apply
  simp only [hzero]
  by_cases hdivisor : op = .divide ∧ b.toInt = 0
  · left
    rw [if_pos hdivisor]
    exact ⟨hdivisor, rfl⟩
  · right
    rw [if_neg hdivisor, fitInt64_eq_ite]
    refine ⟨hdivisor, ?_⟩
    by_cases hfits : FitsInt64 (op.onInt a.toInt b.toInt)
    · left
      rw [if_pos ⟨hfits.1, by have := hfits.2; omega⟩]
      exact ⟨_, rfl, hfits.toInt_ofInt⟩
    · right
      rw [if_neg fun h => hfits ⟨h.1, by omega⟩]
      exact ⟨rfl, hfits⟩

namespace Expr

/-- The exact value of an expression, computed over all whole numbers. Division rounds toward zero
and has no value if the divisor is zero. -/
inductive Denotes (env : Environment) : Expr → Int → Prop
  | literal {text : String} {n : Int} : WritesLiteral text.toList n → Denotes env (.literal text) n
  | name {text : String} {v : Int64} : env.get? text = some v → Denotes env (.name text) v.toInt
  | sum {left right : Expr} {a b : Int} : Denotes env left a → Denotes env right b →
    Denotes env (.binary left .plus right) (a + b)
  | difference {left right : Expr} {a b : Int} : Denotes env left a → Denotes env right b →
    Denotes env (.binary left .minus right) (a - b)
  | product {left right : Expr} {a b : Int} : Denotes env left a → Denotes env right b →
    Denotes env (.binary left .times right) (a * b)
  | quotient {left right : Expr} {a b : Int} : Denotes env left a → Denotes env right b → b ≠ 0 →
    Denotes env (.binary left .divide right) (a.tdiv b)
  | paren {inner : Expr} {n : Int} : Denotes env inner n → Denotes env (.paren inner) n

/-- The nodes of the tree, operands before the operator that joins them and the left one first. -/
def nodes : Expr → List Expr
  | .literal text => [.literal text]
  | .name text => [.name text]
  | .binary left op right => nodes left ++ (nodes right ++ [.binary left op right])
  | .paren inner => nodes inner ++ [.paren inner]

/-- The node has an exact value, and this has 64 bits. -/
def HasValue (env : Environment) (node : Expr) : Prop := ∃ n, node.Denotes env n ∧ FitsInt64 n

/-- Every variable is bound, every literal writes a number of 64 bits, no divisor is zero, and no
exact value of a node leaves the range of 64 bits. -/
structure Faultless (env : Environment) (e : Expr) : Prop where
  bound : ∀ text, .name text ∈ e.nodes → env.contains text = true
  literals : ∀ text, .literal text ∈ e.nodes → ∃ n, WritesLiteral text.toList n ∧ FitsInt64 n
  divisors : ∀ left right, .binary left .divide right ∈ e.nodes → ¬right.Denotes env 0
  fits : ∀ node ∈ e.nodes, ∀ n, node.Denotes env n → FitsInt64 n

/-- The node itself is at fault, whatever its operands are like. -/
inductive Faults (env : Environment) : Expr → EvalError → Prop
  | unbound {text : String} : env.get? text = none → Faults env (.name text) (.unbound text)
  | invalidLiteral {text : String} {cause : WholeError} : RefusesLiteral text.toList cause →
    Faults env (.literal text) (.invalidLiteral text cause)
  | divisionByZero {left right : Expr} : right.Denotes env 0 →
    Faults env (.binary left .divide right) .divisionByZero
  | overflow {left right : Expr} {op : Operator} {n : Int} :
    Denotes env (.binary left op right) n → ¬FitsInt64 n →
    Faults env (.binary left op right) (.overflow op)

/-- The first node of the list that is at fault, and its fault. -/
inductive FirstFault (env : Environment) : List Expr → EvalError → Prop
  | here {node : Expr} {nodes : List Expr} {err : EvalError} : node.Faults env err →
    FirstFault env (node :: nodes) err
  | later {node : Expr} {nodes : List Expr} {err : EvalError} :
    (∀ err', ¬node.Faults env err') → FirstFault env nodes err → FirstFault env (node :: nodes) err

section Values

variable {env : Environment} {e left right node : Expr} {op : Operator} {a b m n : Int}
  {err err' : EvalError} {xs ys : List Expr}

theorem Denotes.binary (hleft : left.Denotes env a) (hright : right.Denotes env b)
    (h : ¬(op = .divide ∧ b = 0)) : Denotes env (.binary left op right) (op.onInt a b) := by
  cases op with
  | plus => exact .sum hleft hright
  | minus => exact .difference hleft hright
  | times => exact .product hleft hright
  | divide => exact .quotient hleft hright fun hb => h ⟨rfl, hb⟩

theorem Denotes.exists_of_binary (h : Denotes env (.binary left op right) n) :
    ∃ a b, left.Denotes env a ∧ right.Denotes env b ∧ ¬(op = .divide ∧ b = 0) ∧
      n = op.onInt a b := by
  cases h with
  | sum ha hb => exact ⟨_, _, ha, hb, by simp, rfl⟩
  | difference ha hb => exact ⟨_, _, ha, hb, by simp, rfl⟩
  | product ha hb => exact ⟨_, _, ha, hb, by simp, rfl⟩
  | quotient ha hb hne => exact ⟨_, _, ha, hb, fun h => hne h.2, rfl⟩

/-- An expression has one exact value at most. -/
theorem Denotes.unique (hm : e.Denotes env m) (hn : e.Denotes env n) : m = n := by
  induction e generalizing m n with
  | literal text =>
    cases hm with
    | literal hm =>
      cases hn with
      | literal hn => exact hm.unique hn
  | name text =>
    cases hm with
    | name hm =>
      cases hn with
      | name hn => rw [Option.some.inj (hm.symm.trans hn)]
  | binary left op right ihl ihr =>
    obtain ⟨a, b, ha, hb, -, rfl⟩ := hm.exists_of_binary
    obtain ⟨a', b', ha', hb', -, rfl⟩ := hn.exists_of_binary
    rw [ihl ha ha', ihr hb hb']
  | paren inner ih =>
    cases hm with
    | paren hm =>
      cases hn with
      | paren hn => exact ih hm hn

/-- A node with a value is not at fault. -/
theorem HasValue.not_faults (h : node.HasValue env) : ¬node.Faults env err := by
  obtain ⟨n, hn, hfits⟩ := h
  intro hfault
  cases hfault with
  | unbound hnone =>
    cases hn with
    | name hsome =>
      rw [hnone] at hsome
      cases hsome
  | invalidLiteral hrefuses =>
    cases hn with
    | literal hwrites => exact hrefuses.not_writesLiteral hfits hwrites
  | divisionByZero hzero =>
    obtain ⟨a, b, -, hb, hne, -⟩ := hn.exists_of_binary
    exact hne ⟨rfl, hb.unique hzero⟩
  | overflow hn' hno =>
    rw [hn.unique hn'] at hfits
    exact hno hfits

/-- A node is at fault for one reason only. -/
theorem Faults.unique (h : node.Faults env err) (h' : node.Faults env err') : err = err' := by
  cases h with
  | unbound _ =>
    cases h' with
    | unbound _ => rfl
  | invalidLiteral hrefuses =>
    cases h' with
    | invalidLiteral hrefuses' => rw [hrefuses.unique hrefuses']
  | divisionByZero hzero =>
    cases h' with
    | divisionByZero _ => rfl
    | overflow hn _ =>
      obtain ⟨a, b, -, hb, hne, -⟩ := hn.exists_of_binary
      exact absurd ⟨rfl, hb.unique hzero⟩ hne
  | overflow hn _ =>
    cases h' with
    | divisionByZero hzero =>
      obtain ⟨a, b, -, hb, hne, -⟩ := hn.exists_of_binary
      exact absurd ⟨rfl, hb.unique hzero⟩ hne
    | overflow _ _ => rfl

theorem FirstFault.unique (h : FirstFault env xs err) (h' : FirstFault env xs err') :
    err = err' := by
  induction h with
  | here hfault =>
    cases h' with
    | here hfault' => exact hfault.unique hfault'
    | later hno _ => exact absurd hfault (hno _)
  | later hno _ ih =>
    cases h' with
    | here hfault => exact absurd hfault (hno _)
    | later _ hrest => exact ih hrest

theorem FirstFault.exists_mem (h : FirstFault env xs err) : ∃ node ∈ xs, node.Faults env err := by
  induction h with
  | here hfault => exact ⟨_, List.mem_cons_self, hfault⟩
  | later _ _ ih =>
    obtain ⟨node, hmem, hfault⟩ := ih
    exact ⟨node, List.mem_cons_of_mem _ hmem, hfault⟩

/-- The first fault stays the first whatever comes behind it. -/
theorem FirstFault.append (h : FirstFault env xs err) (ys : List Expr) :
    FirstFault env (xs ++ ys) err := by
  induction h with
  | here hfault => exact .here hfault
  | later hno _ ih => exact .later hno ih

/-- It stays the first behind nodes with values. -/
theorem FirstFault.behind (h : FirstFault env ys err) (hxs : ∀ node ∈ xs, node.HasValue env) :
    FirstFault env (xs ++ ys) err := by
  induction xs with
  | nil => exact h
  | cons node xs ih =>
    obtain ⟨hnode, hxs⟩ := List.forall_mem_cons.mp hxs
    exact .later (fun _ => hnode.not_faults) (ih hxs)

/-- Where no node is at fault in the sense of the whole tree, none is by itself. -/
theorem Faultless.not_faults (h : e.Faultless env) (hmem : node ∈ e.nodes) :
    ¬node.Faults env err := by
  intro hfault
  cases hfault with
  | unbound hnone =>
    have hbound := h.bound _ hmem
    rw [Environment.contains, hnone] at hbound
    cases hbound
  | invalidLiteral hrefuses =>
    obtain ⟨n, hwrites, hfits⟩ := h.literals _ hmem
    exact hrefuses.not_writesLiteral hfits hwrites
  | divisionByZero hzero => exact h.divisors _ _ hmem hzero
  | overflow hn hno => exact hno (h.fits _ hmem _ hn)

/-- If every node has a value, nothing is at fault. -/
theorem faultless_of_hasValue (h : ∀ node ∈ e.nodes, node.HasValue env) : e.Faultless env where
  bound := by
    intro text hmem
    obtain ⟨n, hn, -⟩ := h _ hmem
    cases hn with
    | name hsome => rw [Environment.contains, hsome, Option.isSome_some]
  literals := by
    intro text hmem
    obtain ⟨n, hn, hfits⟩ := h _ hmem
    cases hn with
    | literal hwrites => exact ⟨n, hwrites, hfits⟩
  divisors := by
    intro left right hmem hzero
    obtain ⟨n, hn, -⟩ := h _ hmem
    obtain ⟨a, b, -, hb, hne, -⟩ := hn.exists_of_binary
    exact hne ⟨rfl, hb.unique hzero⟩
  fits := by
    intro node hmem n hn
    obtain ⟨m, hm, hfits⟩ := h node hmem
    rwa [hn.unique hm]

theorem Denotes.hasValue {v : Int64} (h : node.Denotes env v.toInt) : node.HasValue env :=
  ⟨_, h, fitsInt64_toInt v⟩

theorem literalValue_outcome (text : String) (env : Environment) :
    (∃ v, literalValue text = .ok v ∧ Denotes env (.literal text) v.toInt) ∨
      ∃ err, literalValue text = .error err ∧ Faults env (.literal text) err := by
  cases hvalue : literalValue text with
  | ok v => exact .inl ⟨v, rfl, .literal (literalValue_eq_ok_iff.mp hvalue)⟩
  | error err =>
    obtain ⟨cause, hrefuses, rfl⟩ := literalValue_eq_error_iff.mp hvalue
    exact .inr ⟨_, rfl, .invalidLiteral hrefuses⟩

theorem nameValue_outcome (text : String) (env : Environment) :
    (∃ v, nameValue env text = .ok v ∧ Denotes env (.name text) v.toInt) ∨
      ∃ err, nameValue env text = .error err ∧ Faults env (.name text) err := by
  unfold nameValue
  cases hvalue : env.get? text with
  | some v => exact .inl ⟨v, rfl, .name hvalue⟩
  | none => exact .inr ⟨_, rfl, .unbound hvalue⟩

/-- Operands with values leave the operator with one, or put it at fault. -/
theorem apply_outcome {a b : Int64} (op : Operator) (ha : left.Denotes env a.toInt)
    (hb : right.Denotes env b.toInt) :
    (∃ c, op.apply a b = .ok c ∧ Denotes env (.binary left op right) c.toInt) ∨
      ∃ err, op.apply a b = .error err ∧ Faults env (.binary left op right) err := by
  rcases op.apply_cases a b with ⟨⟨rfl, hzero⟩, happly⟩ | ⟨hne, hexact⟩
  · rw [hzero] at hb
    exact .inr ⟨_, happly, .divisionByZero hb⟩
  · have hdenotes := Denotes.binary ha hb hne
    rcases hexact with ⟨c, happly, hc⟩ | ⟨happly, hno⟩
    · rw [← hc] at hdenotes
      exact .inl ⟨c, happly, hdenotes⟩
    · exact .inr ⟨_, happly, .overflow hdenotes hno⟩

/-- Evaluation succeeds if every node has a value, and fails at the first fault otherwise. One case
for each kind of node; the operands are settled before their operator. -/
theorem eval_outcome (e : Expr) (env : Environment) :
    (∃ v, e.eval env = .ok v ∧ e.Denotes env v.toInt ∧ ∀ node ∈ e.nodes, node.HasValue env) ∨
      ∃ err, e.eval env = .error err ∧ FirstFault env e.nodes err := by
  induction e with
  | literal text =>
    rcases literalValue_outcome text env with ⟨v, hv, hdenotes⟩ | ⟨err, herr, hfault⟩
    · exact .inl ⟨v, hv, hdenotes, List.forall_mem_singleton.mpr hdenotes.hasValue⟩
    · exact .inr ⟨err, herr, .here hfault⟩
  | name text =>
    rcases nameValue_outcome text env with ⟨v, hv, hdenotes⟩ | ⟨err, herr, hfault⟩
    · exact .inl ⟨v, hv, hdenotes, List.forall_mem_singleton.mpr hdenotes.hasValue⟩
    · exact .inr ⟨err, herr, .here hfault⟩
  | binary left op right ihl ihr =>
    rw [eval, nodes]
    rcases ihl with ⟨a, hl, ha, hlefts⟩ | ⟨err, hl, hfault⟩
    · rcases ihr with ⟨b, hr, hb, hrights⟩ | ⟨err, hr, hfault⟩
      · simp only [hl, hr]
        rcases apply_outcome op ha hb with ⟨c, hc, hdenotes⟩ | ⟨err, herr, hfault⟩
        · refine .inl ⟨c, hc, hdenotes, ?_⟩
          simp only [List.forall_mem_append, List.forall_mem_singleton]
          exact ⟨hlefts, hrights, hdenotes.hasValue⟩
        · exact .inr ⟨err, herr, .behind (.behind (.here hfault) hrights) hlefts⟩
      · simp only [hl, hr]
        exact .inr ⟨err, rfl, .behind (hfault.append _) hlefts⟩
    · simp only [hl]
      exact .inr ⟨err, rfl, hfault.append _⟩
  | paren inner ih =>
    rw [eval, nodes]
    rcases ih with ⟨v, hv, hdenotes, hnodes⟩ | ⟨err, herr, hfault⟩
    · refine .inl ⟨v, hv, .paren hdenotes, ?_⟩
      simp only [List.forall_mem_append, List.forall_mem_singleton]
      exact ⟨hnodes, (Denotes.paren hdenotes).hasValue⟩
    · exact .inr ⟨err, herr, hfault.append _⟩

/-- Looking at both operands before the operator makes no difference: the operator itself passes the
first failure on. -/
theorem fold_combine (e : Expr) (env : Environment) :
    e.fold literalValue (nameValue env) Operator.combine id = e.eval env := by
  induction e with
  | literal text => rfl
  | name text => rfl
  | binary left op right ihl ihr =>
    rw [fold, eval, ihl, ihr]
    rfl
  | paren inner ih => exact ih

end Values

/-- An expression evaluates to a value exactly if nothing in it is at fault and the value is its
exact one; otherwise the first fault is reported. It comes to the same if both operands are always
evaluated before they are combined. -/
theorem eval_exact (e : Expr) (env : Environment) :
    (∀ v, e.eval env = .ok v ↔ e.Faultless env ∧ e.Denotes env v.toInt) ∧
    (∀ err, e.eval env = .error err ↔ FirstFault env e.nodes err) ∧
    e.fold literalValue (nameValue env) Operator.combine id = e.eval env := by
  refine ⟨fun v => ?_, fun err => ?_, e.fold_combine env⟩
  · rcases e.eval_outcome env with ⟨w, hw, hdenotes, hnodes⟩ | ⟨err, herr, hfault⟩
    · rw [hw, Except.ok.injEq]
      constructor
      · rintro rfl
        exact ⟨faultless_of_hasValue hnodes, hdenotes⟩
      · rintro ⟨-, hv⟩
        exact Int64.toInt_inj.mp (hdenotes.unique hv)
    · obtain ⟨node, hmem, hnode⟩ := hfault.exists_mem
      refine iff_of_false ?_ fun h => h.1.not_faults hmem hnode
      rw [herr]
      simp
  · rcases e.eval_outcome env with ⟨w, hw, -, hnodes⟩ | ⟨err', herr', hfault⟩
    · refine iff_of_false ?_ fun h => ?_
      · rw [hw]
        simp
      · obtain ⟨node, hmem, hnode⟩ := h.exists_mem
        exact (hnodes node hmem).not_faults hnode
    · rw [herr', Except.error.injEq]
      constructor
      · rintro rfl
        exact hfault
      · exact fun h => hfault.unique h

/-- The least number divided by minus one is one too large. -/
example : eval (Environment.empty.set "x" Int64.minValue)
    (.binary (.name "x") .divide (.literal "-1")) = .error (.overflow .divide) := by
  decide

end Expr

end Reckon
