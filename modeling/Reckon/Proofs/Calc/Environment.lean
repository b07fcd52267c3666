import Reckon.Proofs.Calc.Exact

/-! What the value of an expression depends on. An environment is made of bindings one after
another, and of several bindings of one name the last one counts. Evaluation looks up the names that
occur in the expression and no others. So two lists of bindings give an expression the same value,
or the same error, if they agree in what they last say of its names. -/

namespace Reckon

namespace Environment

/-- The list binds the name to the value, and does not bind it again behind that. -/
def BindsLast (pairs : List (String × Int64)) (name : String) (value : Int64) : Prop :=
  ∃ before after, pairs = before ++ (name, value) :: after ∧ name ∉ after.map Prod.fst

variable {pairs : List (String × Int64)} {name : String} {value : Int64}

theorem get?_extend_of_not_mem (env : Environment) (h : name ∉ pairs.map Prod.fst) :
    (env.extend pairs).get? name = env.get? name := by
  induction pairs generalizing env with
  | nil => rfl
  | cons p pairs ih =>
    rw [List.map_cons, List.mem_cons, not_or] at h
    calc (env.extend (p :: pairs)).get? name
        = (env.set p.1 p.2).get? name := ih (env.set p.1 p.2) h.2
      _ = env.get? name := env.get?_set_of_ne p.2 h.1

theorem get?_extend_of_bindsLast (env : Environment) (h : BindsLast pairs name value) :
    (env.extend pairs).get? name = some value := by
  obtain ⟨before, after, rfl, hafter⟩ := h
  have hextend : env.extend (before ++ (name, value) :: after) =
      ((env.extend before).set name value).extend after := List.foldl_append
  rw [hextend, get?_extend_of_not_mem _ hafter, get?_set_self]

end Environment

namespace Expr

open Environment (BindsLast)

variable {e : Expr} {env env' : Environment} {text : String} {v : Int64}

theorem mem_names_iff : text ∈ e.names ↔ .name text ∈ e.nodes := by
  induction e with
  | literal _ => simp [names, nodes]
  | name _ => simp [names, nodes]
  | binary left op right ihl ihr => simp [names, nodes, ihl, ihr]
  | paren inner ih => simp [names, nodes, ih]

theorem mem_freeNames_iff : text ∈ e.freeNames ↔ .name text ∈ e.nodes := by
  rw [freeNames, List.mem_eraseDups, mem_names_iff]

/-- Only the names of the expression are looked up. -/
theorem eval_congr (h : ∀ text ∈ e.names, env.get? text = env'.get? text) :
    e.eval env = e.eval env' := by
  induction e with
  | literal text => rfl
  | name text => rw [eval, eval, nameValue, nameValue, h text List.mem_cons_self]
  | binary left op right ihl ihr =>
    have hleft := ihl fun text hmem => h text (List.mem_append_left _ hmem)
    have hright := ihr fun text hmem => h text (List.mem_append_right _ hmem)
    rw [eval, eval, hleft, hright]
  | paren inner ih => exact ih h

/-- What has a value has all its names bound. -/
theorem contains_of_eval (h : e.eval env = .ok v) (hmem : text ∈ e.freeNames) :
    env.contains text = true := by
  rcases e.eval_outcome env with ⟨-, -, -, hnodes⟩ | ⟨err, herr, -⟩
  · exact (faultless_of_hasValue hnodes).bound text (mem_freeNames_iff.mp hmem)
  · rw [herr] at h
    cases h

/-- A name that is reported as not bound occurs in the expression and is not. -/
theorem unbound_of_eval (h : e.eval env = .error (.unbound text)) :
    text ∈ e.freeNames ∧ env.contains text = false := by
  rcases e.eval_outcome env with ⟨v, hv, -⟩ | ⟨err, herr, hfault⟩
  · rw [hv] at h
    cases h
  · rw [herr] at h
    obtain rfl := Except.error.inj h
    obtain ⟨node, hmem, hnode⟩ := hfault.exists_mem
    cases hnode with
    | unbound hnone =>
      refine ⟨mem_freeNames_iff.mpr hmem, ?_⟩
      rw [Environment.contains, hnone, Option.isSome_none]

/-- Two lists of bindings give an expression the same value or the same error if each of its names
is bound by neither or has the same last value in both. All names of an expression with a value are
bound, and a name that is reported as not bound is one of them and is not. -/
theorem eval_ofList (e : Expr) :
    (∀ xs ys, (∀ text ∈ e.freeNames,
        (text ∉ xs.map Prod.fst ∧ text ∉ ys.map Prod.fst) ∨
          ∃ v, BindsLast xs text v ∧ BindsLast ys text v) →
      e.eval (.ofList xs) = e.eval (.ofList ys)) ∧
    (∀ env v, e.eval env = .ok v → ∀ text ∈ e.freeNames, env.contains text = true) ∧
    ∀ env text, e.eval env = .error (.unbound text) →
      text ∈ e.freeNames ∧ env.contains text = false := by
  refine ⟨fun xs ys h => ?_, fun _ _ hv _ hmem => contains_of_eval hv hmem,
    fun _ _ => unbound_of_eval⟩
  apply eval_congr
  intro text hmem
  unfold Environment.ofList
  rcases h text (List.mem_eraseDups.mpr hmem) with ⟨hxs, hys⟩ | ⟨v, hxs, hys⟩
  · rw [Environment.get?_extend_of_not_mem _ hxs, Environment.get?_extend_of_not_mem _ hys]
  · rw [Environment.get?_extend_of_bindsLast _ hxs, Environment.get?_extend_of_bindsLast _ hys]

/-- A value that is bound over, a name that does not occur and the other order of two names make no
difference. -/
theorem eval_ofList_overwritten :
    let e : Expr := .binary (.name "x") .divide (.name "y")
    let xs : List (String × Int64) := [("x", 1), ("z", 9), ("x", -7), ("y", 2)]
    let ys : List (String × Int64) := [("y", 2), ("x", -7)]
    (BindsLast xs "x" (-7) ∧ BindsLast ys "x" (-7)) ∧ (BindsLast xs "y" 2 ∧ BindsLast ys "y" 2) ∧
      e.eval (.ofList xs) = e.eval (.ofList ys) ∧ e.eval (.ofList ys) = .ok (-3) ∧
      (Environment.ofList ys).contains "x" = true ∧
      e.eval .empty = .error (.unbound "x") ∧ "x" ∈ e.freeNames := by
  intro e xs ys
  obtain ⟨hsame, hbound, hunbound⟩ := eval_ofList e
  have hx : BindsLast xs "x" (-7) ∧ BindsLast ys "x" (-7) :=
    ⟨⟨[("x", 1), ("z", 9)], [("y", 2)], rfl, by decide⟩, ⟨[("y", 2)], [], rfl, by decide⟩⟩
  have hy : BindsLast xs "y" 2 ∧ BindsLast ys "y" 2 :=
    ⟨⟨[("x", 1), ("z", 9), ("x", -7)], [], rfl, by decide⟩, ⟨[], [("x", -7)], rfl, by decide⟩⟩
  have hnames : e.freeNames = ["x", "y"] := by decide
  have hvalue : e.eval (.ofList ys) = .ok (-3) := by decide
  have herror : e.eval .empty = .error (.unbound "x") := by decide
  refine ⟨hx, hy, hsame xs ys ?_, hvalue, hbound _ _ hvalue "x" ?_, herror, (hunbound _ _ herror).1⟩
  · rw [hnames]
    simp only [List.forall_mem_cons]
    exact ⟨.inr ⟨_, hx⟩, .inr ⟨_, hy⟩, List.forall_mem_nil _⟩
  · rw [hnames]
    decide

end Expr

end Reckon
