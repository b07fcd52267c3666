/-! The values of variables. An environment keeps its bindings in the order in which the names were
first bound; binding a name again changes its value and not its place. No name occurs twice. Two
environments agree if they bind the same names to the same values, in whatever order. -/

namespace Reckon

/-- The bindings of variables in the order of their first binding. -/
structure Environment where
  bindings : List (String × Int64)
  nodup : (bindings.map Prod.fst).Nodup

namespace Environment

def empty : Environment := ⟨[], List.nodup_nil⟩

instance : Inhabited Environment := ⟨empty⟩

/-- Binds a name in a list of bindings, in its old place if it has one and at the end if not. -/
def bind (name : String) (value : Int64) : List (String × Int64) → List (String × Int64)
  | [] => [(name, value)]
  | (n, v) :: rest => if n = name then (n, value) :: rest else (n, v) :: bind name value rest

theorem mem_names_bind {name : String} {value : Int64} {m : String} :
    ∀ {l : List (String × Int64)},
      m ∈ (bind name value l).map Prod.fst ↔ m ∈ l.map Prod.fst ∨ m = name
  | [] => by simp [bind]
  | (n, v) :: rest => by
    unfold bind
    split
    · rename_i h
      simp only [List.map_cons, List.mem_cons]
      constructor
      · exact .inl
      · rintro (hm | hm)
        · exact hm
        · exact .inl (hm.trans h.symm)
    · simp only [List.map_cons, List.mem_cons, mem_names_bind (l := rest), or_assoc]

theorem nodup_names_bind {name : String} {value : Int64} :
    ∀ {l : List (String × Int64)},
      (l.map Prod.fst).Nodup → ((bind name value l).map Prod.fst).Nodup
  | [], _ => by simp [bind]
  | (n, v) :: rest, h => by
    simp only [List.map_cons, List.nodup_cons] at h
    unfold bind
    split
    · simp only [List.map_cons, List.nodup_cons]
      exact h
    · rename_i hn
      simp only [List.map_cons, List.nodup_cons]
      refine ⟨fun hm => ?_, nodup_names_bind h.2⟩
      rcases mem_names_bind.mp hm with hm | hm
      · exact h.1 hm
      · exact hn hm

theorem lookup_bind_self {name : String} {value : Int64} {l : List (String × Int64)} :
    (bind name value l).lookup name = some value := by
  induction l with
  | nil => simp [bind]
  | cons p rest ih =>
    unfold bind
    split
    · rename_i h
      simp [h]
    · rename_i h
      rw [List.lookup_cons, beq_false_of_ne (Ne.symm h)]
      exact ih

theorem lookup_bind_of_ne {name other : String} {value : Int64} {l : List (String × Int64)}
    (hne : other ≠ name) : (bind name value l).lookup other = l.lookup other := by
  induction l with
  | nil => rw [bind, List.lookup_cons, beq_false_of_ne hne]
  | cons p rest ih =>
    unfold bind
    split
    · rename_i h
      rw [List.lookup_cons, List.lookup_cons, h, beq_false_of_ne hne]
    · rw [List.lookup_cons, List.lookup_cons, ih]

def set (env : Environment) (name : String) (value : Int64) : Environment :=
  ⟨bind name value env.bindings, nodup_names_bind env.nodup⟩

def get? (env : Environment) (name : String) : Option Int64 := env.bindings.lookup name

@[simp] theorem get?_set_self (env : Environment) (name : String) (value : Int64) :
    (env.set name value).get? name = some value :=
  lookup_bind_self

theorem get?_set_of_ne (env : Environment) {name other : String} (value : Int64)
    (h : other ≠ name) :
    (env.set name value).get? other = env.get? other :=
  lookup_bind_of_ne h

def contains (env : Environment) (name : String) : Bool := (env.get? name).isSome

def size (env : Environment) : Nat := env.bindings.length

def isEmpty (env : Environment) : Bool := env.bindings.isEmpty

def extend (env : Environment) (pairs : List (String × Int64)) : Environment :=
  pairs.foldl (fun env p => env.set p.1 p.2) env

/-- The environment of several bindings, of which the last one of a name counts. -/
def ofList (pairs : List (String × Int64)) : Environment := empty.extend pairs

/-- Whether two environments bind the same names to the same values. -/
def agrees (a b : Environment) : Bool :=
  a.size == b.size && a.bindings.all fun p => b.get? p.1 == some p.2

end Environment

end Reckon
