import Reckon.Fault

/-! The outcome of trying something at a place in a text: it was found, it is not there, or the run
is aborted by a fault. Not being there is no error; an alternative is tried in its place. Of two
computations run one after the other, the first that is absent or faulty decides. -/

namespace Reckon

inductive Attempt (α : Type) where
  | found (value : α)
  | absent
  | fault (cause : Fault)

namespace Attempt

@[inline] protected def bind {α β : Type} (x : Attempt α) (f : α → Attempt β) : Attempt β :=
  match x with
  | .found a => f a
  | .absent => .absent
  | .fault cause => .fault cause

instance : Monad Attempt where
  pure := .found
  bind := Attempt.bind

@[simp] theorem pure_eq {α : Type} (a : α) : (pure a : Attempt α) = .found a := rfl

@[simp] theorem found_bind {α β : Type} (a : α) (f : α → Attempt β) :
    Attempt.found a >>= f = f a := rfl

@[simp] theorem absent_bind {α β : Type} (f : α → Attempt β) : Attempt.absent >>= f = .absent := rfl

@[simp] theorem fault_bind {α β : Type} (cause : Fault) (f : α → Attempt β) :
    Attempt.fault cause >>= f = .fault cause := rfl

theorem bind_eq_found_iff {α β : Type} {x : Attempt α} {f : α → Attempt β} {b : β} :
    x >>= f = .found b ↔ ∃ a, x = .found a ∧ f a = .found b := by
  cases x with
  | found a => simp
  | absent => simp
  | fault cause => simp

instance : LawfulMonad Attempt := LawfulMonad.mk' Attempt
  (fun x => by cases x <;> rfl)
  (fun _ _ => rfl)
  (fun x _ _ => by cases x <;> rfl)

/-- A computation that may only succeed or fault. -/
def ofExcept {α : Type} : Except Fault α → Attempt α
  | .ok a => .found a
  | .error cause => .fault cause

@[simp] theorem ofExcept_ok {α : Type} (a : α) : ofExcept (.ok a) = .found a := rfl

@[simp] theorem ofExcept_error {α : Type} (cause : Fault) :
    (ofExcept (.error cause) : Attempt α) = .fault cause := rfl

/-- Tries something else if nothing was found. A fault is final. -/
@[inline] def orElse {α : Type} (x : Attempt α) (y : Unit → Attempt α) : Attempt α :=
  match x with
  | .absent => y ()
  | x => x

@[simp] theorem found_orElse {α : Type} (a : α) (y : Unit → Attempt α) :
    (Attempt.found a).orElse y = .found a := rfl

@[simp] theorem absent_orElse {α : Type} (y : Unit → Attempt α) :
    (Attempt.absent : Attempt α).orElse y = y () := rfl

@[simp] theorem fault_orElse {α : Type} (cause : Fault) (y : Unit → Attempt α) :
    (Attempt.fault cause : Attempt α).orElse y = .fault cause := rfl

end Attempt

end Reckon
