/-! Computations that keep a log. A computation yields a value or an error, and in both cases the
entries it wrote on the way, in the order it wrote them. -/

namespace Reckon

/-- A value or an error, and the entries written before it was reached. -/
structure Logged (σ ε α : Type) where
  log : List σ
  result : Except ε α

namespace Logged

variable {σ ε α β : Type}

@[inline] protected def pure (a : α) : Logged σ ε α := ⟨[], .ok a⟩

/-- Goes on with the value; what is written then comes after what was written before. -/
@[inline] protected def bind (x : Logged σ ε α) (f : α → Logged σ ε β) : Logged σ ε β :=
  match x.result with
  | .ok a => ⟨x.log ++ (f a).log, (f a).result⟩
  | .error e => ⟨x.log, .error e⟩

instance : Monad (Logged σ ε) where
  pure := Logged.pure
  bind := Logged.bind

def tell (entry : σ) : Logged σ ε Unit := ⟨[entry], .ok ()⟩

def fail (e : ε) : Logged σ ε α := ⟨[], .error e⟩

@[simp] theorem log_pure (a : α) : (pure a : Logged σ ε α).log = [] := rfl

@[simp] theorem result_pure (a : α) : (pure a : Logged σ ε α).result = .ok a := rfl

@[simp] theorem log_fail (e : ε) : (fail e : Logged σ ε α).log = [] := rfl

@[simp] theorem result_fail (e : ε) : (fail e : Logged σ ε α).result = .error e := rfl

@[simp] theorem log_tell (entry : σ) : (tell entry : Logged σ ε Unit).log = [entry] := rfl

@[simp] theorem result_tell (entry : σ) : (tell entry : Logged σ ε Unit).result = .ok () := rfl

/-- The result of two computations one after the other does not depend on what they write. -/
@[simp] theorem result_bind (x : Logged σ ε α) (f : α → Logged σ ε β) :
    (x >>= f).result = x.result.bind fun a => (f a).result := by
  change (Logged.bind x f).result = _
  unfold Logged.bind Except.bind
  split <;> simp_all

theorem exists_of_bind_eq_ok {x : Logged σ ε α} {f : α → Logged σ ε β} {b : β}
    (h : (x >>= f).result = .ok b) : ∃ a, x.result = .ok a ∧ (f a).result = .ok b := by
  rw [result_bind] at h
  cases hx : x.result with
  | error e =>
    rw [hx] at h
    cases h
  | ok a =>
    rw [hx] at h
    exact ⟨a, rfl, h⟩

theorem bind_eq_error {x : Logged σ ε α} {f : α → Logged σ ε β} {e : ε}
    (h : (x >>= f).result = .error e) :
    x.result = .error e ∨ ∃ a, x.result = .ok a ∧ (f a).result = .error e := by
  rw [result_bind] at h
  cases hx : x.result with
  | error e' =>
    rw [hx] at h
    cases h
    exact .inl rfl
  | ok a =>
    rw [hx] at h
    exact .inr ⟨a, rfl, h⟩

theorem log_bind_of_ok {x : Logged σ ε α} {a : α} (h : x.result = .ok a) (f : α → Logged σ ε β) :
    (x >>= f).log = x.log ++ (f a).log := by
  change (Logged.bind x f).log = _
  simp [Logged.bind, h]

instance : LawfulMonad (Logged σ ε) := LawfulMonad.mk' (Logged σ ε)
  (fun x => by
    cases x with
    | mk log result => cases result <;> simp [Functor.map, Logged.bind, Logged.pure])
  (fun _ _ => rfl)
  (fun x f g => by
    cases x with
    | mk log result =>
      cases result with
      | error e => rfl
      | ok a =>
        cases h : (f a).result <;> simp [bind, Logged.bind, h])

end Logged

end Reckon
