import Reckon.Calc.Evaluation
import Reckon.Proofs.Grammar.Longest

/-! What literals mean. The lexer tells the base of a whole number by its marker and keeps the
digits apart; the interpreter is given the text of the literal and looks at its first character.
Both come to the number that the digits write in that base, as far as it fits: the lexer's numbers
have 64 bits, and the interpreter's have one bit less since they are signed. Reals mean nothing to
the interpreter. -/

namespace Reckon

theorem ofMarker?_eq_none {c : Char} (h : c ≠ '%' ∧ c ≠ '&' ∧ c ≠ '$') :
    Radix.ofMarker? c = none := by
  obtain ⟨hbinary, hoctal, hhex⟩ := h
  rw [Radix.ofMarker?, if_neg hbinary, if_neg hoctal, if_neg hhex]

/-- Behind a marker stand digits of its base. -/
theorem literalValue_of_marker {r : Radix} {c : Char} (h : r.marker? = some c) (ds : List Char) :
    literalValue (String.ofList (c :: ds)) =
      (readInt64 r ds).mapError (.invalidLiteral (String.ofList (c :: ds))) := by
  have hbase : (c :: ds).head?.bind Radix.ofMarker? = some r := Radix.ofMarker?_eq_some_iff.mpr h
  rw [literalValue, String.toList_ofList]
  simp only [hbase, List.tail_cons]
  cases readInt64 r ds <;> rfl

/-- What begins with none of the markers is decimal. -/
theorem literalValue_of_decimal {c : Char} (h : c ≠ '%' ∧ c ≠ '&' ∧ c ≠ '$') (cs : List Char) :
    literalValue (String.ofList (c :: cs)) =
      (readInt64 .decimal (c :: cs)).mapError (.invalidLiteral (String.ofList (c :: cs))) := by
  have hbase : (c :: cs).head?.bind Radix.ofMarker? = none := ofMarker?_eq_none h
  rw [literalValue, String.toList_ofList]
  simp only [hbase]
  cases readInt64 .decimal (c :: cs) <;> rfl

theorem readInt64_of_isRun {r : Radix} {ds : List Char} (hds : IsRun r.isDigit ds) :
    readInt64 r ds =
      if r.number ds < 2 ^ 63 then .ok (Int64.ofInt (r.number ds)) else .error .tooLarge := by
  rw [readInt64, WholeRange.read_signed64 hds]
  by_cases hfits : r.number ds < 2 ^ 63
  · simp only [if_pos hfits]
  · simp only [if_neg hfits]

theorem ne_marker_of_isDecimalDigit {c : Char} (h : isDecimalDigit c = true) :
    c ≠ '%' ∧ c ≠ '&' ∧ c ≠ '$' := by
  refine ⟨?_, ?_, ?_⟩ <;> rintro rfl <;> exact absurd h (by decide)

namespace WholeNumber.IsSpelled

variable {n : WholeNumber} {cs : List Char}

/-- The marker that the interpreter looks at is the one that the lexer found. -/
theorem literalValue_eq (h : n.IsSpelled cs) :
    literalValue (String.ofList cs) =
      (readInt64 n.radix n.digits.text.toList).mapError (.invalidLiteral (String.ofList cs)) := by
  obtain ⟨hmarked, hdigits, hds⟩ := h
  rw [hdigits.text, String.toList_ofList]
  obtain ⟨radix, marker, digits⟩ := n
  cases hmarked with
  | decimal =>
    obtain ⟨d, ds, rfl⟩ := List.exists_cons_of_ne_nil hds.ne_nil
    exact literalValue_of_decimal (ne_marker_of_isDecimalDigit (hds.all d List.mem_cons_self)) ds
  | binary _ => exact literalValue_of_marker (r := .binary) rfl _
  | octal _ => exact literalValue_of_marker (r := .octal) rfl _
  | hexadecimal _ => exact literalValue_of_marker (r := .hexadecimal) rfl _

theorem readInt64_eq (h : n.IsSpelled cs) :
    readInt64 n.radix n.digits.text.toList =
      if n.denoted < 2 ^ 63 then .ok (Int64.ofInt n.denoted) else .error .tooLarge := by
  obtain ⟨-, hdigits, hds⟩ := h
  rw [denoted, hdigits.text, String.toList_ofList]
  exact readInt64_of_isRun hds

end WholeNumber.IsSpelled

/-- The interpreter makes no number of the text that the token stands on. -/
def IsNoLiteral {α : Type} [Spanned α] (src : Source) (t : α) : Prop :=
  ∃ text cause, src.textOf (Spanned.span t) = .ok text ∧
    literalValue text = .error (.invalidLiteral text cause)

/-- A real is no literal, with a sign or without one: at the latest the point or the scale marker
behind its first digit is found to be no digit. -/
theorem literalValue_of_realWord {cs : List Char} (h : RealWord cs) :
    ∃ cause, literalValue (String.ofList cs) =
      .error (.invalidLiteral (String.ofList cs) cause) := by
  obtain ⟨hsign, hds, hfs, hss, hne⟩ := h
  rename_i sign ds fs ss
  obtain ⟨d, ds, rfl⟩ := List.exists_cons_of_ne_nil hds.ne_nil
  obtain ⟨e, es, he⟩ := List.exists_cons_of_ne_nil hne
  have hd := hds.all d List.mem_cons_self
  have hbad : Radix.decimal.digit? e = none := by
    rcases head_of_fraction_scale hfs hss he with rfl | rfl | rfl <;> decide
  have hmem : e ∈ ds ++ (fs ++ ss) := by
    rw [he]
    exact List.mem_append_right _ List.mem_cons_self
  obtain ⟨c, rest, hcs, hc, hrest⟩ : ∃ c rest, sign ++ (d :: ds ++ (fs ++ ss)) = c :: rest ∧
      (c ≠ '%' ∧ c ≠ '&' ∧ c ≠ '$') ∧ e ∈ rest := by
    cases hsign with
    | absent => exact ⟨d, _, rfl, ne_marker_of_isDecimalDigit hd, hmem⟩
    | present hc =>
      refine ⟨_, _, rfl, ?_, List.mem_cons_of_mem d hmem⟩
      rcases hc with rfl | rfl <;> decide
  obtain ⟨cause, hread⟩ := WholeRange.signed64.exists_read_eq_error (c := c) hrest hbad
  refine ⟨cause, ?_⟩
  rw [hcs, literalValue_of_decimal hc, readInt64, hread]
  rfl

/-- The lexer and the interpreter take the whole number for what its digits write. -/
structure WholeNumber.KeepsMeaning (n : WholeNumber) (src : Source) : Prop where
  value : n.value = if n.denoted < 2 ^ 64 then .ok (n.denoted : Nat) else .error .tooLarge
  literal : ∃ text, src.textOf (Spanned.span n) = .ok text ∧
    (n.denoted < 2 ^ 63 → ∃ v, literalValue text = .ok v ∧ v.toInt = n.denoted) ∧
    (2 ^ 63 ≤ n.denoted → literalValue text = .error (.invalidLiteral text .tooLarge))
  agree : ∀ text m v, src.textOf (Spanned.span n) = .ok text → n.value = .ok m →
    literalValue text = .ok v → v.toInt = m

def Magnitude.KeepsMeaning : Magnitude → Source → Prop
  | .whole n, src => n.KeepsMeaning src
  | .real n, src => IsNoLiteral src n

theorem WholeNumber.IsSpelled.keepsMeaning {n : WholeNumber} {src : Source} {i : Nat}
    {cs : List Char} (h : n.IsSpelled cs) (hrow : Row src i (Leafed.leaves n) cs) :
    n.KeepsMeaning src := by
  have hne : cs ≠ [] := mt hrow.eq_nil_iff.mpr (Solid.leaves_ne_nil n)
  have htext := hrow.textOf hne
  have hliteral := h.literalValue_eq
  rw [h.readInt64_eq] at hliteral
  have hfits : n.denoted < 2 ^ 63 → (Int64.ofInt n.denoted).toInt = n.denoted := fun hlt =>
    Int64.toInt_ofInt_of_le (by omega) (by omega)
  refine ⟨h.value_eq, ⟨_, htext, fun hlt => ?_, fun hle => ?_⟩, fun text m v ht hm hv => ?_⟩
  · rw [if_pos hlt] at hliteral
    exact ⟨_, hliteral, hfits hlt⟩
  · rw [if_neg (Nat.not_lt.mpr hle)] at hliteral
    exact hliteral
  · obtain rfl := Except.ok.inj (htext.symm.trans ht)
    rw [hliteral] at hv
    rw [h.value_eq] at hm
    by_cases hlt : n.denoted < 2 ^ 63
    · rw [if_pos hlt] at hv
      rw [if_pos (by omega)] at hm
      obtain rfl := Except.ok.inj hv
      obtain rfl := Except.ok.inj hm
      exact hfits hlt
    · rw [if_neg hlt] at hv
      cases hv

theorem isNoLiteral_of_row {α : Type} [Spanned α] [Leafed α] [Solid α] {src : Source} {i : Nat}
    {t : α} {cs : List Char} (h : RealWord cs) (hrow : Row src i (Leafed.leaves t) cs) :
    IsNoLiteral src t := by
  have hne : cs ≠ [] := mt hrow.eq_nil_iff.mpr (Solid.leaves_ne_nil t)
  obtain ⟨cause, herror⟩ := literalValue_of_realWord h
  exact ⟨_, cause, hrow.textOf hne, herror⟩

theorem Magnitude.IsSpelled.keepsMeaning {m : Magnitude} {src : Source} {i : Nat} {cs : List Char}
    (h : m.IsSpelled cs) (hrow : Row src i (Leafed.leaves m) cs) : m.KeepsMeaning src := by
  cases m with
  | whole n => exact WholeNumber.IsSpelled.keepsMeaning h hrow
  | real n =>
    have hreal : n.IsSpelled cs := h
    exact isNoLiteral_of_row (hreal.realWord .absent) hrow

/-- Whatever matcher of numbers finds it, and wherever, a whole number means the same to the lexer
and to the interpreter, and a real means nothing to the interpreter. -/
theorem literalValue_agrees (src : Source) (here : Position) :
    (∀ n, Grammar.unsignedWhole src here = .found n → n.KeepsMeaning src) ∧
    (∀ m, Grammar.unsignedReal src here = .found m → m.KeepsMeaning src) ∧
    (∀ n, Grammar.number src here = .found n → n.magnitude.KeepsMeaning src ∧
      ((∃ r, n.magnitude = .real r) → IsNoLiteral src n)) := by
  refine ⟨fun n h => ?_, fun m h => ?_, fun n h => ⟨?_, fun hreal => ?_⟩⟩
  · obtain ⟨cs, hspelled, hrow⟩ := Grammar.spells_unsignedWhole h
    exact hspelled.keepsMeaning hrow
  · obtain ⟨cs, hspelled, hrow⟩ := Grammar.spells_unsignedReal h
    exact hspelled.keepsMeaning hrow
  · obtain ⟨next, hm⟩ := Grammar.magnitude_of_number h
    obtain ⟨cs, hspelled, hrow⟩ := Grammar.spells_magnitude hm
    exact hspelled.keepsMeaning hrow
  · obtain ⟨cs, hspelled, hrow⟩ := Grammar.spells_number h
    exact isNoLiteral_of_row (hspelled.real_iff.mp hreal) hrow

/-- A hexadecimal number and, right behind it, a real with a sign. -/
theorem literalValue_agrees_hexadecimal :
    ∃ src w m n, src = Source.mk #['$', 'f', 'F', '-', '1', 'e', '2'] (by decide) ∧
      Grammar.unsignedWhole src .origin = .found w ∧ w.denoted = 255 ∧ w.KeepsMeaning src ∧
      Grammar.unsignedReal src ⟨0, 4, 4⟩ = .found m ∧ m.KeepsMeaning src ∧
      Grammar.number src ⟨0, 3, 3⟩ = .found n ∧ n.magnitude.KeepsMeaning src ∧
      IsNoLiteral src n := by
  obtain ⟨hwhole, -, -⟩ :=
    literalValue_agrees (Source.mk #['$', 'f', 'F', '-', '1', 'e', '2'] (by decide)) .origin
  obtain ⟨-, hreal, -⟩ :=
    literalValue_agrees (Source.mk #['$', 'f', 'F', '-', '1', 'e', '2'] (by decide)) ⟨0, 4, 4⟩
  obtain ⟨-, -, hnumber⟩ :=
    literalValue_agrees (Source.mk #['$', 'f', 'F', '-', '1', 'e', '2'] (by decide)) ⟨0, 3, 3⟩
  obtain ⟨hmagnitude, hno⟩ := hnumber _ rfl
  exact ⟨_, _, _, _, rfl, rfl, by decide, hwhole _ rfl, rfl, hreal _ rfl, rfl, hmagnitude,
    hno ⟨_, rfl⟩⟩

end Reckon
