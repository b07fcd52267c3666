import Reckon.Calc.Evaluation
import Reckon.Proofs.Expr.RoundTrip
import Reckon.Proofs.Expr.Spelling
import Reckon.Proofs.Matcher.Repeat
import Reckon.Proofs.Numeral.Signed
import Reckon.Proofs.Text.Trimmed

/-! Bindings and expressions have the same names. A text is a name exactly if an identifier takes it
up as a whole, and then it is an expression as well, a variable of that name. A binding is read from
just the texts in which white space, a name, more white space, an equals sign, white space, a number
and white space follow each other. Of a text that is none of these the first part that is wrong is
reported: there is no equals sign, or there is no name before it, or no number behind it. -/

namespace Reckon

theorem isWhiteSpace_of_isNamePart {c : Char} (h : isNamePart c = true) :
    isWhiteSpace c = false := by
  apply isWhiteSpace_of_endsWord
  rw [← Bool.not_eq_true]
  intro hends
  rw [isNamePart_of_endsWord hends] at h
  cases h

/-- There is no white space among a sign and digits. -/
theorem Radix.Writes.isWhiteSpace {r : Radix} {cs : List Char} {n : Int} (h : r.Writes cs n) :
    ∀ c ∈ cs, Reckon.isWhiteSpace c = false := by
  have hdigits : ∀ {ds : List Char}, IsRun r.isDigit ds →
      ∀ c ∈ ds, Reckon.isWhiteSpace c = false := fun hds c hc =>
    isWhiteSpace_of_isHexDigit (isHexDigit_of_isDigit (hds.all c hc))
  cases h with
  | unsigned hds => exact hdigits hds
  | plus hds => exact List.forall_mem_cons.mpr ⟨by decide, hdigits hds⟩
  | minus hds => exact List.forall_mem_cons.mpr ⟨by decide, hdigits hds⟩

section Name

open Matcher Grammar

variable {src : Source}

/-- Nothing stands behind the end of a text. -/
theorem Source.forall_charAt_length (src : Source) (P : Char → Prop) :
    ∀ c ∈ src.charAt src.length, P c := by
  rw [Source.charAt_eq_none_iff.mpr (Nat.le_refl _)]
  nofun

/-- A text is a name exactly if an identifier that is looked for at its beginning takes up all of
it. -/
theorem isName_iff_identifier (src : Source) :
    isName src.chars.toList = true ↔
      ∃ l, identifier src .origin = .found l ∧ TakesUp src 0 src.chars.toList l := by
  rw [← src.place_zero]
  constructor
  · intro hname
    have hfinds := finds_identifier hname src.carries_all (src.forall_charAt_length _)
    exact ⟨_, hfinds.found, hfinds.takesUp src.carries_all⟩
  · rintro ⟨l, hl, htakes⟩
    obtain ⟨j, cs, hname, hcarries, -, hfinds⟩ := exists_name_of_identifier (Nat.zero_le _) hl
    have htext := htakes.text.symm.trans (hfinds.takesUp hcarries).text
    rwa [String.ofList_injective (Except.ok.inj htext)]

/-- A text that spells a canonical expression from its beginning to its end is read as it. -/
theorem Expr.parse_of_spells {e : Expr} (hc : e.Canonical)
    (h : Spells src 0 src.length e.lexemes) : parse src = .ok e := by
  obtain ⟨tokens, items, htiles, hitems, hlexemes⟩ := h
  obtain ⟨lx, hrun, hsrc, hpos⟩ := Lexer.nextTokens_of_tiles htiles rfl
    (rfl : (Lexer.start src).source = src) src.place_zero.symm rfl (Nat.lt_succ_self _)
  have hended : lx.currentChar = none := by
    rw [Lexer.currentChar, hsrc, hpos, Source.offset_place (Nat.le_refl _)]
    exact Source.charAt_eq_none_iff.mpr (Nat.le_refl _)
  rw [parse, itemsOf_of_items hrun hitems hended]
  simp only [Source.positionOf_eq_place (Nat.le_refl src.length), Expr.ofItems]
  rw [ExprReader.read_of_lexemes hc hlexemes]
  rfl

/-- A name is read as a variable. -/
theorem Expr.parse_of_isName {name : String} (hname : isName name.toList = true)
    (h : src.chars.toList = name.toList) : parse src = .ok (.name name) := by
  have hcarries := src.carries_all
  rw [h] at hcarries
  exact parse_of_spells trivial (Spells.name hname hcarries (src.forall_charAt_length _))

end Name

namespace Binding

/-- The text before the first equals sign and the text behind it. -/
structure Splits (text before after : List Char) : Prop where
  eq : text = before ++ '=' :: after
  first : '=' ∉ before

/-- The text has the name and the number of the binding in it, with an equals sign between them and
white space around them. -/
inductive IsWritten : Binding → List Char → Prop
  | mk {w₁ name w₂ w₃ digits w₄ : List Char} {v : Int64} : IsBlank w₁ → isName name = true →
    IsBlank w₂ → IsBlank w₃ → Radix.decimal.Writes digits v.toInt → IsBlank w₄ →
    IsWritten ⟨String.ofList name, v⟩ (w₁ ++ (name ++ w₂) ++ '=' :: (w₃ ++ (digits ++ w₄)))

/-- What is wrong with a text that no binding is read from. Behind a name that is none it does not
matter what the value is. -/
inductive IsRefused (text : String) : BindingError → Prop
  | missingEquals : '=' ∉ text.toList → IsRefused text (.missingEquals text)
  | invalidName {before after name : List Char} : Splits text.toList before after →
    TrimsTo before name → isName name = false → IsRefused text (.invalidName (String.ofList name))
  | invalidValue {before after name value : List Char} {cause : WholeError} :
    Splits text.toList before after → TrimsTo before name → isName name = true →
    TrimsTo after value → Radix.decimal.Refuses value cause →
    IsRefused text (.invalidValue (String.ofList value) cause)

variable {text : String} {before after name value : List Char} {b : Binding}

theorem IsWritten.isName {cs : List Char} (h : b.IsWritten cs) :
    Reckon.isName b.name.toList = true := by
  cases h with
  | mk _ hname _ _ _ _ => rwa [String.toList_ofList]

theorem Splits.ne_equals (h : Splits text.toList before after) :
    ∀ c ∈ before, (c != '=') = true := by
  intro c hc
  rw [bne_iff_ne]
  rintro rfl
  exact h.first hc

theorem read_of_not_mem (h : '=' ∉ text.toList) : read text = .error (.missingEquals text) := by
  have hnone : text.toList.dropWhile (· != '=') = [] := by
    rw [List.dropWhile_eq_nil_iff]
    intro c hc
    rw [bne_iff_ne]
    rintro rfl
    exact h hc
  rw [read, hnone]

/-- A text with an equals sign is read in two parts, of which the value is not looked at unless the
name is one. -/
theorem read_of_splits (h : Splits text.toList before after) (hname : TrimsTo before name)
    (hvalue : TrimsTo after value) :
    read text =
      if isName name then
        ((readInt64 .decimal value).map (mk (String.ofList name))).mapError
          (.invalidValue (String.ofList value))
      else .error (.invalidName (String.ofList name)) := by
  have hdrop : text.toList.dropWhile (· != '=') = '=' :: after := by
    rw [h.eq, List.dropWhile_append_of_pos h.ne_equals]
    rfl
  have htake : text.toList.takeWhile (· != '=') = before := by
    rw [h.eq, List.takeWhile_append_of_pos h.ne_equals]
    exact List.append_nil before
  rw [read, hdrop, htake]
  simp only [trimmed_eq_iff.mpr hname, trimmed_eq_iff.mpr hvalue]
  cases readInt64 .decimal value <;> rfl

/-- There is no equals sign before the one that the text is written with. -/
theorem not_mem_equals {w₁ w₂ : List Char} (h₁ : IsBlank w₁) (hname : isName name = true)
    (h₂ : IsBlank w₂) : '=' ∉ w₁ ++ (name ++ w₂) := by
  have hblank : ∀ {w : List Char}, IsBlank w → '=' ∉ w := fun hw hmem =>
    absurd (hw '=' hmem) (by decide)
  have hpart : '=' ∉ name := fun hmem =>
    absurd (Grammar.isNamePart_of_isName hname '=' hmem) (by decide)
  simp only [List.mem_append, not_or]
  exact ⟨hblank h₁, hpart, hblank h₂⟩

theorem read_of_isWritten (h : b.IsWritten text.toList) : read text = .ok b := by
  generalize htext : text.toList = cs at h
  obtain ⟨h₁, hname, h₂, h₃, hdigits, h₄⟩ := h
  have hsplits := Splits.mk htext (not_mem_equals h₁ hname h₂)
  have hleft := trimsTo_of_forall h₁ h₂ fun c hc =>
    isWhiteSpace_of_isNamePart (Grammar.isNamePart_of_isName hname c hc)
  have hright := trimsTo_of_forall h₃ h₄ hdigits.isWhiteSpace
  rw [read_of_splits hsplits hleft hright, if_pos hname, readInt64_of_writes hdigits]
  rfl

theorem read_of_isRefused {e : BindingError} (h : IsRefused text e) : read text = .error e := by
  cases h with
  | missingEquals hno => exact read_of_not_mem hno
  | @invalidName before after name hsplits hname hno =>
    rw [read_of_splits hsplits hname (trimsTo_trimmed after), hno, if_neg Bool.false_ne_true]
  | invalidValue hsplits hname his hvalue hrefuses =>
    rw [read_of_splits hsplits hname hvalue, if_pos his, readInt64_of_refuses hrefuses]
    rfl

/-- Every text is the text of a binding or is refused. -/
theorem isWritten_or_isRefused (text : String) :
    (∃ b : Binding, b.IsWritten text.toList) ∨ ∃ e, IsRefused text e := by
  by_cases hequals : '=' ∈ text.toList
  · obtain ⟨before, after, htext, hfirst⟩ := List.eq_append_cons_of_mem hequals
    have hsplits := Splits.mk htext hfirst
    obtain ⟨name, hname⟩ : ∃ name, TrimsTo before name := ⟨_, trimsTo_trimmed before⟩
    obtain ⟨value, hvalue⟩ : ∃ value, TrimsTo after value := ⟨_, trimsTo_trimmed after⟩
    by_cases his : isName name = true
    · rcases exists_writes_or_refuses .decimal value with ⟨v, hwrites⟩ | ⟨cause, hrefuses⟩
      · refine .inl ⟨⟨String.ofList name, v⟩, ?_⟩
        obtain ⟨w₁, w₂, hbefore, h₁, h₂⟩ := hname.around
        obtain ⟨w₃, w₄, hafter, h₃, h₄⟩ := hvalue.around
        rw [htext, hbefore, hafter]
        exact .mk h₁ his h₂ h₃ hwrites h₄
      · exact .inr ⟨_, .invalidValue hsplits hname his hvalue hrefuses⟩
    · rw [Bool.not_eq_true] at his
      exact .inr ⟨_, .invalidName hsplits hname his⟩
  · exact .inr ⟨_, .missingEquals hequals⟩

theorem read_eq_ok_iff : read text = .ok b ↔ b.IsWritten text.toList := by
  refine ⟨fun h => ?_, read_of_isWritten⟩
  rcases isWritten_or_isRefused text with ⟨b', hwritten⟩ | ⟨e, hrefused⟩
  · rw [read_of_isWritten hwritten] at h
    obtain rfl := Except.ok.inj h
    exact hwritten
  · rw [read_of_isRefused hrefused] at h
    cases h

theorem read_eq_error_iff {e : BindingError} : read text = .error e ↔ IsRefused text e := by
  refine ⟨fun h => ?_, read_of_isRefused⟩
  rcases isWritten_or_isRefused text with ⟨b, hwritten⟩ | ⟨e', hrefused⟩
  · rw [read_of_isWritten hwritten] at h
    cases h
  · rw [read_of_isRefused hrefused] at h
    obtain rfl := Except.error.inj h
    exact hrefused

/-- The name that was read is an expression, and its value is the one it is bound to. -/
theorem evalText_of_read (h : read text = .ok b) {src : Source}
    (hsrc : src.chars.toList = b.name.toList) :
    Expr.parse src = .ok (.name b.name) ∧
      ∀ env : Environment, env.get? b.name = some b.value → evalText env src = .ok b.value := by
  have hparse := Expr.parse_of_isName (read_eq_ok_iff.mp h).isName hsrc
  refine ⟨hparse, fun env henv => ?_⟩
  rw [evalText, hparse]
  simp only [Expr.eval, Expr.nameValue, henv]

/-- A text is a name for bindings exactly if it is an identifier of expressions. A binding is read
from the texts in which it is written and from no others, and what is wrong with the others is
reported. The name of a binding that is read is a variable, and an environment that has the binding
gives it the value. -/
theorem read_agrees (text : String) :
    (∀ src : Source, src.chars.toList = text.toList → (isName text.toList = true ↔
      ∃ l, Grammar.identifier src .origin = .found l ∧ TakesUp src 0 text.toList l)) ∧
    (∀ b, read text = .ok b ↔ b.IsWritten text.toList) ∧
    (∀ b, read text = .ok b → ∀ src : Source, src.chars.toList = b.name.toList →
      Expr.parse src = .ok (.name b.name) ∧
      ∀ env : Environment, env.get? b.name = some b.value → evalText env src = .ok b.value) ∧
    ∀ e, read text = .error e ↔ IsRefused text e := by
  refine ⟨fun src hsrc => ?_, fun b => read_eq_ok_iff, fun b hb src hsrc => ?_,
    fun e => read_eq_error_iff⟩
  · rw [← hsrc]
    exact isName_iff_identifier src
  · exact evalText_of_read hb hsrc

/-- A number below zero, with white space around the equals sign and at both ends. -/
theorem read_agrees_minus :
    read " _a = -42\n" = .ok ⟨"_a", -42⟩ ∧ IsWritten ⟨"_a", -42⟩ " _a = -42\n".toList ∧
      Expr.parse (Source.mk #['_', 'a'] (by decide)) = .ok (.name "_a") ∧
      evalText (Environment.ofList [("_a", -42)]) (Source.mk #['_', 'a'] (by decide)) =
        .ok (-42) := by
  have hread : read " _a = -42\n" = .ok ⟨"_a", -42⟩ := by decide
  obtain ⟨-, hwritten, hname, -⟩ := read_agrees " _a = -42\n"
  obtain ⟨hparse, heval⟩ := hname _ hread (Source.mk #['_', 'a'] (by decide)) rfl
  exact ⟨hread, (hwritten _).mp hread, hparse, heval _ (by decide)⟩

end Binding

end Reckon
