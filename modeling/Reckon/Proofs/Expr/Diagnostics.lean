import Reckon.Proofs.Expr.Discipline
import Reckon.Proofs.Expr.Spelling
import Reckon.Proofs.Lexer.Foreign

/-! Where the errors of a text point. An error names a position, and the text tells the same
position for its offset. What is said to stand there does: a refused token begins there with the
characters that are quoted, a foreign character is the one there, and an error about the end of the
text names its end. Positions are handed on from the lexer to the items and from the items to the
error, and a sign that was parted from its number stands as much in the text as any other item. -/

namespace Reckon

/-- The position is the one that its offset has in the text. -/
structure Position.IsIn (src : Source) (here : Position) : Prop where
  le : here.offset ≤ src.length
  position : src.positionOf here.offset = .ok here

theorem Source.isIn_place {src : Source} {i : Nat} (h : i ≤ src.length) :
    (src.place i).IsIn src := by
  constructor
  · rwa [offset_place h]
  · rw [offset_place h, positionOf_eq_place h]

/-- The text holds what the error says is there. -/
def ParseError.PointsAt (src : Source) : ParseError → Prop
  | .unknownTokenType _ here =>
    here.IsIn src ∧ ∃ c, src.charAt here.offset = some c ∧ (c = '\'' ∨ c = '#')
  | .unknownOperator token here | .unexpectedToken token here =>
    here.IsIn src ∧ token ≠ "" ∧ token.toList <+: src.rest here.offset
  | .unexpectedEnd here | .closingExpected here => here.IsIn src ∧ here.offset = src.length
  | .unexpectedCharacter c here =>
    here.IsIn src ∧ src.charAt here.offset = some c ∧ IsForeign c
  | .malformed _ | .fault _ => False

section Lexer

open Matcher Grammar Lexer

variable {src : Source} {tokens : List Token} {lx : Lexer}

/-- A string literal begins with a quotation mark or a hash mark. -/
theorem Lexer.exists_charAt_of_string {i : Nat} {s : StringLiteral} (hi : i ≤ src.length)
    (h : anyToken src (src.place i) = .found (.string s)) :
    ∃ c, src.charAt i = some c ∧ (c = '\'' ∨ c = '#') := by
  have hfound : stringLiteral src (src.place i) = .found s := by
    cases foundAt_of_anyToken h with
    | string hs => exact hs
  by_contra hno
  have hmiss : stringLiteral.Misses src i := by
    apply misses_stringLiteral hi
    intro c hc
    refine ⟨?_, ?_⟩ <;> rintro rfl
    · exact hno ⟨_, hc, .inl rfl⟩
    · exact hno ⟨_, hc, .inr rfl⟩
  rw [hmiss] at hfound
  cases hfound

/-- A token that is refused is a string literal, and the refusal points at it. -/
theorem ParseError.pointsAt_of_string {j : Nat} {s : Token} (hrun : Run src 0 j tokens)
    (hmem : s ∈ tokens) (hs : s.isString = true) :
    (ParseError.unknownTokenType "character string" (Spanned.first s)).PointsAt src := by
  obtain ⟨a, b, -, -, hstands⟩ := hrun.tiles.exists_stands s hmem
  have hfound := hrun.tiles.forall_mem s hmem
  have hlt := hstands.lt
  have hle := hstands.le
  have ha : a ≤ src.length := by omega
  rw [Token.IsFound, hstands.first] at hfound
  rw [hstands.first]
  refine ⟨Source.isIn_place ha, ?_⟩
  rw [Source.offset_place ha]
  cases s with
  | string literal => exact exists_charAt_of_string ha hfound
  | leaf l => cases hs
  | number n => cases hs
  | comment c => cases hs

/-- A character that is refused stopped the lexer. -/
theorem ParseError.pointsAt_of_char {j : Nat} {c : Char} (hrun : Run src 0 j tokens)
    (hc : src.charAt j = some c) :
    (ParseError.unexpectedCharacter c (src.place j)).PointsAt src := by
  have hle := hrun.tiles.le_length
  refine ⟨Source.isIn_place hle, ?_, isForeign_of_absent hrun.stuck hc⟩
  rwa [Source.offset_place hle]

/-- A text either has items that keep it, or the error says truly what stands in the way. -/
theorem itemsOf_pointsAt (src : Source) :
    (∃ tokens items, itemsOf src = .ok items ∧ KeepsText src 0 src.length tokens items) ∨
      ∃ e, itemsOf src = .error e ∧ e.PointsAt src := by
  obtain ⟨tokens, lx, hremaining, hread, hkinds⟩ := exists_remaining src
  obtain ⟨j, hrun, hsrc, hpos⟩ := run_of_remaining hremaining
  cases hs : tokens.find? Token.isString with
  | some s =>
    have hpoints := ParseError.pointsAt_of_string hrun (List.mem_of_find?_eq_some hs)
      (List.find?_some hs)
    exact .inr ⟨_, itemsOf_of_string hremaining hread hkinds hs, hpoints⟩
  | none =>
    have hno : ∀ t ∈ tokens, t.isString = false := by
      simpa using List.find?_eq_none.mp hs
    obtain ⟨items, hitems, hkeeps⟩ := Token.itemsAll_keepsText hread.tiles hkinds hno
    have hj : lx.position.offset = j := by
      rw [hpos, Source.offset_place hrun.tiles.le_length]
    rw [hj] at hkeeps
    cases hc : src.charAt j with
    | some c =>
      have hcurrent : lx.currentChar = some c := by
        rw [currentChar, hsrc, hj, hc]
      rw [itemsOf_of_char hremaining hitems hcurrent, hpos]
      exact .inr ⟨_, rfl, ParseError.pointsAt_of_char hrun hc⟩
    | none =>
      have hcurrent : lx.currentChar = none := by
        rw [currentChar, hsrc, hj, hc]
      obtain rfl : j = src.length :=
        Nat.le_antisymm hrun.tiles.le_length (Source.charAt_eq_none_iff.mp hc)
      exact .inl ⟨tokens, items, itemsOf_of_items hremaining hitems hcurrent, hkeeps⟩

end Lexer

section Reader

variable {src : Source} {tokens : List Token} {items : List Item} {e : ParseError} {i j : Nat}

/-- The text holds an item where the item begins. -/
theorem KeepsText.prefix_rest (h : KeepsText src i j tokens items) {u : Item} (hu : u ∈ items) :
    u.first.IsIn src ∧ u.text ≠ "" ∧ u.text.toList <+: src.rest u.first.offset := by
  obtain ⟨a, b, -, -, hstands⟩ := h.stands u hu
  have hlt := hstands.lt
  have hle := hstands.le
  have ha : a ≤ src.length := by omega
  have hfirst : u.first = src.place a := hstands.first
  have htext := h.copies u hu
  rw [Item.IsCopy, hstands.textOf] at htext
  rw [← Except.ok.inj htext, hfirst, Source.offset_place ha, String.toList_ofList]
  refine ⟨Source.isIn_place ha, ?_, ?_⟩
  · intro hempty
    have hlen := src.length_between (i := a) hle
    rw [← String.toList_ofList (l := src.between a b), hempty] at hlen
    simp at hlen
    omega
  · exact ⟨_, Source.between_append_rest (Nat.le_of_lt hlt)⟩

/-- An item that is not taken is quoted where it begins. -/
theorem KeepsText.refusal_pointsAt (h : KeepsText src i j tokens items) {u : Item}
    (hu : u ∈ items) (before : ItemKind) : (ExprReader.refusal before u).PointsAt src := by
  rw [ExprReader.refusal]
  split
  · exact h.prefix_rest hu
  · exact h.prefix_rest hu

/-- A reader refuses an item of the text or has something to say about its end. -/
theorem KeepsText.ofItems_error_pointsAt (h : KeepsText src i j tokens items)
    (he : Expr.ofItems items (src.place src.length) = .error e) : e.PointsAt src := by
  have hend : (src.place src.length).IsIn src ∧ (src.place src.length).offset = src.length :=
    ⟨Source.isIn_place (Nat.le_refl _), Source.offset_place (Nat.le_refl _)⟩
  rcases Logged.bind_eq_error he with he | ⟨r, hr, he⟩
  · obtain ⟨us, u, vs, q, rfl, hq, hu⟩ := ExprReader.steps_error he
    rw [(ExprReader.reads_of_steps hq).step_error hu]
    exact h.refusal_pointsAt (List.mem_append_right _ List.mem_cons_self) _
  · rcases (ExprReader.reads_of_steps hr).finish_error he with ⟨rfl, -⟩ | ⟨rfl, -⟩
    · exact hend
    · exact hend

end Reader

namespace Expr

/-- An error points at what it names: its position is the one that the text gives its offset, a
token that it quotes begins there, a foreign character stands there, and what is missing at the end
of the text is missed there. No text is refused without such an error. -/
theorem parse_error_pointsAt (src : Source) (e : ParseError) (h : parse src = .error e) :
    e.PointsAt src := by
  rw [parse] at h
  rcases itemsOf_pointsAt src with ⟨tokens, items, hitems, hkeeps⟩ | ⟨e', he, hpoints⟩
  · rw [hitems, Source.positionOf_eq_place (Nat.le_refl _)] at h
    exact hkeeps.ofItems_error_pointsAt h
  · rw [he] at h
    obtain rfl := Except.error.inj h
    exact hpoints

/-- The sign of a number, out of place behind a comment that goes over two lines. -/
theorem parse_error_pointsAt_sign :
    parse (Source.mk #['(', '{', '\n', '}', '+', '2'] (by decide)) =
        .error (.unexpectedToken "+" ⟨1, 1, 4⟩) ∧
      (Source.mk #['(', '{', '\n', '}', '+', '2'] (by decide)).positionOf 4 = .ok ⟨1, 1, 4⟩ ∧
      "+".toList <+: (Source.mk #['(', '{', '\n', '}', '+', '2'] (by decide)).rest 4 := by
  have herror : parse (Source.mk #['(', '{', '\n', '}', '+', '2'] (by decide)) =
      .error (.unexpectedToken "+" ⟨1, 1, 4⟩) := rfl
  obtain ⟨hposition, -, htoken⟩ := parse_error_pointsAt _ _ herror
  exact ⟨herror, hposition.position, htoken⟩

end Expr

end Reckon
