import Reckon.Lexer.Basic

/-! Of which kinds the tokens of a text are. A matcher of single leaves gives all of them the kind
it was built with, so that a leaf that is a token of its own is white space, an identifier or a
special symbol. The kinds of the parts of numbers and string literals never stand alone. White space
is found as such and nothing else is, so that what a call takes note of as white space are the
tokens of that kind. -/

namespace Reckon

namespace Matcher

variable {α β : Type}

/-- All leaves that are found are of the kind. -/
def Makes (p : Matcher Leaf) (kind : LeafKind) : Prop :=
  ∀ src here l, p src here = .found l → l.kind = kind

theorem makes_char (kind : LeafKind) (c : Char) : (char kind c).Makes kind := by
  intro src here l h
  rw [char] at h
  split at h
  · obtain rfl := Attempt.found.inj h
    rfl
  · cases h

theorem makes_symbol (kind : LeafKind) (s : Symbol) : (symbol kind s).Makes kind := by
  intro src here l h
  rw [symbol] at h
  split at h
  · obtain ⟨stop, -, hl⟩ := Attempt.bind_eq_found_iff.mp h
    obtain rfl := Attempt.found.inj hl
    rfl
  · cases h

theorem kind_of_through {kind : LeafKind} {src : Source} {here : Position} {last : Nat} {l : Leaf}
    (h : Leaf.through kind src here last = .found l) : l.kind = kind := by
  obtain ⟨stop, -, h⟩ := Attempt.bind_eq_found_iff.mp h
  obtain ⟨text, -, hl⟩ := Attempt.bind_eq_found_iff.mp h
  obtain rfl := Attempt.found.inj hl
  rfl

theorem makes_run (kind : LeafKind) (test : Char → Bool) : (run kind test).Makes kind := by
  intro src here l h
  rw [run] at h
  split at h
  · cases h
  · exact kind_of_through h

theorem makes_automaton (kind : LeafKind) (a : Automaton) : (automaton kind a).Makes kind := by
  intro src here l h
  obtain ⟨steps, -, h⟩ := Attempt.bind_eq_found_iff.mp h
  split at h
  · cases h
  · exact kind_of_through h

theorem exists_of_firstOf {ps : List (Matcher α)} {src : Source} {here : Position} {a : α}
    (h : firstOf ps src here = .found a) : ∃ p ∈ ps, p src here = .found a := by
  induction ps with
  | nil => cases h
  | cons p ps ih =>
    rw [firstOf] at h
    cases hp : p src here with
    | found b =>
      rw [hp] at h
      obtain rfl := Attempt.found.inj h
      exact ⟨p, List.mem_cons_self, hp⟩
    | absent =>
      rw [hp] at h
      obtain ⟨q, hq, hfound⟩ := ih h
      exact ⟨q, List.mem_cons_of_mem _ hq, hfound⟩
    | fault cause =>
      rw [hp] at h
      cases h

theorem exists_of_map {f : α → β} {p : Matcher α} {src : Source} {here : Position} {b : β}
    (h : map f p src here = .found b) : ∃ a, p src here = .found a ∧ b = f a := by
  obtain ⟨a, ha, hb⟩ := Attempt.bind_eq_found_iff.mp h
  exact ⟨a, ha, (Attempt.found.inj hb).symm⟩

end Matcher

namespace Grammar

open Matcher

theorem makes_whiteSpace : whiteSpace.Makes .whiteSpace := makes_run _ _

theorem makes_identifier : identifier.Makes .identifier := makes_automaton _ _

theorem makes_specialSymbol : specialSymbol.Makes .specialSymbol := by
  intro src here l h
  obtain ⟨p, hp, hfound⟩ := exists_of_firstOf h
  rcases List.mem_append.mp hp with hp | hp
  · obtain ⟨s, -, rfl⟩ := List.mem_map.mp hp
    exact makes_symbol _ s src here l hfound
  · obtain ⟨c, -, rfl⟩ := List.mem_map.mp hp
    exact makes_char _ c src here l hfound

end Grammar

/-- A leaf that is a token of its own is of one of the three kinds. -/
def Token.IsOfKind : Token → Prop
  | .leaf l => l.kind = .whiteSpace ∨ l.kind = .identifier ∨ l.kind = .specialSymbol
  | _ => True

namespace Lexer

open Matcher Grammar

/-- What a call finds where it looks for a token: white space first, and then anything else. -/
def anyToken : Matcher Token := firstOf [map Token.leaf whiteSpace, solidToken]

/-- What is tried before the special symbols, in this order. -/
def attempts : List (Matcher Token) :=
  [map Token.leaf whiteSpace,
   map Token.number number,
   map Token.leaf identifier,
   map Token.comment comment,
   map Token.string stringLiteral]

/-- The alternatives of a step in one list. -/
theorem anyToken_eq_firstOf (src : Source) (here : Position) :
    anyToken src here = firstOf (attempts ++ [map Token.leaf specialSymbol]) src here := by
  have hnested : firstOf [solidToken] src here = solidToken src here := by
    rw [firstOf]
    cases solidToken src here <;> rfl
  rw [anyToken, firstOf, hnested]
  rfl

/-- A token is one of six kinds, each of which has a matcher of its own. -/
inductive FoundAt (src : Source) (here : Position) : Token → Prop
  | whiteSpace {l : Leaf} : whiteSpace src here = .found l → FoundAt src here (.leaf l)
  | number {n : Number} : number src here = .found n → FoundAt src here (.number n)
  | identifier {l : Leaf} : identifier src here = .found l → FoundAt src here (.leaf l)
  | comment {c : Comment} : comment src here = .found c → FoundAt src here (.comment c)
  | string {s : StringLiteral} : stringLiteral src here = .found s → FoundAt src here (.string s)
  | specialSymbol {l : Leaf} : specialSymbol src here = .found l → FoundAt src here (.leaf l)

theorem foundAt_of_anyToken {src : Source} {here : Position} {t : Token}
    (h : anyToken src here = .found t) : FoundAt src here t := by
  rw [anyToken_eq_firstOf] at h
  obtain ⟨p, hp, h⟩ := exists_of_firstOf h
  simp only [attempts, List.cons_append, List.nil_append, List.mem_cons, List.not_mem_nil,
    or_false] at hp
  rcases hp with rfl | rfl | rfl | rfl | rfl | rfl
  · obtain ⟨l, hl, rfl⟩ := exists_of_map h
    exact .whiteSpace hl
  · obtain ⟨n, hn, rfl⟩ := exists_of_map h
    exact .number hn
  · obtain ⟨l, hl, rfl⟩ := exists_of_map h
    exact .identifier hl
  · obtain ⟨c, hc, rfl⟩ := exists_of_map h
    exact .comment hc
  · obtain ⟨s, hs, rfl⟩ := exists_of_map h
    exact .string hs
  · obtain ⟨l, hl, rfl⟩ := exists_of_map h
    exact .specialSymbol hl

theorem isOfKind_of_anyToken {src : Source} {here : Position} {t : Token}
    (h : anyToken src here = .found t) : t.IsOfKind := by
  cases foundAt_of_anyToken h with
  | whiteSpace hl => exact .inl (makes_whiteSpace _ _ _ hl)
  | identifier hl => exact .inr (.inl (makes_identifier _ _ _ hl))
  | specialSymbol hl => exact .inr (.inr (makes_specialSymbol _ _ _ hl))
  | number _ => trivial
  | comment _ => trivial
  | string _ => trivial

theorem isWhiteSpace_of_whiteSpace {src : Source} {here : Position} {l : Leaf}
    (h : whiteSpace src here = .found l) : (Token.leaf l).isWhiteSpace = true := by
  rw [Token.isWhiteSpace, makes_whiteSpace _ _ _ h]
  rfl

theorem isWhiteSpace_of_solidToken {src : Source} {here : Position} {t : Token}
    (h : solidToken src here = .found t) : t.isWhiteSpace = false := by
  obtain ⟨p, hp, h⟩ := exists_of_firstOf h
  simp only [List.mem_cons, List.not_mem_nil, or_false] at hp
  rcases hp with rfl | rfl | rfl | rfl | rfl
  · obtain ⟨n, -, rfl⟩ := exists_of_map h
    rfl
  · obtain ⟨l, hl, rfl⟩ := exists_of_map h
    rw [Token.isWhiteSpace, makes_identifier _ _ _ hl]
    rfl
  · obtain ⟨c, -, rfl⟩ := exists_of_map h
    rfl
  · obtain ⟨s, -, rfl⟩ := exists_of_map h
    rfl
  · obtain ⟨l, hl, rfl⟩ := exists_of_map h
    rw [Token.isWhiteSpace, makes_specialSymbol _ _ _ hl]
    rfl

/-- The lexer with one more run of white space counted if the token is one. -/
def noting (lx : Lexer) (t : Token) : Lexer :=
  { lx with counts := { lx.counts with
    whiteSpace := lx.counts.whiteSpace + [t].countP Token.isWhiteSpace } }

/-- A call takes what is found where the lexer stands. Of the tokens that are taken, those of the
kind of white space are counted as such. -/
theorem next_eq_anyToken {lx : Lexer} (hgoing : ¬(lx.stopped ∨ lx.isExhausted)) :
    lx.next =
      match anyToken lx.source lx.position with
      | .fault cause => (.error cause, lx)
      | .found token => (lx.noting token).take token
      | .absent => (.ok none, { lx with stopped := true }) := by
  rw [next, if_neg hgoing, anyToken, firstOf, map]
  cases hspace : whiteSpace lx.source lx.position with
  | fault cause => rfl
  | found space =>
    change lx.noteWhiteSpace.take (.leaf space) = (lx.noting (.leaf space)).take (.leaf space)
    rw [noting, List.countP_singleton, if_pos (isWhiteSpace_of_whiteSpace hspace)]
    rfl
  | absent =>
    simp only [Attempt.absent_bind, Attempt.absent_orElse, firstOf]
    cases hsolid : solidToken lx.source lx.position with
    | fault cause => rfl
    | absent => rfl
    | found token =>
      have hno : ¬token.isWhiteSpace = true := by
        rw [isWhiteSpace_of_solidToken hsolid]
        exact Bool.false_ne_true
      simp only [Attempt.found_orElse]
      rw [noting, List.countP_singleton, if_neg hno]
      rfl

/-- The token that is taken is given out. -/
theorem eq_of_take {lx lx' : Lexer} {t u : Token} (h : lx.take t = (.ok (some u), lx')) :
    u = t := by
  rw [take] at h
  split at h
  · cases h
  · dsimp only at h
    split at h
    · cases h
    · cases h
      rfl

/-- A token that a call gives out was found where the lexer stood. -/
theorem anyToken_of_next {lx lx' : Lexer} {t : Token} (h : lx.next = (.ok (some t), lx')) :
    anyToken lx.source lx.position = .found t := by
  by_cases hend : lx.stopped ∨ lx.isExhausted
  · rw [next, if_pos hend] at h
    cases h
  · rw [next_eq_anyToken hend] at h
    cases hany : anyToken lx.source lx.position with
    | fault cause =>
      rw [hany] at h
      cases h
    | absent =>
      rw [hany] at h
      cases h
    | found u =>
      rw [hany] at h
      rw [eq_of_take h]

end Lexer

end Reckon
