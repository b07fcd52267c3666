import Mathlib.Data.List.Chain
import Reckon.Proofs.Expr.Precedence
import Reckon.Proofs.Lexer.Found

/-! Expressions in arbitrary layout. Between the lexemes of an expression, and before and behind
them, there may be white space and comments between brackets, or nothing at all. No two neighbours
run together: the only lexemes that are read as one token are a sign and the number right behind it,
and these are taken apart again. So a canonical expression is read back from every text it is laid
out in. -/

namespace Reckon

/-- The text is a comment between brackets from its first character through its last. -/
def IsBlockComment (text : List Char) : Prop :=
  ∃ (src : Source) (c : Comment), src.chars.toList = text ∧
    Grammar.comment src .origin = .found c ∧ c.kind ≠ .line ∧ c.last.offset + 1 = src.length

/-- White space and comments between brackets, in any number and order. -/
inductive IsSeparator : List Char → Prop
  | nil : IsSeparator []
  | space {c : Char} {cs : List Char} :
    isWhiteSpace c = true → IsSeparator cs → IsSeparator (c :: cs)
  | comment {text cs : List Char} :
    IsBlockComment text → IsSeparator cs → IsSeparator (text ++ cs)

/-- The lexemes in their order, with separators before, between and behind them. -/
inductive Layout : List Lexeme → List Char → Prop
  | separator {sep : List Char} : IsSeparator sep → Layout [] sep
  | lexeme {sep rest : List Char} {l : Lexeme} {ls : List Lexeme} : IsSeparator sep →
    Layout ls rest → Layout (l :: ls) (sep ++ (l.text.toList ++ rest))

/-- The literals are numbers without a sign, and the names are names. -/
def Expr.WellSpelled : Expr → Prop
  | .literal text => UnsignedWord text.toList
  | .name text => isName text.toList = true
  | .binary left _ right => left.WellSpelled ∧ right.WellSpelled
  | .paren inner => inner.WellSpelled

/-- Whether an item of this kind stands behind an operand. -/
def ItemKind.followsOperand : ItemKind → Bool
  | .operator | .closing => true
  | .literal | .name | .opening => false

namespace Lexeme

/-- The text of the lexeme is a word of its kind. -/
inductive IsWord : Lexeme → Prop
  | literal {text : String} : UnsignedWord text.toList → IsWord ⟨.literal, text⟩
  | name {text : String} : isName text.toList = true → IsWord ⟨.name, text⟩
  | operator (op : Operator) : IsWord (.ofOperator op)
  | opening : IsWord .openParen
  | closing : IsWord .closeParen

end Lexeme

/-- Operands and what joins them take turns. -/
def TakeTurns (ls : List Lexeme) : Prop :=
  ls.IsChain fun a b => a.kind.endsOperand = b.kind.followsOperand

namespace Expr

theorem isWord_of_mem_lexemes {e : Expr} (hw : e.WellSpelled) : ∀ l ∈ e.lexemes, l.IsWord := by
  induction e with
  | literal text =>
    intro l hl
    obtain rfl := List.mem_singleton.mp hl
    exact .literal hw
  | name text =>
    intro l hl
    obtain rfl := List.mem_singleton.mp hl
    exact .name hw
  | binary left op right ihl ihr =>
    intro l hl
    rcases List.mem_append.mp hl with hl | hl
    · exact ihl hw.1 l hl
    · rcases List.mem_cons.mp hl with rfl | hl
      · exact .operator op
      · exact ihr hw.2 l hl
  | paren inner ih =>
    intro l hl
    rcases List.mem_append.mp hl with hl | hl
    · rcases List.mem_cons.mp hl with rfl | hl
      · exact .opening
      · exact ih hw l hl
    · obtain rfl := List.mem_singleton.mp hl
      exact .closing

theorem lexemes_ne_nil (e : Expr) : e.lexemes ≠ [] := by
  cases e <;> simp [lexemes]

theorem followsOperand_head (e : Expr) : ∀ l ∈ e.lexemes.head?, l.kind.followsOperand = false := by
  induction e with
  | literal text => rintro _ ⟨⟩; rfl
  | name text => rintro _ ⟨⟩; rfl
  | binary left op right ihl ihr =>
    rw [lexemes, List.head?_append_of_ne_nil _ left.lexemes_ne_nil]
    exact ihl
  | paren inner ih => rintro _ ⟨⟩; rfl

theorem endsOperand_getLast (e : Expr) : ∀ l ∈ e.lexemes.getLast?, l.kind.endsOperand = true := by
  induction e with
  | literal text => rintro _ ⟨⟩; rfl
  | name text => rintro _ ⟨⟩; rfl
  | binary left op right ihl ihr =>
    rw [lexemes, List.getLast?_append_of_ne_nil _ (List.cons_ne_nil _ _),
      ← List.singleton_append, List.getLast?_append_of_ne_nil _ right.lexemes_ne_nil]
    exact ihr
  | paren inner ih =>
    rw [lexemes, List.getLast?_concat]
    rintro _ ⟨⟩
    rfl

theorem takeTurns_lexemes (e : Expr) : TakeTurns e.lexemes := by
  induction e with
  | literal text => exact .singleton _
  | name text => exact .singleton _
  | binary left op right ihl ihr =>
    have hright : TakeTurns (.ofOperator op :: right.lexemes) := by
      apply ihr.cons
      intro l hl
      rw [right.followsOperand_head l hl]
      rfl
    apply ihl.append hright
    intro l hl
    rintro _ ⟨⟩
    rw [left.endsOperand_getLast l hl]
    rfl
  | paren inner ih =>
    have hinner : TakeTurns (.openParen :: inner.lexemes) := by
      apply ih.cons
      intro l hl
      rw [inner.followsOperand_head l hl]
      rfl
    apply hinner.append (.singleton _)
    intro l hl
    rintro _ ⟨⟩
    rw [← List.singleton_append, List.getLast?_append_of_ne_nil _ inner.lexemes_ne_nil] at hl
    rw [inner.endsOperand_getLast l hl]
    rfl

end Expr

/-! What the text goes on with. -/

/-- Characters that separators begin with. -/
def startsSeparator (c : Char) : Bool := isWhiteSpace c || ['{', '('].contains c

/-- Characters that operands, and separators before them, begin with. -/
def startsOperand (c : Char) : Bool := startsSeparator c || isNameStart c || startsNumber c

theorem endsWord_of_startsSeparator {c : Char} (h : startsSeparator c = true) :
    endsWord c = true := by
  rw [startsSeparator, Bool.or_eq_true, List.contains_iff_mem] at h
  rw [endsWord, Bool.or_eq_true, List.contains_iff_mem]
  rcases h with h | h
  · exact .inl h
  · simp only [List.mem_cons, List.not_mem_nil, or_false] at h
    rcases h with rfl | rfl <;> exact .inr (by decide)

/-- A block comment begins with a character of no other kind of token but a special symbol. -/
theorem class_of_opener {c : Char} (h : c ∈ ['{', '(']) : isWhiteSpace c = false ∧
    isNameStart c = false ∧ startsNumber c = false ∧ c ≠ '+' ∧ c ≠ '-' := by
  simp only [List.mem_cons, List.not_mem_nil, or_false] at h
  rcases h with rfl | rfl <;> decide

theorem startsNumber_of_startsSeparator {c : Char} (h : startsSeparator c = true) :
    startsNumber c = false := by
  rw [← Bool.not_eq_true]
  intro hn
  rw [startsSeparator, isWhiteSpace_of_startsNumber hn, Bool.false_or, List.contains_iff_mem] at h
  rw [(class_of_opener h).2.2.1] at hn
  cases hn

theorem IsBlockComment.exists_cons {text : List Char} (h : IsBlockComment text) :
    ∃ c cs, text = c :: cs ∧ c ∈ ['{', '('] := by
  obtain ⟨src, c, rfl, hc, hkind, -⟩ := h
  rw [← src.place_zero] at hc
  obtain ⟨kind, nested, last, ho, -, rfl⟩ := Grammar.exists_body_of_comment (Nat.zero_le _) hc
  have hhead := Source.charAt_eq_head? kind.opener_ne_nil (Grammar.startsWithAt_of_openerAt ho)
  rw [src.carries_all.charAt_eq_head?] at hhead
  cases kind with
  | line => exact absurd rfl hkind
  | curly =>
    obtain ⟨cs, hcs⟩ := List.head?_eq_some_iff.mp hhead
    exact ⟨_, cs, hcs, by decide⟩
  | round =>
    obtain ⟨cs, hcs⟩ := List.head?_eq_some_iff.mp hhead
    exact ⟨_, cs, hcs, by decide⟩

theorem IsSeparator.head {cs : List Char} (h : IsSeparator cs) :
    ∀ c ∈ cs.head?, startsSeparator c = true := by
  cases h with
  | nil => nofun
  | space hc _ =>
    rintro _ ⟨⟩
    rw [startsSeparator, hc, Bool.true_or]
  | comment ht _ =>
    obtain ⟨d, ds, rfl, hd⟩ := ht.exists_cons
    rintro _ ⟨⟩
    rw [startsSeparator, List.contains_iff_mem.mpr hd, Bool.or_true]

namespace Lexeme

theorem IsWord.exists_cons {l : Lexeme} (h : l.IsWord) :
    ∃ c cs, l.text.toList = c :: cs ∧ isWhiteSpace c = false ∧
      (if l.kind.followsOperand then endsWord c = true else startsOperand c = true) := by
  cases h with
  | @literal text ht =>
    obtain ⟨c, cs, hcs, hc⟩ := ht.exists_cons
    refine ⟨c, cs, hcs, isWhiteSpace_of_startsNumber hc, ?_⟩
    simp [ItemKind.followsOperand, startsOperand, hc]
  | @name text ht =>
    cases hcs : text.toList with
    | nil =>
      rw [hcs] at ht
      cases ht
    | cons c cs =>
      rw [hcs, isName, Bool.and_eq_true] at ht
      refine ⟨c, cs, rfl, isWhiteSpace_of_endsWord (endsWord_of_isNameStart ht.1), ?_⟩
      simp [ItemKind.followsOperand, startsOperand, ht.1]
  | operator op => cases op <;> exact ⟨_, [], rfl, by decide⟩
  | opening => exact ⟨_, [], rfl, by decide⟩
  | closing => exact ⟨_, [], rfl, by decide⟩

end Lexeme

namespace Layout

variable {ls : List Lexeme} {rest : List Char}

theorem head (h : Layout ls rest) (hw : ∀ l ∈ ls, l.IsWord) :
    ∀ c ∈ rest.head?, startsSeparator c = true ∨
      ∃ l ∈ ls.head?, l.IsWord ∧ l.text.toList.head? = some c := by
  cases h with
  | separator hs => exact fun c hc => .inl (hs.head c hc)
  | @lexeme sep rest l ls hs _ =>
    intro c hc
    have hl := hw l List.mem_cons_self
    obtain ⟨d, ds, hds, -, -⟩ := hl.exists_cons
    cases sep with
    | nil =>
      rw [List.nil_append, hds] at hc
      exact .inr ⟨l, rfl, hl, by rw [hds]; exact hc⟩
    | cons s sep => exact .inl (hs.head c hc)

/-- Behind an operand the text goes on with a character that ends words. -/
theorem endsWord_head (h : Layout ls rest) (hw : ∀ l ∈ ls, l.IsWord)
    (hf : ∀ l ∈ ls.head?, l.kind.followsOperand = true) : ∀ c ∈ rest.head?, endsWord c = true := by
  intro c hc
  rcases h.head hw c hc with hsep | ⟨l, hl, hword, hhead⟩
  · exact endsWord_of_startsSeparator hsep
  · obtain ⟨d, ds, hds, -, hd⟩ := hword.exists_cons
    rw [hf l hl, if_pos rfl] at hd
    rw [hds] at hhead
    obtain rfl := Option.some.inj hhead
    exact hd

/-- Where an operand is to come the text goes on with one, or with a separator. -/
theorem startsOperand_head (h : Layout ls rest) (hw : ∀ l ∈ ls, l.IsWord)
    (hf : ∀ l ∈ ls.head?, l.kind.followsOperand = false) :
    ∀ c ∈ rest.head?, startsOperand c = true := by
  intro c hc
  rcases h.head hw c hc with hsep | ⟨l, hl, hword, hhead⟩
  · rw [startsOperand, hsep, Bool.true_or, Bool.true_or]
  · obtain ⟨d, ds, hds, -, hd⟩ := hword.exists_cons
    rw [hf l hl, if_neg Bool.false_ne_true] at hd
    rw [hds] at hhead
    obtain rfl := Option.some.inj hhead
    exact hd

end Layout

end Reckon
