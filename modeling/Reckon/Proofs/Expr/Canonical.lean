import Reckon.Expr.Basic
import Reckon.Expr.Item

/-! Canonical expressions and how they are spelled. Every expression is spelled by its leaves, its
operators and its parentheses from left to right, but many expressions are spelled alike. Among
these the canonical one groups operators by precedence and operators of equal precedence to the
left: a binary operand without parentheses binds at least as strongly as the operator to its right,
and more strongly than the operator to its left. -/

namespace Reckon

/-- What is written for an item: its kind and its text. -/
structure Lexeme where
  kind : ItemKind
  text : String
  deriving DecidableEq

namespace Lexeme

def openParen : Lexeme := ⟨.opening, "("⟩

def closeParen : Lexeme := ⟨.closing, ")"⟩

def ofOperator (op : Operator) : Lexeme := ⟨.operator, op.text⟩

end Lexeme

namespace ItemKind

/-- Whether an operand may end with an item of this kind. -/
def endsOperand : ItemKind → Bool
  | .literal | .name | .closing => true
  | .operator | .opening => false

@[simp] theorem allows_literal (k : ItemKind) : k.allows .literal = !k.endsOperand := by
  cases k <;> rfl

@[simp] theorem allows_name (k : ItemKind) : k.allows .name = !k.endsOperand := by
  cases k <;> rfl

@[simp] theorem allows_opening (k : ItemKind) : k.allows .opening = !k.endsOperand := by
  cases k <;> rfl

@[simp] theorem allows_operator (k : ItemKind) : k.allows .operator = k.endsOperand := by
  cases k <;> rfl

@[simp] theorem allows_closing (k : ItemKind) :
    k.allows .closing = (k.endsOperand || k == .opening) := by
  cases k <;> rfl

end ItemKind

/-- The lexeme an item stands for. Where the item is a parenthesis its text does not count. -/
def Item.lexeme (t : Item) : Lexeme :=
  match t.kind with
  | .opening => .openParen
  | .closing => .closeParen
  | kind => ⟨kind, t.text⟩

namespace Item

@[simp] theorem kind_lexeme (t : Item) : t.lexeme.kind = t.kind := by
  unfold lexeme
  split <;> simp_all [Lexeme.openParen, Lexeme.closeParen]

/-- The lexeme of anything but a parenthesis has the text of the item. -/
theorem lexeme_of_ne {t : Item} (ho : t.kind ≠ .opening) (hc : t.kind ≠ .closing) :
    t.lexeme = ⟨t.kind, t.text⟩ := by
  unfold lexeme
  split
  · contradiction
  · contradiction
  · rfl

theorem lexeme_of_opening {t : Item} (h : t.kind = .opening) : t.lexeme = .openParen := by
  rw [lexeme, h]

theorem lexeme_of_closing {t : Item} (h : t.kind = .closing) : t.lexeme = .closeParen := by
  rw [lexeme, h]

end Item

namespace Expr

/-- The lexemes of an expression from left to right. -/
def lexemes : Expr → List Lexeme
  | .literal text => [⟨.literal, text⟩]
  | .name text => [⟨.name, text⟩]
  | .binary left op right => lexemes left ++ .ofOperator op :: lexemes right
  | .paren inner => .openParen :: lexemes inner ++ [.closeParen]

/-- The operator at the root, if there is one there. -/
def root? : Expr → Option Operator
  | .binary _ op _ => some op
  | _ => none

/-- In every binary node the left operand, if it is binary, has an operator of the same or a higher
precedence, and the right operand, if it is binary, has one of a higher precedence. -/
def Canonical : Expr → Prop
  | .literal _ => True
  | .name _ => True
  | .binary left op right =>
    Canonical left ∧ Canonical right ∧ (∀ p ∈ left.root?, op.precedence ≤ p.precedence) ∧
      ∀ p ∈ right.root?, op.precedence < p.precedence
  | .paren inner => Canonical inner

instance decidableCanonical : (e : Expr) → Decidable e.Canonical
  | .literal _ => isTrue trivial
  | .name _ => isTrue trivial
  | .binary left _ right =>
    have := decidableCanonical left
    have := decidableCanonical right
    inferInstanceAs (Decidable (_ ∧ _ ∧ _ ∧ _))
  | .paren inner => decidableCanonical inner

/-- The kind of the last lexeme of an expression. -/
def lastKind : Expr → ItemKind
  | .literal _ => .literal
  | .name _ => .name
  | .binary _ _ right => lastKind right
  | .paren _ => .closing

theorem endsOperand_lastKind (e : Expr) : e.lastKind.endsOperand = true := by
  induction e with
  | literal text => rfl
  | name text => rfl
  | binary left op right ihl ihr => exact ihr
  | paren inner ih => rfl

end Expr

end Reckon
