import Reckon.Text.Span

/-! What an expression is spelled with. The items of an expression are literals, names, operators
and the two parentheses. Which kind may follow which is all the grammar that a reader has to know
beside the precedence of the operators. -/

namespace Reckon

inductive ItemKind where
  | literal
  | name
  | operator
  | opening
  | closing
  deriving DecidableEq

namespace ItemKind

/-- Every kind, operands first. -/
def all : List ItemKind := [.literal, .name, .operator, .opening, .closing]

/-- Whether an item of the second kind may stand right after one of the first. The beginning of an
expression is like an opening parenthesis. -/
def allows : ItemKind → ItemKind → Bool
  | .operator, next => next == .literal || next == .name || next == .opening
  | .literal, next => next == .operator || next == .closing
  | .name, next => next == .operator || next == .closing
  | .opening, next => next != .operator
  | .closing, next => next == .operator || next == .closing

theorem mem_all (kind : ItemKind) : kind ∈ all := by
  cases kind <;> decide

end ItemKind

structure Item where
  kind : ItemKind
  text : String
  first : Position
  last : Position
  deriving DecidableEq

instance : Spanned Item where
  first := Item.first
  last := Item.last

end Reckon
