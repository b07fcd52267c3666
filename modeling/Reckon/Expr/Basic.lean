/-! Arithmetic expressions. An expression keeps the text of its literals and the names of its
variables as they were written, and it keeps the parentheses too, so that it can be told apart from
an expression that needs none. `Expr.dump` is the form in which a tree is shown. -/

namespace Reckon

inductive Operator where
  | plus
  | minus
  | times
  | divide
  deriving DecidableEq

namespace Operator

def symbol : Operator → Char
  | .plus => '+'
  | .minus => '-'
  | .times => '*'
  | .divide => '/'

def text (op : Operator) : String := String.singleton op.symbol

def ofSymbol? (symbol : String) : Option Operator :=
  if symbol = "+" then some .plus
  else if symbol = "-" then some .minus
  else if symbol = "*" then some .times
  else if symbol = "/" then some .divide
  else none

/-- How strongly the operator binds its operands. -/
def precedence : Operator → Nat
  | .plus | .minus => 0
  | .times | .divide => 1

theorem ofSymbol?_text (op : Operator) : ofSymbol? op.text = some op := by
  cases op <;> decide

theorem text_of_ofSymbol? {symbol : String} {op : Operator} (h : ofSymbol? symbol = some op) :
    symbol = op.text := by
  unfold ofSymbol? at h
  split at h
  · obtain rfl := Option.some.inj h; assumption
  · split at h
    · obtain rfl := Option.some.inj h; assumption
    · split at h
      · obtain rfl := Option.some.inj h; assumption
      · split at h
        · obtain rfl := Option.some.inj h; assumption
        · cases h

end Operator

inductive Expr where
  | literal (text : String)
  | name (text : String)
  | binary (left : Expr) (op : Operator) (right : Expr)
  | paren (inner : Expr)
  deriving DecidableEq

namespace Expr

/-- Builds a value from the leaves up: operands before the operator that joins them, the left one
first. -/
def fold {α : Type} (literal name : String → α) (binary : α → Operator → α → α) (paren : α → α) :
    Expr → α
  | .literal text => literal text
  | .name text => name text
  | .binary left op right =>
    binary (fold literal name binary paren left) op (fold literal name binary paren right)
  | .paren inner => paren (fold literal name binary paren inner)

/-- The tree as text, each node by the name of its kind and its parts in parentheses. -/
def dump : Expr → String
  | .literal text => "Lit(" ++ text ++ ")"
  | .name text => "Var(" ++ text ++ ")"
  | .binary left op right => "Bin(" ++ dump left ++ op.text ++ dump right ++ ")"
  | .paren inner => "Par(" ++ dump inner ++ ")"

/-- The variables of the tree from left to right, each as often as it occurs. -/
def names : Expr → List String
  | .literal _ => []
  | .name text => [text]
  | .binary left _ right => names left ++ names right
  | .paren inner => names inner

def freeNames (e : Expr) : List String := e.names.eraseDups

/-- The leaves and operators of the tree, each operator after both its operands. -/
def postOrder : Expr → List String :=
  fold (fun text => [text]) (fun text => [text]) (fun l op r => l ++ r ++ [op.text]) id

/-- How deeply operators are nested. Parentheses do not count. -/
def depth : Expr → Nat := fold (fun _ => 0) (fun _ => 0) (fun l _ r => max l r + 1) id

end Expr

end Reckon
