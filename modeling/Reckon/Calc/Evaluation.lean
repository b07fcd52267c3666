import Reckon.Calc.Binding
import Reckon.Calc.Environment
import Reckon.Expr.Reader

/-! The value of an expression. Values are signed numbers of 64 bits, and every operation is exact
or fails: its result is computed as a whole number, division rounding toward zero, and must fit. The
operands of an operator are evaluated from left to right, and the first failure is the one reported.
-/

namespace Reckon

inductive EvalError where
  | unbound (name : String)
  | divisionByZero
  | overflow (op : Operator)
  | invalidLiteral (text : String) (cause : WholeError)
  deriving DecidableEq

namespace EvalError

def message : EvalError → String
  | .unbound name => "unbound variable " ++ name
  | .divisionByZero => "division by zero"
  | .overflow op => "integer overflow in " ++ op.text
  | .invalidLiteral text _ => "invalid integer literal " ++ text

end EvalError

/-- The number of 64 bits with the given value, if there is one. -/
def fitInt64 (n : Int) : Option Int64 :=
  if Int64.minValue.toInt ≤ n ∧ n ≤ Int64.maxValue.toInt then some (Int64.ofInt n) else none

namespace Operator

/-- The operation on whole numbers. Division rounds toward zero. -/
def onInt : Operator → Int → Int → Int
  | .plus, a, b => a + b
  | .minus, a, b => a - b
  | .times, a, b => a * b
  | .divide, a, b => a.tdiv b

def apply (op : Operator) (a b : Int64) : Except EvalError Int64 :=
  if op = .divide ∧ b = 0 then .error .divisionByZero
  else
    match fitInt64 (op.onInt a.toInt b.toInt) with
    | some c => .ok c
    | none => .error (.overflow op)

/-- The operation on operands of which either may have failed. -/
def combine (left : Except EvalError Int64) (op : Operator) (right : Except EvalError Int64) :
    Except EvalError Int64 :=
  match left with
  | .error e => .error e
  | .ok a =>
    match right with
    | .error e => .error e
    | .ok b => op.apply a b

end Operator

/-- The value of a literal. A marker in front chooses the base of the digits. -/
def literalValue (text : String) : Except EvalError Int64 :=
  let digits := text.toList
  let value :=
    match digits.head?.bind Radix.ofMarker? with
    | some radix => readInt64 radix digits.tail
    | none => readInt64 .decimal digits
  match value with
  | .ok n => .ok n
  | .error cause => .error (.invalidLiteral text cause)

namespace Expr

def nameValue (env : Environment) (name : String) : Except EvalError Int64 :=
  match env.get? name with
  | some n => .ok n
  | none => .error (.unbound name)

/-- The value of an expression. The right operand is not looked at if the left one fails. -/
def eval (env : Environment) : Expr → Except EvalError Int64
  | .literal text => literalValue text
  | .name text => nameValue env text
  | .binary left op right =>
    match eval env left with
    | .error e => .error e
    | .ok a =>
      match eval env right with
      | .error e => .error e
      | .ok b => op.apply a b
  | .paren inner => eval env inner

end Expr

/-- Why a text has no value: it is no expression, or the expression has none. -/
inductive CalcError where
  | parsing (cause : ParseError)
  | evaluation (cause : EvalError)
  deriving DecidableEq

namespace CalcError

def message : CalcError → String
  | .parsing cause => "parsing error: " ++ cause.message
  | .evaluation cause => "evaluation error: " ++ cause.message

end CalcError

def evalText (env : Environment) (src : Source) : Except CalcError Int64 :=
  match Expr.parse src with
  | .error cause => .error (.parsing cause)
  | .ok e =>
    match e.eval env with
    | .error cause => .error (.evaluation cause)
    | .ok n => .ok n

end Reckon
