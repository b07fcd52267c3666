import Reckon.Expr.Basic
import Reckon.Expr.Spelling
import Reckon.Logged

/-! Reading an expression with two stacks. Operands wait on one stack, operators and open
parentheses on the other. Each item is first held against the one before it. An operator that comes
in first joins the operands of all operators on top of the stack that bind at least as strongly, so
operators of equal precedence group to the left. A closing parenthesis joins everything down to its
partner. Each move the reader makes is written to a log. -/

namespace Reckon

/-- What is held back on the stack of operators. -/
inductive Held where
  | operator (op : Operator)
  | opening
  deriving DecidableEq

inductive Move where
  /-- Puts an operand on its stack. -/
  | shift (text : String)
  /-- Puts an operator on its stack. -/
  | push (op : Operator)
  /-- Joins two operands by an operator from the stack. -/
  | reduce (op : Operator)
  /-- Ends with an expression. -/
  | accept
  deriving DecidableEq

namespace Move

def describe : Move → String
  | .shift text => "Shift " ++ text
  | .push op => "Push " ++ op.text
  | .reduce op => "Reduce " ++ op.text
  | .accept => "Accept"

end Move

/-- A reader between two items. The tops of the stacks come first. -/
structure ExprReader where
  operands : List Expr
  operators : List Held
  unmatched : Nat
  previous : ItemKind
  deriving DecidableEq

namespace ExprReader

/-- Moves made, then an outcome or an error. -/
abbrev Run := Logged Move ParseError

def start : ExprReader := ⟨[], [], 0, .opening⟩

def reduce (op : Operator) (here : Position) : List Expr → Run (List Expr)
  | right :: left :: operands => do
    Logged.tell (.reduce op)
    return .binary left op right :: operands
  | _ => Logged.fail (.malformed here)

/-- Joins operands by the topmost operators for as long as these bind at least as strongly as `op`.
-/
def reduceFor (op : Operator) (here : Position) :
    List Held → List Expr → Run (List Expr × List Held)
  | .operator top :: items, operands =>
    if top.precedence < op.precedence then return (operands, .operator top :: items)
    else do
      let operands ← reduce top here operands
      reduceFor op here items operands
  | items, operands => return (operands, items)

/-- Joins operands down to the last open parenthesis and closes it. -/
def closeParen (here : Position) : List Held → List Expr → Run (List Expr × List Held)
  | .operator op :: items, operands => do
    let operands ← reduce op here operands
    closeParen here items operands
  | .opening :: items, inner :: operands => return (.paren inner :: operands, items)
  | .opening :: _, [] => Logged.fail (.malformed here)
  | [], _ => Logged.fail (.malformed here)

/-- Joins all operands that are left. -/
def reduceAll (here : Position) : List Held → List Expr → Run (List Expr)
  | .operator op :: items, operands => do
    let operands ← reduce op here operands
    reduceAll here items operands
  | .opening :: _, _ => Logged.fail (.malformed here)
  | [], operands => return operands

def step (r : ExprReader) (t : Item) : Run ExprReader :=
  if r.previous.allows t.kind then
    match t.kind with
    | .literal => do
      Logged.tell (.shift t.text)
      return { r with operands := .literal t.text :: r.operands, previous := .literal }
    | .name => do
      Logged.tell (.shift t.text)
      return { r with operands := .name t.text :: r.operands, previous := .name }
    | .operator =>
      match Operator.ofSymbol? t.text with
      | none => Logged.fail (.unknownOperator t.text t.first)
      | some op => do
        let (operands, operators) ← reduceFor op t.first r.operators r.operands
        Logged.tell (.push op)
        return ⟨operands, .operator op :: operators, r.unmatched, .operator⟩
    | .opening =>
      return ⟨r.operands, .opening :: r.operators, r.unmatched + 1, .opening⟩
    | .closing =>
      if r.unmatched = 0 ∨ r.previous = .opening then
        Logged.fail (.unexpectedToken t.text t.first)
      else do
        let (operands, operators) ← closeParen t.first r.operators r.operands
        return ⟨operands, operators, r.unmatched - 1, .closing⟩
  else Logged.fail (.unexpectedToken t.text t.first)

/-- Ends the expression, which reaches to `stop`. -/
def finish (r : ExprReader) (stop : Position) : Run Expr :=
  if r.previous = .operator then Logged.fail (.unexpectedEnd stop)
  else if r.unmatched ≠ 0 then Logged.fail (.closingExpected stop)
  else do
    match ← reduceAll stop r.operators r.operands with
    | [e] =>
      Logged.tell .accept
      return e
    | [] => Logged.fail (.unexpectedEnd stop)
    | _ :: _ :: _ => Logged.fail (.malformed stop)

def steps (r : ExprReader) : List Item → Run ExprReader
  | [] => return r
  | t :: ts => do
    let r ← r.step t
    r.steps ts

/-- Reads an expression from its items; it reaches to `stop`. -/
def read (items : List Item) (stop : Position) : Run Expr := do
  let r ← start.steps items
  r.finish stop

end ExprReader

namespace Expr

/-- The expression that items spell. Errors at the end of the items are reported at `stop`. -/
def ofItems (items : List Item) (stop : Position) : Except ParseError Expr :=
  (ExprReader.read items stop).result

def parse (src : Source) : Except ParseError Expr :=
  match itemsOf src with
  | .error e => .error e
  | .ok items =>
    match src.positionOf src.length with
    | .error cause => .error (.fault cause)
    | .ok stop => ofItems items stop

end Expr

end Reckon
