import Reckon.Expr.Item
import Reckon.Expr.Error
import Reckon.Lexer.Basic

/-! From the tokens of a text to the items of an expression. White space and comments are dropped.
Numbers of every base become literals that keep their text; expressions have no signs, so the sign
of a number becomes an operator of its own. Round brackets become parentheses, and every other
special symbol becomes an operator, for the reader of the expression to accept or not. A string
literal is refused where it begins, and so is a foreign character. -/

namespace Reckon

namespace Token

def symbolKind (text : String) : ItemKind :=
  if text = "(" then .opening else if text = ")" then .closing else .operator

/-- The items that a token of the text stands for. -/
def items (src : Source) : Token → Except ParseError (List Item)
  | .comment _ => .ok []
  | .string t => .error (.unknownTokenType "character string" (Spanned.first t))
  | .leaf t =>
    match t.kind with
    | .whiteSpace => .ok []
    | .identifier => .ok [⟨.name, t.text, t.first, t.last⟩]
    | .specialSymbol => .ok [⟨symbolKind t.text, t.text, t.first, t.last⟩]
    | kind => .error (.unknownTokenType kind.name t.first)
  | .number t =>
    let sign := t.sign.toList.map fun s => ⟨.operator, s.text, s.first, s.last⟩
    let span := Spanned.span t.magnitude
    match src.textOf span with
    | .error cause => .error (.fault cause)
    | .ok text => .ok (sign ++ [⟨.literal, text, span.first, span.last⟩])

/-- The items that tokens of the text stand for, or the first refusal. -/
def itemsAll (src : Source) : List Token → Except ParseError (List Item)
  | [] => .ok []
  | t :: ts =>
    match t.items src with
    | .error e => .error e
    | .ok out =>
      match itemsAll src ts with
      | .error e => .error e
      | .ok more => .ok (out ++ more)

end Token

/-- The items of the expression that a text spells. -/
def itemsOf (src : Source) : Except ParseError (List Item) :=
  match (Lexer.start src).remaining with
  | (.error cause, _) => .error (.fault cause)
  | (.ok tokens, lx) =>
    match Token.itemsAll src tokens with
    | .error e => .error e
    | .ok out =>
      match lx.currentChar with
      | some c => .error (.unexpectedCharacter c lx.position)
      | none => .ok out

end Reckon
