import Reckon.Text.Quoted
import Reckon.Text.Position

/-! Why a text is not an expression. Every error but an aborted run names a place, and where it is
about a token or a character it names that too. -/

namespace Reckon

inductive ParseError where
  /-- A token of a kind that expressions do not have. -/
  | unknownTokenType (kind : String) (here : Position)
  /-- A symbol that is no operator stands where an operator may stand. -/
  | unknownOperator (token : String) (here : Position)
  /-- A token stands where it may not stand. -/
  | unexpectedToken (token : String) (here : Position)
  /-- The expression ends where an operand is missing. -/
  | unexpectedEnd (here : Position)
  /-- The expression ends where a parenthesis is still open. -/
  | closingExpected (here : Position)
  /-- No token begins with the character. -/
  | unexpectedCharacter (char : Char) (here : Position)
  /-- Operands and operators do not fit together. -/
  | malformed (here : Position)
  | fault (cause : Fault)
  deriving DecidableEq

namespace ParseError

def position? : ParseError → Option Position
  | .unknownTokenType _ here => some here
  | .unknownOperator _ here => some here
  | .unexpectedToken _ here => some here
  | .unexpectedEnd here => some here
  | .closingExpected here => some here
  | .unexpectedCharacter _ here => some here
  | .malformed here => some here
  | .fault _ => none

def message : ParseError → String
  | .unknownTokenType kind here => "unknown token type: " ++ kind ++ " at " ++ here.render
  | .unknownOperator token here => "unknown operator token " ++ token ++ " at " ++ here.render
  | .unexpectedToken token here => "unexpected token: " ++ token ++ " at " ++ here.render
  | .unexpectedEnd here => "unexpected end of input at " ++ here.render
  | .closingExpected here => ") expected at " ++ here.render
  | .unexpectedCharacter c here => "unexpected character " ++ quoteChar c ++ " at " ++ here.render
  | .malformed here => "malformed expression at " ++ here.render
  | .fault cause => cause.message?.getD "aborted"

end ParseError

end Reckon
