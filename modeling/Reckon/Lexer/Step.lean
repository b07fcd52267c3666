import Reckon.Grammar.StringLiteral
import Reckon.Grammar.Word
import Reckon.Grammar.Comment
import Reckon.Token.Basic

/-! The token at a position where no white space stands. A number is tried first, then an identifier,
a comment, a string literal and a special symbol. Where none of them is found the character is
foreign. -/

namespace Reckon.Lexer

open Matcher Grammar

/-- A token other than white space. -/
def solidToken : Matcher Token :=
  firstOf
    [map Token.number number,
     map Token.leaf identifier,
     map Token.comment comment,
     map Token.string stringLiteral,
     map Token.leaf specialSymbol]

end Reckon.Lexer
