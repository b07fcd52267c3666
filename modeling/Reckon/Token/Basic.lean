import Reckon.Token.StringLiteral
import Reckon.Token.Comment

/-! Tokens: what a text is made of when it is read from end to end. Identifiers, special symbols and
white space are single leaves; numbers, string literals and comments have parts. -/

namespace Reckon

inductive Token where
  | leaf (leaf : Leaf)
  | number (number : Number)
  | string (literal : StringLiteral)
  | comment (comment : Comment)

namespace Token

instance : Spanned Token where
  first
    | .leaf t => t.first
    | .number t => Spanned.first t
    | .string t => Spanned.first t
    | .comment t => t.first
  last
    | .leaf t => t.last
    | .number t => Spanned.last t
    | .string t => Spanned.last t
    | .comment t => t.last

def isWhiteSpace : Token → Bool
  | .leaf t => t.kind == .whiteSpace
  | _ => false

def kindName : Token → String
  | .leaf t => t.kind.name
  | .number _ => "number"
  | .string _ => "character string"
  | .comment _ => "comment"

/-- The leaves of the token in the order they are written. Comments have none. -/
def leaves : Token → List Leaf
  | .leaf t => [t]
  | .number t => t.leaves
  | .string t => t.leaves
  | .comment _ => []

end Token

end Reckon
