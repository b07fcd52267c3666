import Reckon.Token.Number

/-! String literals. A literal is one or more segments written back to back: text between single
quotation marks, or a hash mark and the code of a character. What a literal denotes is the text of
its segments joined together; it denotes nothing if a code belongs to no character. -/

namespace Reckon

/-- Text between quotation marks. Nothing stands between the marks of the empty text. -/
structure QuotedSegment where
  opening : Leaf
  body : Option Leaf
  closing : Leaf
  deriving DecidableEq

structure CodedSegment where
  hash : Leaf
  code : WholeNumber
  deriving DecidableEq

inductive StringSegment where
  | quoted (segment : QuotedSegment)
  | coded (segment : CodedSegment)
  deriving DecidableEq

def charOfCode? (code : Nat) : Option Char :=
  if h : code.isValidChar then some (Char.ofNatAux code h) else none

namespace StringSegment

instance : Spanned StringSegment where
  first
    | .quoted s => s.opening.first
    | .coded s => s.hash.first
  last
    | .quoted s => s.closing.last
    | .coded s => Spanned.last s.code

def leaves : StringSegment → List Leaf
  | .quoted s => [s.opening] ++ s.body.toList ++ [s.closing]
  | .coded s => s.hash :: s.code.leaves

def value? : StringSegment → Option String
  | .quoted s => some ((s.body.map Leaf.text).getD "")
  | .coded s =>
    match s.code.value with
    | .error _ => none
    | .ok code => (charOfCode? code.toNat).map fun c => String.ofList [c]

end StringSegment

/-- One or more segments written back to back. -/
structure StringLiteral where
  head : StringSegment
  tail : List StringSegment
  deriving DecidableEq

namespace StringLiteral

def segments (s : StringLiteral) : List StringSegment := s.head :: s.tail

/-- The literal of the given segments, of which there must be one. -/
def ofSegments : List StringSegment → Except Fault StringLiteral
  | [] => .error .emptyString
  | s :: ss => .ok ⟨s, ss⟩

instance : Spanned StringLiteral where
  first s := Spanned.first s.head
  last s := Spanned.last (s.tail.getLastD s.head)

def leaves (s : StringLiteral) : List Leaf := s.segments.flatMap StringSegment.leaves

def value? (s : StringLiteral) : Option String :=
  (s.segments.mapM StringSegment.value?).map String.join

end StringLiteral

end Reckon
