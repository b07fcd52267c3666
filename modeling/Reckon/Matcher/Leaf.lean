import Reckon.Matcher.Basic
import Reckon.Token.Leaf

/-! The matchers that find a single leaf by looking at the characters themselves: one given
character, a fixed sequence of characters, or the longest run of characters of a class. None of them
looks past the end of the text, and a run of no characters is no match. -/

namespace Reckon

/-- A fixed sequence of one or more characters. -/
structure Symbol where
  head : Char
  tail : List Char

namespace Symbol

def chars (s : Symbol) : List Char := s.head :: s.tail

def ofString (text : String) : Except Fault Symbol :=
  match text.toList with
  | [] => .error .emptySymbol
  | c :: cs => .ok ⟨c, cs⟩

end Symbol

/-- The leaf from `here` through the offset `last`. -/
def Leaf.through (kind : LeafKind) (src : Source) (here : Position) (last : Nat) :
    Attempt Leaf := do
  let stop ← .ofExcept (src.advance here last)
  let text ← .ofExcept (src.slice here.offset last)
  return ⟨kind, text, here, stop⟩

namespace Matcher

def char (kind : LeafKind) (c : Char) : Matcher Leaf := fun src here =>
  if src.charAt here.offset = some c then .found (Leaf.single kind c here) else .absent

def symbol (kind : LeafKind) (s : Symbol) : Matcher Leaf := fun src here =>
  if src.startsWithAt here.offset s.chars then do
    let stop ← .ofExcept (src.advance here (here.offset + s.tail.length))
    return ⟨kind, String.ofList s.chars, here, stop⟩
  else .absent

/-- The longest run of one or more characters that pass the test. -/
def run (kind : LeafKind) (test : Char → Bool) : Matcher Leaf := fun src here =>
  let stop := src.runEnd test here.offset
  if stop = here.offset then .absent else Leaf.through kind src here (stop - 1)

end Matcher

end Reckon
