import Reckon.Text.Position

/-! Stretches of text. A span names its first and its last character, so the span of one character
begins and ends at the same position. Two spans merge into the span from the smaller first position
to the larger last one. -/

namespace Reckon

/-- The characters from `first` through `last`, both included. -/
structure Span where
  first : Position
  last : Position
  deriving DecidableEq

namespace Span

/-- From the smaller of the two first positions to the larger of the two last ones. -/
def merge (a b : Span) : Span where
  first := if a.first ≤ b.first then a.first else b.first
  last := if b.last ≤ a.last then a.last else b.last

/-- How many characters the span covers. The count exists only if the span does not end more than
one character before it starts. -/
def length (s : Span) : Except Fault Nat :=
  match nextWord s.last.offset with
  | .error cause => .error cause
  | .ok stop => if s.first.offset ≤ stop then .ok (stop - s.first.offset) else .error .outOfWord

def render (s : Span) : String := "span " ++ s.first.render ++ " to " ++ s.last.render

/-- Spans compare by their first positions, then by their last ones. -/
def order (a b : Span) : Ordering := (a.first.order b.first).then (a.last.order b.last)

instance : Ord Span := ⟨order⟩

end Span

/-- What stands at a place in a text. A placeholder that stands for nothing is empty; it still says
where it would have been. -/
class Spanned (α : Type) where
  first : α → Position
  last : α → Position
  /-- Placeholders consume no text. -/
  isEmpty : α → Bool := fun _ => false

def Spanned.span {α : Type} [Spanned α] (token : α) : Span := ⟨first token, last token⟩

end Reckon
