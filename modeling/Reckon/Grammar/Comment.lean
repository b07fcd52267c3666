import Reckon.Matcher.Attempt
import Reckon.Text.Source
import Reckon.Token.Comment

/-! The nesting of comments. Wherever a comment begins inside another one, it is read as a comment
of its own, and the comment around it lends it its closing sequence.

A comment between brackets ends at its own closing sequence. It is no comment at all if the closing
sequence of the comment around it comes first, or if the text ends. A line comment that stands alone
ends with its line. One that stands inside another comment holds no comments: it ends before
whatever begins a comment, before the closing sequence of the comment around it, or with its line.
The end of the text ends every line comment. If one of the comments inside is no comment, neither is
the one around it. -/

namespace Reckon

inductive Comment.Refusal where
  /-- No opening sequence stands there. -/
  | noOpener
  /-- The comment that begins at `here` meets the closing sequence of the one around it at `offset`.
  -/
  | cutShort (kind : CommentKind) (here : Position) (offset : Nat)
  /-- The comment that begins at `here` is still open at the end of the text. -/
  | notClosed (kind : CommentKind) (here : Position)
  | fault (cause : Fault)
  deriving DecidableEq

namespace Grammar

def openerAt (src : Source) (i : Nat) : Option CommentKind :=
  [CommentKind.line, .curly, .round].find? fun kind => src.startsWithAt i kind.opener

/-- The position with offset `target` that is reached from `p`. -/
def moveTo (src : Source) (p : Position) (target : Nat) : Except Comment.Refusal Position :=
  match src.advance p target with
  | .ok q => .ok q
  | .error cause => .error (.fault cause)

/-- Whether the closing sequence of the comment around, if there is one, stands at an offset. -/
def closedFromOutside (src : Source) (around : Option CommentKind) (i : Nat) : Bool :=
  around.any fun kind => src.startsWithAt i kind.closer

/-- Reads on inside the comment of form `kind` that begins at `here`, from offset `i`: the comments
nested in what is left of it, and the offset of its last character. Every further reading starts at
a later offset, so `fuel` need not be more than one above the number of characters left. -/
def commentBody (src : Source) : (fuel : Nat) → CommentKind → Position → Option CommentKind → Nat →
    Except Comment.Refusal (List Comment × Nat)
  | 0, _, _, _, _ => .error (.fault .endless)
  | fuel + 1, kind, here, around, i =>
    if i < src.length then
      match openerAt src i with
      | some inner =>
        if kind = .line ∧ around.isSome then .ok ([], i - 1)
        else do
          let start ← moveTo src here i
          let (nested, last) ←
            commentBody src fuel inner start (some kind) (i + inner.opener.length)
          let stop ← moveTo src start last
          let (others, last) ← commentBody src fuel kind here around (last + 1)
          return (.node inner nested start stop :: others, last)
      | none =>
        if kind = .line then
          if closedFromOutside src around i then .ok ([], i - 1)
          else if src.startsWithAt i kind.closer then .ok ([], i)
          else commentBody src fuel kind here around (i + 1)
        else
          if src.startsWithAt i kind.closer then .ok ([], i + kind.closer.length - 1)
          else if closedFromOutside src around i then .error (.cutShort kind here i)
          else commentBody src fuel kind here around (i + 1)
    else if kind = .line then .ok ([], src.length - 1)
    else .error (.notClosed kind here)

/-- The comment of form `kind` that begins at `here`, given the form of the comment around it. -/
def commentOfKind (src : Source) (kind : CommentKind) (here : Position)
    (around : Option CommentKind) : Except Comment.Refusal Comment := do
  let i := here.offset + kind.opener.length
  let (nested, last) ← commentBody src (src.length - i + 1) kind here around i
  let stop ← moveTo src here last
  return .node kind nested here stop

/-- The comment that begins at `here`, given the form of the comment around it. -/
def commentWithin (src : Source) (here : Position) (around : Option CommentKind) :
    Except Comment.Refusal Comment :=
  match openerAt src here.offset with
  | none => .error .noOpener
  | some kind => commentOfKind src kind here around

/-- The comment that begins at `here`, or why there is none. -/
def commentAt (src : Source) (here : Position) : Except Comment.Refusal Comment :=
  commentWithin src here none

def comment (src : Source) (here : Position) : Attempt Comment :=
  match commentAt src here with
  | .ok c => .found c
  | .error (.fault cause) => .fault cause
  | .error _ => .absent

end Grammar

end Reckon
