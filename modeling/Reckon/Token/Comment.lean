import Reckon.Text.Span

/-! Comments. There are three forms, each with an opening and a closing sequence, and comments nest:
a comment carries the comments found inside it, in the order they stand. -/

namespace Reckon

inductive CommentKind where
  /-- From two slashes to the end of the line. -/
  | line
  /-- Between round brackets with asterisks. -/
  | round
  /-- Between curly brackets. -/
  | curly
  deriving DecidableEq

namespace CommentKind

def opener : CommentKind → List Char
  | .line => ['/', '/']
  | .round => ['(', '*']
  | .curly => ['{']

def closer : CommentKind → List Char
  | .line => ['\n']
  | .round => ['*', ')']
  | .curly => ['}']

end CommentKind

/-- A comment and the comments nested in it, from `first` through `last`. -/
inductive Comment where
  | node (kind : CommentKind) (nested : List Comment) (first last : Position)

namespace Comment

def kind : Comment → CommentKind
  | node kind _ _ _ => kind

def nested : Comment → List Comment
  | node _ nested _ _ => nested

def first : Comment → Position
  | node _ _ first _ => first

def last : Comment → Position
  | node _ _ _ last => last

instance : Spanned Comment where
  first := first
  last := last

mutual

/-- The comment and all comments inside it with their depths, each before those inside it. -/
def outline (depth : Nat) : Comment → List (Nat × Comment)
  | node kind nested first last =>
    (depth, node kind nested first last) :: outlineAll (depth + 1) nested

def outlineAll (depth : Nat) : List Comment → List (Nat × Comment)
  | [] => []
  | c :: cs => outline depth c ++ outlineAll depth cs

end

end Comment

end Reckon
