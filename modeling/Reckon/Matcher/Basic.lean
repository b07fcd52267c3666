import Reckon.Matcher.Attempt
import Reckon.Text.Source

/-! Matchers and what they are combined from. A matcher looks at one position of a text and finds a
token there or does not. Where the next matcher starts is computed from the token found: right after
its last character, or at the same place if the token is an empty placeholder. Alternatives are
tried in order at one position, and the first that finds something wins. A sequence needs all its
parts. A repetition takes tokens for as long as they are found and take up text; it finds nothing if
there is not even one. -/

namespace Reckon

def Matcher (α : Type) : Type := Source → Position → Attempt α

/-- Where reading goes on after `token`, which was found at `here`. -/
def resume {α : Type} [Spanned α] (src : Source) (here : Position) (token : α) :
    Except Fault Position :=
  if Spanned.isEmpty token then .ok here
  else src.advance (Spanned.last token) ((Spanned.last token).offset + 1)

/-- A token that may be missing. What is missing still has a place. -/
inductive Perhaps (α : Type) where
  | present (token : α)
  | missing (here : Position)

namespace Perhaps

instance {α : Type} [Spanned α] : Spanned (Perhaps α) where
  first
    | .present token => Spanned.first token
    | .missing here => here
  last
    | .present token => Spanned.last token
    | .missing here => here
  isEmpty
    | .present _ => false
    | .missing _ => true

def toOption {α : Type} : Perhaps α → Option α
  | .present token => some token
  | .missing _ => none

end Perhaps

namespace Matcher

variable {α β γ δ ε : Type}

/-- The token found at `here`, and where reading goes on after it. -/
def step [Spanned α] (p : Matcher α) (src : Source) (here : Position) :
    Attempt (α × Position) := do
  let token ← p src here
  let next ← .ofExcept (resume src here token)
  return (token, next)

def firstOf : List (Matcher α) → Matcher α
  | [], _, _ => .absent
  | p :: ps, src, here => (p src here).orElse fun _ => firstOf ps src here

def map (f : α → β) (p : Matcher α) : Matcher β := fun src here => do
  let token ← p src here
  return f token

def seq2 [Spanned α] [Spanned β] (f : α → β → γ) (p : Matcher α) (q : Matcher β) : Matcher γ :=
  fun src here => do
    let (a, here) ← p.step src here
    let (b, _) ← q.step src here
    return f a b

def seq3 [Spanned α] [Spanned β] [Spanned γ] (f : α → β → γ → δ) (p : Matcher α) (q : Matcher β)
    (r : Matcher γ) : Matcher δ :=
  fun src here => do
    let (a, here) ← p.step src here
    let (b, here) ← q.step src here
    let (c, _) ← r.step src here
    return f a b c

def seq4 [Spanned α] [Spanned β] [Spanned γ] [Spanned δ] (f : α → β → γ → δ → ε) (p : Matcher α)
    (q : Matcher β) (r : Matcher γ) (s : Matcher δ) : Matcher ε :=
  fun src here => do
    let (a, here) ← p.step src here
    let (b, here) ← q.step src here
    let (c, here) ← r.step src here
    let (d, _) ← s.step src here
    return f a b c d

/-- Always finds something: a token, or that it is missing. -/
def perhaps (p : Matcher α) : Matcher (Perhaps α) := fun src here =>
  match p src here with
  | .found token => .found (.present token)
  | .absent => .found (.missing here)
  | .fault cause => .fault cause

/-- The tokens found one after another, at most `fuel` of them, until one is absent, takes up no
text or ends the text. Running out of `fuel` is a fault. -/
def collect [Spanned α] (p : Matcher α) (src : Source) : Nat → Position → Except Fault (List α)
  | 0, _ => .error .endless
  | fuel + 1, here =>
    match p src here with
    | .fault cause => .error cause
    | .absent => .ok []
    | .found token =>
      if Spanned.isEmpty token then .ok []
      else
        match resume src here token with
        | .error cause => .error cause
        | .ok next =>
          if src.length ≤ next.offset then .ok [token]
          else
            match collect p src fuel next with
            | .error cause => .error cause
            | .ok tokens => .ok (token :: tokens)

/-- One or more tokens one after another, merged by `f` from the first and the others. A repetition
that ends has started at each offset at most once, so it starts at most once more often than the
text has characters. -/
def many [Spanned α] (f : α → List α → β) (p : Matcher α) : Matcher β := fun src here =>
  match collect p src (src.length + 1) here with
  | .error cause => .fault cause
  | .ok [] => .absent
  | .ok (token :: tokens) => .found (f token tokens)

end Matcher

end Reckon
