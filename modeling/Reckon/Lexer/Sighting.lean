import Reckon.Lexer.Basic
import Reckon.Text.Quoted

/-! What a lexer can be seen doing. Each token it takes is a sighting, and so is the place where it
stops. Two of its attempts can be watched as well: the automaton for identifiers, each time it
accepts or dies, and a comment that turns out to be none. Which attempts were made follows from the
token found: white space and numbers come before the identifier, and comments come right after it.
-/

namespace Reckon

/-- Something seen while a text is read. -/
inductive Sighting where
  /-- An automaton took a step. -/
  | step (step : Automaton.Step)
  /-- What begins like a comment is none. -/
  | refusal (cause : Comment.Refusal)
  /-- A token was taken where the lexer stood. -/
  | token (kind text : String) (here : Position)
  /-- The lexer stopped before a character. -/
  | stop (here : Position) (next : Option Char)
  deriving DecidableEq

namespace Sighting

def quoteOption : Option Char → String
  | some c => "Some(" ++ quoteChar c ++ ")"
  | none => "None"

def openerText (kind : CommentKind) : String := String.ofList kind.opener

/-- The sighting in words. Steps inside a word and refusals without an opening sequence are not
worth mentioning. -/
def describe? : Sighting → Option String
  | .step ⟨offset, c, .accepting row⟩ =>
    some ("MATCH: i=" ++ toString offset ++ ", c=" ++ quoteChar c ++ ", s=" ++ toString row)
  | .step ⟨offset, c, .dead⟩ => some ("DEAD: i=" ++ toString offset ++ ", c=" ++ quoteChar c)
  | .step ⟨_, _, .reading _⟩ => none
  | .refusal (.cutShort kind here offset) =>
    some (openerText kind ++ " comment at " ++ here.render ++ " cut short at offset "
      ++ toString offset)
  | .refusal (.notClosed kind here) =>
    some (openerText kind ++ " comment at " ++ here.render ++ " not closed")
  | .refusal _ => none
  | .token kind text here => some (kind ++ " " ++ quoteText text ++ " at " ++ here.render)
  | .stop here next => some ("stopped at " ++ here.render ++ " before " ++ quoteOption next)

def ofIdentifier (src : Source) (i : Nat) : List Sighting :=
  match Grammar.identifierAutomaton.steps src i with
  | .ok steps => steps.map .step
  | .error _ => []

def ofComment (src : Source) (here : Position) : List Sighting :=
  match Grammar.commentAt src here with
  | .ok _ => []
  | .error cause => [.refusal cause]

/-- What is seen of the attempts that lead to a token, or to none. -/
def ofAttempts (src : Source) (here : Position) : Option Token → List Sighting
  | some (.number _) => []
  | some (.leaf t) =>
    match t.kind with
    | .whiteSpace => []
    | .identifier => ofIdentifier src here.offset
    | _ => ofIdentifier src here.offset ++ ofComment src here
  | _ => ofIdentifier src here.offset ++ ofComment src here

def ofTaken (src : Source) (here : Position) (token : Token) : List Sighting :=
  match src.textOf (Spanned.span token) with
  | .ok text => [.token token.kindName text here]
  | .error _ => []

end Sighting

namespace Lexer

/-- What is seen when the lexer is asked for the next token and answers with `answer`. -/
def sightings (lx : Lexer) (answer : Option Token) : List Sighting :=
  if lx.stopped ∨ lx.isExhausted then []
  else
    Sighting.ofAttempts lx.source lx.position answer ++
      match answer with
      | some token => Sighting.ofTaken lx.source lx.position token
      | none => [.stop lx.position lx.currentChar]

/-- What is seen while tokens are taken, up to `fuel` of them, until there are no more or one of
them is the last that is wanted. -/
def watchFor (isLast : Token → Bool) : Nat → Lexer → List Sighting
  | 0, _ => []
  | fuel + 1, lx =>
    match lx.next with
    | (.error _, _) => []
    | (.ok none, _) => lx.sightings none
    | (.ok (some token), after) =>
      lx.sightings (some token) ++ if isLast token then [] else watchFor isLast fuel after

def watch (isLast : Token → Bool) (lx : Lexer) : List Sighting :=
  watchFor isLast (lx.source.length - lx.position.offset + 1) lx

end Lexer

end Reckon
