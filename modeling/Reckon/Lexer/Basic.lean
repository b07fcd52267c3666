import Reckon.Lexer.Step

/-! Reading a text token by token. A lexer stands at a position of the text and counts what it has
read. It takes the token there and moves on to where reading goes on after it, until the text ends
or a foreign character stops it for good. Being stopped is no error: whoever cares asks whether the
text is exhausted. -/

namespace Reckon

/-- What a lexer has read: all tokens, the white space among them, and the characters of all. -/
structure LexerCounts where
  tokens : Nat
  whiteSpace : Nat
  chars : Nat
  deriving DecidableEq

/-- A lexer on its way through a text. -/
structure Lexer where
  source : Source
  position : Position
  stopped : Bool
  counts : LexerCounts

namespace Lexer

def startingAt (src : Source) (here : Position) : Lexer := ⟨src, here, false, ⟨0, 0, 0⟩⟩

def start (src : Source) : Lexer := startingAt src .origin

def isExhausted (lx : Lexer) : Bool := lx.source.length ≤ lx.position.offset

def currentChar (lx : Lexer) : Option Char := lx.source.charAt lx.position.offset

/-- A lexer that has not read the whole text stands before a character of it. -/
theorem currentChar_eq_none_iff {lx : Lexer} : lx.currentChar = none ↔ lx.isExhausted = true := by
  rw [currentChar, isExhausted, Source.charAt_eq_none_iff, decide_eq_true_iff]

/-- Takes note of a run of white space before anything else is done with it. -/
def noteWhiteSpace (lx : Lexer) : Lexer :=
  { lx with counts := { lx.counts with whiteSpace := lx.counts.whiteSpace + 1 } }

/-- Gives out a token that was found where the lexer stands, and moves past it. A fault leaves the
lexer where it is. -/
def take (lx : Lexer) (token : Token) : Except Fault (Option Token) × Lexer :=
  match resume lx.source lx.position token with
  | .error cause => (.error cause, lx)
  | .ok next =>
    let counted := { lx with counts := { lx.counts with tokens := lx.counts.tokens + 1 } }
    match (Spanned.span token).length with
    | .error cause => (.error cause, counted)
    | .ok n =>
      (.ok (some token),
        { counted with
          position := next
          counts := { counted.counts with chars := counted.counts.chars + n } })

/-- The next token, white space before any other. There is none at the end of the text and after the
lexer was stopped, and none at a foreign character, which stops it. -/
def next (lx : Lexer) : Except Fault (Option Token) × Lexer :=
  if lx.stopped ∨ lx.isExhausted then (.ok none, lx)
  else
    match Grammar.whiteSpace lx.source lx.position with
    | .fault cause => (.error cause, lx)
    | .found space => lx.noteWhiteSpace.take (.leaf space)
    | .absent =>
      match solidToken lx.source lx.position with
      | .fault cause => (.error cause, lx)
      | .found token => lx.take token
      | .absent => (.ok none, { lx with stopped := true })

/-- The next tokens, up to the end or to `fuel` of them. -/
def nextTokens : Nat → Lexer → Except Fault (List Token) × Lexer
  | 0, lx => (.error .endless, lx)
  | fuel + 1, lx =>
    match lx.next with
    | (.error cause, lx) => (.error cause, lx)
    | (.ok none, lx) => (.ok [], lx)
    | (.ok (some token), lx) =>
      match nextTokens fuel lx with
      | (.error cause, lx) => (.error cause, lx)
      | (.ok tokens, lx) => (.ok (token :: tokens), lx)

/-- All tokens from where the lexer stands, and the lexer after them. Each token takes up text, so
there are no more of them than characters left. -/
def remaining (lx : Lexer) : Except Fault (List Token) × Lexer :=
  nextTokens (lx.source.length - lx.position.offset + 1) lx

/-- The next token that is not white space, skipping at most `fuel` that are. -/
def nextSolidFor : Nat → Lexer → Except Fault (Option Token) × Lexer
  | 0, lx => (.error .endless, lx)
  | fuel + 1, lx =>
    match lx.next with
    | (.ok (some token), lx) =>
      if token.isWhiteSpace then nextSolidFor fuel lx else (.ok (some token), lx)
    | answer => answer

def nextSolid (lx : Lexer) : Except Fault (Option Token) × Lexer :=
  nextSolidFor (lx.source.length - lx.position.offset + 1) lx

end Lexer

/-- The tokens of a text from an offset on, up to the first foreign character. At the end of the
text and past it there are none. -/
def lex (src : Source) (offset : Nat) : Except Fault (List Token) :=
  if src.length ≤ offset then .ok []
  else
    match src.positionOf offset with
    | .error cause => .error cause
    | .ok here => (Lexer.startingAt src here).remaining.1

end Reckon
