import Reckon.Lexer.Sighting
import Reckon.Calc.Evaluation

/-! The journal: what the readers report of their work, in the order in which it is done. Each entry
comes from one part of the library and has one of two levels, details and summaries. A summary is
written only when the work it sums up succeeded. -/

namespace Reckon

inductive Level where
  | detail
  | summary
  deriving DecidableEq

inductive Entry where
  /-- Something seen while the text was read. -/
  | seen (sighting : Sighting)
  /-- A text was cut into so many tokens. -/
  | lexed (tokens : Nat) (counts : LexerCounts)
  /-- The items of an expression. -/
  | spelled (items : List Item)
  /-- A move of the reader of expressions. -/
  | moved (move : Move)
  /-- An expression was read. -/
  | parsed (e : Expr) (span : Span)

namespace Entry

/-- Totals are summaries. -/
def level : Entry → Level
  | .lexed .. | .parsed .. => .summary
  | _ => .detail

def describeRecord (name : String) (fields : List (String × String)) : String :=
  name ++ " \x7b " ++ String.intercalate ", " (fields.map fun f => f.1 ++ ": " ++ f.2) ++ " \x7d"

def describeCounts (n : LexerCounts) : String :=
  describeRecord "LexerStats"
    [("tokens", toString n.tokens), ("whitespace", toString n.whiteSpace),
     ("chars", toString n.chars)]

def describePosition (p : Position) : String :=
  describeRecord "Position"
    [("line", toString p.line), ("column", toString p.column), ("offset", toString p.offset)]

def describeKind : ItemKind → String
  | .literal => "Literal"
  | .name => "Identifier"
  | .operator => "Operator"
  | .opening => "OpeningParen"
  | .closing => "ClosingParen"

def describeItem (t : Item) : String :=
  describeRecord "ExprToken"
    [("kind", describeKind t.kind), ("value", quoteText t.text), ("start", describePosition t.first),
     ("end", describePosition t.last)]

def describe? : Entry → Option String
  | .seen sighting => sighting.describe?
  | .lexed tokens counts =>
    some ("lexed " ++ toString tokens ++ " tokens: " ++ describeCounts counts)
  | .spelled items =>
    some ("expression tokens: [" ++ String.intercalate ", " (items.map describeItem) ++ "]")
  | .moved move => some move.describe
  | .parsed e span => some ("parsed " ++ e.dump ++ " over " ++ span.render)

end Entry

namespace Journal

/-- The journal of looking for an identifier at the beginning of a text. -/
def ofIdentifier (src : Source) : List Entry := (Sighting.ofIdentifier src 0).map .seen

/-- The journal of looking for a comment at the beginning of a text. -/
def ofComment (src : Source) : List Entry := (Sighting.ofComment src .origin).map .seen

/-- The journal of cutting a text into tokens. A text of no characters leaves no trace. -/
def ofLexing (src : Source) : List Entry :=
  if src.length = 0 then []
  else
    let lx := Lexer.start src
    (lx.watch fun _ => false).map .seen ++
      match lx.remaining with
      | (.ok tokens, lx) => [.lexed tokens.length lx.counts]
      | (.error _, _) => []

def isStringLiteral : Token → Bool
  | .string _ => true
  | _ => false

/-- From the first of some items to the last. -/
def spanOf? (items : List Item) : Option Span :=
  match items.head?, items.getLast? with
  | some first, some last => some ((Spanned.span first).merge (Spanned.span last))
  | _, _ => none

/-- The journal of reading an expression. -/
def ofParsing (src : Source) : List Entry :=
  ((Lexer.start src).watch isStringLiteral).map .seen ++
    match itemsOf src, src.positionOf src.length with
    | .ok items, .ok stop =>
      let run := ExprReader.read items stop
      .spelled items :: run.log.map .moved ++
        match run.result, spanOf? items with
        | .ok e, some span => [.parsed e span]
        | _, _ => []
    | _, _ => []

end Journal

end Reckon
