import Reckon.Grammar.Word
import Reckon.Grammar.Number
import Reckon.Matcher.Node

/-! Descriptions of matchers. A pattern is built from single characters, symbols, runs of characters
and automata by alternatives, sequences, options and repetitions; what it finds is a tree of leaves.
A pattern may also join what it finds into one leaf, or judge it once more before it is given out.
-/

namespace Reckon

inductive CharTest where
  | digit
  | letter
  | whiteSpace
  | any
  | none
  | oneOf (chars : List Char)
  | noneOf (chars : List Char)

def CharTest.accepts : CharTest → Char → Bool
  | .digit, c => isDecimalDigit c
  | .letter, c => isAlphabetic c
  | .whiteSpace, c => isWhiteSpace c
  | .any, _ => true
  | .none, _ => false
  | .oneOf chars, c => chars.contains c
  | .noneOf chars, c => !chars.contains c

/-- A second look at what was found, or at nothing having been found. -/
inductive Verdict where
  /-- Leaves it at that. -/
  | keep
  /-- Gives out nothing. -/
  | drop
  /-- Gives out what covers at least so many characters. -/
  | minLength (n : Nat)
  /-- Gives out what ends before the last character of the text. -/
  | notLast
  /-- Where nothing was found, gives out the first character of the text. -/
  | orFirstChar

namespace Verdict

/-- The first character of the text as a leaf at the origin; a question mark if there is none. -/
def firstChar (src : Source) : Node :=
  .leaf (Leaf.single .specialSymbol ((src.charAt 0).getD '?') .origin)

def judge (v : Verdict) (src : Source) (x : Attempt Node) : Attempt Node :=
  match v, x with
  | _, .fault cause => .fault cause
  | .keep, x => x
  | .drop, _ => .absent
  | .minLength n, .found node =>
    match (Spanned.span node).length with
    | .error cause => .fault cause
    | .ok length => if n ≤ length then .found node else .absent
  | .notLast, .found node =>
    match nextWord (Spanned.last node).offset with
    | .error cause => .fault cause
    | .ok next => if next < src.length then .found node else .absent
  | .orFirstChar, .absent => .found (firstChar src)
  | .orFirstChar, .found node => .found node
  | .minLength _, .absent => .absent
  | .notLast, .absent => .absent

end Verdict

inductive Pattern where
  | char (kind : LeafKind) (c : Char)
  | symbol (kind : LeafKind) (s : Symbol)
  | run (kind : LeafKind) (test : CharTest)
  | automaton (kind : LeafKind) (a : Automaton)
  | identifier
  | sign
  | specialSymbol
  | whiteSpace
  | firstOf (ps : List Pattern)
  | sequence (p : Pattern) (ps : List Pattern)
  | perhaps (p : Pattern)
  | many (p : Pattern)
  | join (kind : LeafKind) (p : Pattern)
  | judged (v : Verdict) (p : Pattern)

def Matcher.chain {α : Type} [Spanned α] : List (Matcher α) → Matcher (List α)
  | [], _, _ => .found []
  | p :: ps, src, here => do
    let (a, here) ← p.step src here
    let as ← chain ps src here
    return a :: as

def Perhaps.toNode : Perhaps Node → Node
  | .present n => n
  | .missing here => .missing here

namespace Pattern

mutual

def matcher : Pattern → Matcher Node
  | .char kind c => Matcher.map Node.leaf (Matcher.char kind c)
  | .symbol kind s => Matcher.map Node.leaf (Matcher.symbol kind s)
  | .run kind test => Matcher.map Node.leaf (Matcher.run kind test.accepts)
  | .automaton kind a => Matcher.map Node.leaf (Matcher.automaton kind a)
  | .identifier => Matcher.map Node.leaf Grammar.identifier
  | .sign => Matcher.map Node.leaf Grammar.sign
  | .specialSymbol => Matcher.map Node.leaf Grammar.specialSymbol
  | .whiteSpace => Matcher.map Node.leaf Grammar.whiteSpace
  | .firstOf ps => Matcher.firstOf (matchers ps)
  | .sequence p ps => fun src here => do
    let (head, here) ← (matcher p).step src here
    let tail ← Matcher.chain (matchers ps) src here
    return .group .sequence head tail
  | .perhaps p => Matcher.map Perhaps.toNode (Matcher.perhaps (matcher p))
  | .many p => Matcher.many (Node.group .repetition) (matcher p)
  | .join kind p => Matcher.map (Node.join kind) (matcher p)
  | .judged v p => fun src here => v.judge src (matcher p src here)

def matchers : List Pattern → List (Matcher Node)
  | [] => []
  | p :: ps => matcher p :: matchers ps

end

end Pattern

end Reckon
