import Reckon.Matcher.Leaf

/-! Finite automata given by a table. A state is dead or names a row of the table; a state that
accepts the text read so far says so. Each character belongs to a class, and the classes number the
columns. The automaton reads on until it is dead or the text ends, and what it finds is the longest
text after which it accepted. The steps it takes are a value of their own, so that they can be told.
-/

namespace Reckon

inductive AutomatonState where
  /-- More must be read before the text is accepted. -/
  | reading (row : Nat)
  /-- The text read so far is accepted. -/
  | accepting (row : Nat)
  /-- No text that begins this way is accepted. -/
  | dead
  deriving DecidableEq

namespace AutomatonState

def row? : AutomatonState → Option Nat
  | .reading row => some row
  | .accepting row => some row
  | .dead => none

def isAccepting : AutomatonState → Bool
  | .accepting _ => true
  | _ => false

end AutomatonState

/-- A state to start from, a table with a row for each state and a column for each class of
characters, and the classes. -/
structure Automaton where
  initial : AutomatonState
  table : List (List AutomatonState)
  classify : Char → Nat

namespace Automaton

/-- A character read: its offset, and the state the automaton went to. -/
structure Step where
  offset : Nat
  char : Char
  state : AutomatonState
  deriving DecidableEq

/-- The state that follows row `row` when `c` is read. -/
def next (a : Automaton) (row : Nat) (c : Char) : Except Fault AutomatonState :=
  match a.table[row]? with
  | none => .error .outOfRange
  | some entries =>
    match entries[a.classify c]? with
    | none => .error .outOfRange
    | some state => .ok state

/-- The steps taken over at most `n` characters from offset `i` on. -/
def stepsFor (a : Automaton) (src : Source) : Nat → AutomatonState → Nat → Except Fault (List Step)
  | 0, _, _ => .ok []
  | n + 1, state, i =>
    match state.row?, src.charAt i with
    | some row, some c =>
      match a.next row c with
      | .error cause => .error cause
      | .ok after =>
        match a.stepsFor src n after (i + 1) with
        | .error cause => .error cause
        | .ok steps => .ok (⟨i, c, after⟩ :: steps)
    | _, _ => .ok []

def steps (a : Automaton) (src : Source) (i : Nat) : Except Fault (List Step) :=
  a.stepsFor src (src.length - i) a.initial i

/-- The last offset after which the automaton accepted. -/
def lastAccepted : List Step → Option Nat
  | [] => none
  | s :: ss => (lastAccepted ss).or (if s.state.isAccepting then some s.offset else none)

end Automaton

/-- The longest text the automaton accepts. -/
def Matcher.automaton (kind : LeafKind) (a : Automaton) : Matcher Leaf := fun src here => do
  let steps ← .ofExcept (a.steps src here.offset)
  match Automaton.lastAccepted steps with
  | none => .absent
  | some last => Leaf.through kind src here last

end Reckon
