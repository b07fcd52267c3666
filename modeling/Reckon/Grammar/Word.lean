import Reckon.Matcher.Automaton
import Reckon.Text.Classes

/-! The spelling of identifiers, special symbols and white space. An identifier is a letter or an
underscore and any number of letters, underscores and digits after it; it is found by an automaton
with three states. Of two special symbols with the same first character the longer one is meant. -/

namespace Reckon.Grammar

open Matcher

/-- The classes of characters that identifiers are told by: letters, the underscore, digits, and all
others. -/
def identifierClass (c : Char) : Nat :=
  if isAlphabetic c then 0 else if c = '_' then 1 else if isDecimalDigit c then 2 else 3

/-- Nothing has been read in row 0, one character in row 1 and more in row 2. -/
def identifierAutomaton : Automaton where
  initial := .reading 0
  table :=
    [[.accepting 1, .accepting 1, .dead, .dead],
     [.accepting 2, .accepting 2, .accepting 2, .dead],
     [.accepting 2, .accepting 2, .accepting 2, .dead]]
  classify := identifierClass

def identifier : Matcher Leaf := automaton .identifier identifierAutomaton

def doubleSymbols : List Symbol :=
  [⟨'<', ['<']⟩, ⟨'>', ['>']⟩, ⟨'*', ['*']⟩, ⟨'<', ['>']⟩, ⟨'>', ['<']⟩, ⟨'<', ['=']⟩, ⟨'>', ['=']⟩,
   ⟨':', ['=']⟩, ⟨'+', ['=']⟩, ⟨'-', ['=']⟩, ⟨'*', ['=']⟩, ⟨'/', ['=']⟩, ⟨'(', ['*']⟩, ⟨'*', [')']⟩,
   ⟨'(', ['.']⟩, ⟨'.', [')']⟩, ⟨'/', ['/']⟩]

def singleSymbols : List Char :=
  ['\'', '+', '-', '*', '/', '=', '<', '>', '[', ']', '.', ',', '(', ')', ':', ';', '^', '@', '{',
   '}', '$', '#', '&', '%']

def specialSymbol : Matcher Leaf :=
  firstOf (doubleSymbols.map (symbol .specialSymbol) ++ singleSymbols.map (char .specialSymbol))

def whiteSpace : Matcher Leaf := run .whiteSpace isWhiteSpace

end Reckon.Grammar
