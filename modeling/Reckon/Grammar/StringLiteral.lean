import Reckon.Grammar.Number
import Reckon.Token.StringLiteral

/-! The spelling of string literals.

    literal  =  segment+
    segment  =  '\'' [^']* '\''  |  '#' whole

A quoted segment runs to the next quotation mark and may go over several lines. Two segments written
back to back stay two, so a doubled mark ends one and begins another. -/

namespace Reckon.Grammar

open Matcher

def quotationMark : Matcher Leaf := char .singleQuote '\''

def stringBody : Matcher Leaf := run .stringBody (· != '\'')

def quotedSegment : Matcher StringSegment :=
  seq3 (fun opening body closing => .quoted ⟨opening, body.toOption, closing⟩)
    quotationMark (perhaps stringBody) quotationMark

def codedSegment : Matcher StringSegment :=
  seq2 (fun hash code => .coded ⟨hash, code⟩) (char .hash '#') unsignedWhole

def stringLiteral : Matcher StringLiteral :=
  many StringLiteral.mk (firstOf [quotedSegment, codedSegment])

end Reckon.Grammar
