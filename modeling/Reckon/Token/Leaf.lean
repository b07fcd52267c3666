import Reckon.Text.Span

/-! Leaves: the smallest pieces a text is cut into. A leaf keeps the text it was matched from and
what kind of text it is; all larger tokens are made of leaves. -/

namespace Reckon

inductive LeafKind where
  | specialSymbol
  | identifier
  | whiteSpace
  | sign
  | scaleMarker
  | dot
  | singleQuote
  | hash
  | stringBody
  | percent
  | ampersand
  | dollar
  | binaryDigits
  | octalDigits
  | decimalDigits
  | hexDigits
  deriving DecidableEq

namespace LeafKind

/-- Every kind, the special symbol first. -/
def all : List LeafKind :=
  [.specialSymbol, .identifier, .whiteSpace, .sign, .scaleMarker, .dot, .singleQuote, .hash,
   .stringBody, .percent, .ampersand, .dollar, .binaryDigits, .octalDigits, .decimalDigits,
   .hexDigits]

def name : LeafKind → String
  | .specialSymbol => "special symbol"
  | .identifier => "identifier"
  | .whiteSpace => "whitespace"
  | .sign => "sign"
  | .scaleMarker => "scale marker"
  | .dot => "dot"
  | .singleQuote => "single quote"
  | .hash => "hash"
  | .stringBody => "string body"
  | .percent => "percent"
  | .ampersand => "ampersand"
  | .dollar => "dollar"
  | .binaryDigits => "binary digits"
  | .octalDigits => "octal digits"
  | .decimalDigits => "decimal digits"
  | .hexDigits => "hex digits"

theorem mem_all (kind : LeafKind) : kind ∈ all := by
  cases kind <;> decide

end LeafKind

/-- A piece of text of one kind, from `first` through `last`. -/
structure Leaf where
  kind : LeafKind
  text : String
  first : Position
  last : Position
  deriving DecidableEq

instance : Spanned Leaf where
  first := Leaf.first
  last := Leaf.last

def Leaf.single (kind : LeafKind) (c : Char) (here : Position) : Leaf :=
  ⟨kind, String.ofList [c], here, here⟩

end Reckon
