import Reckon.Text.Alphabetic
import Reckon.Text.GraphemeExtend
import Reckon.Text.Unprintable

/-! The classes of characters that the grammars and the quoted forms ask for. Letters and white
space are those of Unicode; digits are the ASCII ones alone. -/

namespace Reckon

/-- The code points with the Unicode property White_Space, in ascending order. -/
def whiteSpaceRanges : CodeTable where
  ranges :=
    [⟨0x9, 0xD⟩, ⟨0x20, 0x20⟩, ⟨0x85, 0x85⟩, ⟨0xA0, 0xA0⟩, ⟨0x1680, 0x1680⟩, ⟨0x2000, 0x200A⟩,
     ⟨0x2028, 0x2029⟩, ⟨0x202F, 0x202F⟩, ⟨0x205F, 0x205F⟩, ⟨0x3000, 0x3000⟩]

/-- The halfwidth marks of voicing, in ascending order. They extend the character before them, but
they are letters and have a width of their own. -/
def voicingMarkRanges : CodeTable where
  ranges := [⟨0xFF9E, 0xFF9F⟩]

/-- The Hangul fillers, in ascending order. They are the letters that text may be shown without:
each keeps the place of a letter that is not there. -/
def fillerRanges : CodeTable where
  ranges := [⟨0x115F, 0x1160⟩, ⟨0x3164, 0x3164⟩, ⟨0xFFA0, 0xFFA0⟩]

def isAlphabetic (c : Char) : Bool := alphabeticRanges.cover c.toNat

def isWhiteSpace (c : Char) : Bool := whiteSpaceRanges.cover c.toNat

/-- Characters that are drawn on the character before them: those with the Unicode property
Grapheme_Extend that are no letters. -/
def isCombining (c : Char) : Bool :=
  graphemeExtendRanges.cover c.toNat && !voicingMarkRanges.cover c.toNat

/-- Characters that show something when they are written as they are. -/
def isPrintable (c : Char) : Bool :=
  !unprintableRanges.cover c.toNat && !fillerRanges.cover c.toNat

def isDecimalDigit (c : Char) : Bool := '0' ≤ c && c ≤ '9'

def isBinaryDigit (c : Char) : Bool := c == '0' || c == '1'

def isOctalDigit (c : Char) : Bool := '0' ≤ c && c ≤ '7'

def isHexDigit (c : Char) : Bool :=
  isDecimalDigit c || ('a' ≤ c && c ≤ 'f') || ('A' ≤ c && c ≤ 'F')

def isNameStart (c : Char) : Bool := isAlphabetic c || c == '_'

def isNamePart (c : Char) : Bool := isNameStart c || isDecimalDigit c

/-- Whether the characters are those of a name: a letter or an underscore, then any number of
letters, underscores and digits. -/
def isName : List Char → Bool
  | [] => false
  | c :: cs => isNameStart c && cs.all isNamePart

/-- The characters left when white space is taken off both ends. -/
def trimmed (text : List Char) : List Char :=
  ((text.dropWhile isWhiteSpace).reverse.dropWhile isWhiteSpace).reverse

end Reckon
