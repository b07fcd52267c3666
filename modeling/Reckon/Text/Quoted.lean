import Reckon.Text.Classes

/-! Text as messages quote it: between quotation marks, with a backslash before whatever would be
mistaken for something else. Controls that have a short form use it; marks that are drawn on the
character before them and characters that show nothing are spelled by their code in braces. A single
quotation mark is escaped only inside single marks and a double one only inside double marks. -/

namespace Reckon

def hexSpelling (n : Nat) : String := String.ofList (Nat.toDigits 16 n)

def codeEscape (c : Char) : String := "\\u\x7b" ++ hexSpelling c.toNat ++ "\x7d"

/-- How a character stands in quoted text whose marks are `mark`. -/
def quotedChar (mark c : Char) : String :=
  if c = '\x00' then "\\0"
  else if c = '\t' then "\\t"
  else if c = '\r' then "\\r"
  else if c = '\n' then "\\n"
  else if c = '\\' then "\\\\"
  else if c = mark then String.ofList ['\\', c]
  else if isCombining c || !isPrintable c then codeEscape c
  else String.ofList [c]

def quoteChar (c : Char) : String := "'" ++ quotedChar '\'' c ++ "'"

def quoteText (text : String) : String :=
  "\"" ++ String.join (text.toList.map (quotedChar '"')) ++ "\""

end Reckon
