import Reckon.Numeral.Whole
import Reckon.Text.Quoted

/-! Bindings as they are given from outside: a name, an equals sign and a decimal number, with white
space allowed around both. The first equals sign counts. A name that is none is reported before the
value is looked at. -/

namespace Reckon

structure Binding where
  name : String
  value : Int64
  deriving DecidableEq

inductive BindingError where
  | missingEquals (text : String)
  | invalidName (name : String)
  | invalidValue (value : String) (cause : WholeError)
  deriving DecidableEq

namespace BindingError

def message : BindingError → String
  | .missingEquals text => "binding " ++ quoteText text ++ " is not of the form name=value"
  | .invalidName name => "invalid variable name " ++ quoteText name
  | .invalidValue value _ => "invalid value " ++ quoteText value

/-- What is wrong: the whole text, the name or the value. -/
def subject : BindingError → String
  | .missingEquals text => text
  | .invalidName name => name
  | .invalidValue value _ => value

end BindingError

def readInt64 (radix : Radix) (text : List Char) : Except WholeError Int64 :=
  match WholeRange.signed64.read radix text with
  | .ok n => .ok (Int64.ofInt n)
  | .error cause => .error cause

def Binding.read (text : String) : Except BindingError Binding :=
  match text.toList.dropWhile (· != '=') with
  | [] => .error (.missingEquals text)
  | _ :: after =>
    let name := trimmed (text.toList.takeWhile (· != '='))
    if isName name then
      let value := trimmed after
      match readInt64 .decimal value with
      | .ok n => .ok ⟨String.ofList name, n⟩
      | .error cause => .error (.invalidValue (String.ofList value) cause)
    else .error (.invalidName (String.ofList name))

end Reckon
