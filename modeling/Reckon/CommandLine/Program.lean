import Reckon.CommandLine.Request
import Reckon.Calc.Evaluation

/-! What the program answers. A request is carried out on a text, and the answer is what is written
to the two outputs and the exit status. What was written before a failure stays written. A failure
is told with its cause, if it has one. -/

namespace Reckon.CommandLine

inductive ReadError where
  /-- The system refuses, for the reason given. -/
  | system (reason : String)
  /-- The bytes are not text. -/
  | notText
  deriving DecidableEq

def ReadError.message : ReadError → String
  | .system reason => reason
  | .notText => "stream did not contain valid UTF-8"

structure Answer where
  status : Nat
  output : String
  errors : String
  deriving DecidableEq

/-- A failure: what went wrong, and why if that is known. -/
structure Failure where
  message : String
  cause : Option String
  deriving DecidableEq

def Failure.render (f : Failure) : String :=
  "Error: " ++ f.message ++ "\n" ++ (f.cause.map fun c => "\nCaused by:\n    " ++ c ++ "\n").getD ""

/-- The answer of work that wrote `output` and then ended well or failed. -/
def Answer.ofResult (output : String) : Option Failure → Answer
  | none => ⟨0, output, ""⟩
  | some f => ⟨1, output, f.render⟩

def Failure.plain (message : String) : Failure := ⟨message, none⟩

def Failure.ofFault (cause : Fault) : Failure := .plain (cause.message?.getD "aborted")

/-- A reading error, told with what was to be read. -/
def Failure.ofRead (input : Input) (e : ReadError) : Failure :=
  match input with
  | .file path => ⟨"can't read " ++ path, some e.message⟩
  | _ => ⟨"can't read standard input", some e.message⟩

/-- An evaluation error; the cause of an invalid literal is told too. -/
def Failure.ofEval (e : EvalError) : Failure :=
  ⟨e.message,
    match e with
    | .invalidLiteral _ cause => some cause.message
    | _ => none⟩

/-- A token on a line of its own: where it is, what it is and how it reads. -/
def tokenLine (src : Source) (token : Token) : String :=
  let span := Spanned.span token
  let text := match src.textOf span with
    | .ok text => text
    | .error _ => ""
  span.first.render ++ "\t" ++ token.kindName ++ "\t" ++ quoteText text ++ "\n"

/-- Lists the tokens of a text. It is a failure if a foreign character is met. -/
def listTokens (src : Source) (all : Bool) : Answer :=
  match (Lexer.start src).remaining with
  | (.error cause, _) => Answer.ofResult "" (some (.ofFault cause))
  | (.ok tokens, lx) =>
    let shown := tokens.filter fun t => all || !t.isWhiteSpace
    Answer.ofResult (String.join (shown.map (tokenLine src)))
      (lx.currentChar.map fun c =>
        .plain ("lexing stopped at " ++ lx.position.render ++ " on " ++ quoteChar c))

def showTree (src : Source) : Answer :=
  match Expr.parse src with
  | .error e => Answer.ofResult "" (some (.plain e.message))
  | .ok e => Answer.ofResult (e.dump ++ "\n") none

def showValue (src : Source) (bindings : List Binding) : Answer :=
  let env := Environment.ofList (bindings.map fun b => (b.name, b.value))
  match evalText env src with
  | .error (.parsing e) => Answer.ofResult "" (some (.plain e.message))
  | .error (.evaluation e) => Answer.ofResult "" (some (.ofEval e))
  | .ok n => Answer.ofResult (toString n.toInt ++ "\n") none

namespace Request

def input : Request → Input
  | .lex input _ => input
  | .dump input => input
  | .eval input _ => input

def carryOut (r : Request) (src : Source) : Answer :=
  match r with
  | .lex _ all => listTokens src all
  | .dump _ => showTree src
  | .eval _ bindings => showValue src bindings

/-- Carries out a request on what was read for it. -/
def answer (r : Request) (content : Except ReadError String) : Answer :=
  match content with
  | .error e => Answer.ofResult "" (some (.ofRead r.input e))
  | .ok text =>
    match Source.ofString? text with
    | none => Answer.ofResult "" (some (.ofFault .outOfWord))
    | some src => r.carryOut src

end Request

def textOfBytes (bytes : ByteArray) : Except ReadError String :=
  match String.fromUTF8? bytes with
  | some text => .ok text
  | none => .error .notText

def usage : String :=
  "Usage: reckon <COMMAND>\n\nCommands:\n"
    ++ "  lex   Lists the tokens of the input\n"
    ++ "  dump  Prints the parsed expression tree\n"
    ++ "  eval  Evaluates the expression\n"
    ++ "  help  Print this message or the help of the given subcommand(s)\n"

/-- The answer to a command line that asks for nothing to be done. -/
def Refusal.answer : Refusal → Answer
  | .help => ⟨0, usage, ""⟩
  | .version => ⟨0, "reckon 0.1.0\n", ""⟩
  | .misuse => ⟨2, "", usage⟩

/-- The answer to a command line, where `read` gives the bytes of a file or of standard input. -/
def answer (args : List String) (read : Input → Except ReadError ByteArray) : Answer :=
  match Request.ofArguments args with
  | .error refusal => refusal.answer
  | .ok request =>
    request.answer <|
      match request.input with
      | .text text => .ok text
      | input =>
        match read input with
        | .error e => .error e
        | .ok bytes => textOfBytes bytes

end Reckon.CommandLine
