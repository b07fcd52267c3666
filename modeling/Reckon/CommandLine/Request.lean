import Reckon.Calc.Binding

/-! What a command line asks for. The first argument names a command; what follows are options,
which begin with a hyphen, and at most one text. A double hyphen ends the options. An option that
takes a value finds it right behind its letter, behind an equals sign or in the next argument, which
then must not begin with a hyphen itself. Arguments are taken from left to right: whichever comes
first, a request for help or a mistake, decides. -/

namespace Reckon.CommandLine

/-- Where the text to work on comes from. -/
inductive Input where
  | text (text : String)
  | file (path : String)
  | standard
  deriving DecidableEq

inductive Request where
  /-- Lists the tokens of the text, white space only if `all`. -/
  | lex (input : Input) (all : Bool)
  /-- Shows the tree of the expression. -/
  | dump (input : Input)
  /-- Evaluates the expression under the bindings. -/
  | eval (input : Input) (bindings : List Binding)
  deriving DecidableEq

/-- Why a command line asks for nothing to be done. -/
inductive Refusal where
  /-- It asks how the program is used, or for its version. -/
  | help
  | version
  /-- It makes no sense. -/
  | misuse
  deriving DecidableEq

inductive Command where
  | lex
  | dump
  | eval
  deriving DecidableEq

def Command.ofName? (name : String) : Option Command :=
  if name = "lex" then some .lex
  else if name = "dump" then some .dump
  else if name = "eval" then some .eval
  else none

inductive Flag where
  | help
  | all
  | file
  | var
  deriving DecidableEq

namespace Flag

def takesValue : Flag → Bool
  | .file | .var => true
  | .help | .all => false

/-- Whether a command knows the option. -/
def belongsTo : Flag → Command → Bool
  | .help, _ => true
  | .file, _ => true
  | .all, command => command == .lex
  | .var, command => command == .eval

def ofLetter? (command : Command) (c : Char) : Option Flag :=
  (if c = 'h' then some .help
    else if c = 'a' then some .all
    else if c = 'f' then some .file
    else if c = 'v' then some .var
    else none : Option Flag).filter (·.belongsTo command)

def ofName? (command : Command) (name : List Char) : Option Flag :=
  (if name = "help".toList then some .help
    else if name = "all".toList then some .all
    else if name = "file".toList then some .file
    else if name = "var".toList then some .var
    else none : Option Flag).filter (·.belongsTo command)

end Flag

/-- What the arguments have said so far. -/
structure Settings where
  text : Option String
  file : Option String
  all : Bool
  bindings : List Binding
  deriving DecidableEq

namespace Settings

def initial : Settings := ⟨none, none, false, []⟩

/-- Takes an option that stands alone. An option may be given once. -/
def setFlag (s : Settings) : Flag → Except Refusal Settings
  | .help => .error .help
  | .all => if s.all then .error .misuse else .ok { s with all := true }
  | .file | .var => .error .misuse

/-- Takes an option with its value. A file may be given once and must have a name; bindings may be
given as often as needed. -/
def setValue (s : Settings) (flag : Flag) (value : String) : Except Refusal Settings :=
  match flag with
  | .file =>
    if s.file.isSome ∨ value = "" then .error .misuse else .ok { s with file := some value }
  | .var =>
    match Binding.read value with
    | .ok b => .ok { s with bindings := s.bindings ++ [b] }
    | .error _ => .error .misuse
  | .help | .all => .error .misuse

/-- Takes the text, of which there may be one. -/
def setText (s : Settings) (text : String) : Except Refusal Settings :=
  if s.text.isSome then .error .misuse else .ok { s with text := some text }

/-- Takes the arguments behind a double hyphen. -/
def takeTexts (s : Settings) : List String → Except Refusal Settings
  | [] => .ok s
  | arg :: args =>
    match s.setText arg with
    | .error e => .error e
    | .ok s => s.takeTexts args

end Settings

/-- The shape of an argument. -/
inductive Argument where
  /-- A double hyphen. -/
  | endOfOptions
  /-- An option by its name, with the value behind an equals sign if there is one. -/
  | named (name : List Char) (value : Option (List Char))
  /-- Options by their letters. -/
  | letters (letters : List Char)
  /-- Anything else. A single hyphen is no option. -/
  | plain

def Argument.shape (arg : List Char) : Argument :=
  match arg with
  | ['-', '-'] => .endOfOptions
  | '-' :: '-' :: cs =>
    match cs.dropWhile (· != '=') with
    | [] => .named cs none
    | _ :: value => .named (cs.takeWhile (· != '=')) (some value)
  | '-' :: c :: cs => .letters (c :: cs)
  | _ => .plain

/-- What the letters of an argument leave to be done: nothing, or to find the value of an option. -/
inductive Pending where
  | settled (s : Settings)
  | awaiting (s : Settings) (flag : Flag)

/-- Takes options by their letters. The characters behind the letter of an option that takes a value
are the value; an equals sign between them is not part of it. -/
def takeLetters (command : Command) (s : Settings) : List Char → Except Refusal Pending
  | [] => .ok (.settled s)
  | c :: cs =>
    match Flag.ofLetter? command c with
    | none => .error .misuse
    | some flag =>
      if flag.takesValue then
        match cs with
        | [] => .ok (.awaiting s flag)
        | c :: cs =>
          match s.setValue flag (String.ofList (if c = '=' then cs else c :: cs)) with
          | .error e => .error e
          | .ok s => .ok (.settled s)
      else
        match s.setFlag flag with
        | .error e => .error e
        | .ok s => takeLetters command s cs

/-- Takes an option by its name. -/
def takeNamed (command : Command) (s : Settings) (name : List Char) (value : Option (List Char)) :
    Except Refusal Pending :=
  match Flag.ofName? command name with
  | none => .error .misuse
  | some flag =>
    match flag.takesValue, value with
    | true, none => .ok (.awaiting s flag)
    | true, some value =>
      match s.setValue flag (String.ofList value) with
      | .error e => .error e
      | .ok s => .ok (.settled s)
    | false, none =>
      match s.setFlag flag with
      | .error e => .error e
      | .ok s => .ok (.settled s)
    | false, some _ => .error .misuse

/-- Takes the arguments of a command. `awaited` is the option whose value the next argument must be.
-/
def takeArguments (command : Command) : List String → Settings → Option Flag →
    Except Refusal Settings
  | [], s, none => .ok s
  | [], _, some _ => .error .misuse
  | arg :: args, s, some flag =>
    match Argument.shape arg.toList with
    | .plain =>
      match s.setValue flag arg with
      | .error e => .error e
      | .ok s => takeArguments command args s none
    | _ => .error .misuse
  | arg :: args, s, none =>
    let pending :=
      match Argument.shape arg.toList with
      | .endOfOptions => none
      | .named name value => some (takeNamed command s name value)
      | .letters letters => some (takeLetters command s letters)
      | .plain => some ((s.setText arg).map .settled)
    match pending with
    | none => s.takeTexts args
    | some (.error e) => .error e
    | some (.ok (.settled s)) => takeArguments command args s none
    | some (.ok (.awaiting s flag)) => takeArguments command args s (some flag)

/-- The input the settings name. A text and a file exclude each other. -/
def Settings.input (s : Settings) : Except Refusal Input :=
  match s.text, s.file with
  | some _, some _ => .error .misuse
  | some text, none => .ok (.text text)
  | none, some path => .ok (.file path)
  | none, none => .ok .standard

def Command.request (command : Command) (args : List String) : Except Refusal Request :=
  match takeArguments command args .initial none with
  | .error e => .error e
  | .ok s =>
    match s.input with
    | .error e => .error e
    | .ok input =>
      match command with
      | .lex => .ok (.lex input s.all)
      | .dump => .ok (.dump input)
      | .eval => .ok (.eval input s.bindings)

/-- Help on a command may be asked for by its name. -/
def helpOn : List String → Refusal
  | [] => .help
  | [name] => if name = "help" ∨ (Command.ofName? name).isSome then .help else .misuse
  | _ => .misuse

def Request.ofArguments : List String → Except Refusal Request
  | [] => .error .misuse
  | name :: args =>
    if name = "help" then .error (helpOn args)
    else
      match Command.ofName? name with
      | some command => command.request args
      | none =>
        match Argument.shape name.toList with
        | .named cs none =>
          if cs = "help".toList then .error .help
          else if cs = "version".toList then .error .version
          else .error .misuse
        | .letters ('h' :: _) => .error .help
        | .letters ('V' :: _) => .error .version
        | _ => .error .misuse

end Reckon.CommandLine
