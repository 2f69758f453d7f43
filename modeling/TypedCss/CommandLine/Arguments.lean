/-!
The arguments of the command line.
-/

namespace TypedCss.CommandLine

/-- What is to be done with which files. -/
structure Options where
  inputs : List String
  output? : Option String
  /-- Only report problems, and write no CSS. -/
  check : Bool
  deriving DecidableEq, Repr

/-- What the arguments ask for. -/
inductive Request where
  | run (options : Options)
  | version
  | help
  /-- The arguments make no sense. -/
  | misuse
  deriving DecidableEq, Repr

namespace Options

def none : Options := ⟨[], .none, false⟩

/-- A path has at least one character. -/
def addInput? (path : String) (o : Options) : Option Options :=
  if path.isEmpty then .none else some { o with inputs := o.inputs ++ [path] }

/-- The output is named at most once. -/
def setOutput? (path : String) (o : Options) : Option Options :=
  if path.isEmpty || o.output?.isSome then .none else some { o with output? := some path }

/-- The flag is given at most once. -/
def setCheck? (o : Options) : Option Options := if o.check then .none else some { o with check := true }

end Options

/-- Whether the argument is a flag and not a value. A lone dash is a value. -/
def isFlag (arg : List Char) : Bool :=
  match arg with
  | '-' :: _ :: _ => true
  | _ => false

/-- What is still open after some arguments. -/
inductive Pending where
  | nothing (o : Options)
  /-- The next argument names the output. -/
  | output (o : Options)
  | settled (r : Request)
  deriving DecidableEq, Repr

/-- Goes on with options that are in order; anything else is a misuse. -/
def Pending.ofOptions : Option Options → Pending
  | some o => .nothing o
  | none => .settled .misuse

/-- Reads the letters of short flags in one argument. What follows an `o` is the name of the output. -/
def readLetters (o : Options) : List Char → Pending
  | [] => .nothing o
  | 'v' :: letters => readLetters o letters
  | 'V' :: _ => .settled .version
  | 'h' :: _ => .settled .help
  | ['o'] => .output o
  | 'o' :: '=' :: path => .ofOptions (o.setOutput? (String.ofList path))
  | 'o' :: path => .ofOptions (o.setOutput? (String.ofList path))
  | _ => .settled .misuse

/-- Reads a long flag, given without its dashes. -/
def readLong (o : Options) (flag : List Char) : Pending :=
  let name := String.ofList (flag.takeWhile (· != '='))
  match name, flag.dropWhile (· != '=') with
  | "output", [] => .output o
  | "output", _ :: path => .ofOptions (o.setOutput? (String.ofList path))
  | "check", [] => .ofOptions o.setCheck?
  | "verbose", [] => .nothing o
  | "version", [] => .settled .version
  | "help", [] => .settled .help
  | _, _ => .settled .misuse

/-- Reads one argument before the end of the options. -/
def readArgument (o : Options) (arg : String) : Pending :=
  match arg.toList with
  | '-' :: '-' :: flag => readLong o flag
  | '-' :: c :: letters => readLetters o (c :: letters)
  | _ => .ofOptions (o.addInput? arg)

/-- A run needs at least one input. -/
def finish (o : Options) : Request := if o.inputs.isEmpty then .misuse else .run o

/-- Reads inputs after the end of the options. -/
def readInputs (o : Options) : List String → Request
  | [] => finish o
  | arg :: args =>
    match o.addInput? arg with
    | some o => readInputs o args
    | none => .misuse

/-- Reads arguments one after the other; the first that settles the request ends the reading. -/
def readArguments : Pending → List String → Request
  | .settled r, _ => r
  | .nothing o, [] => finish o
  | .output _, [] => .misuse
  | .nothing o, arg :: args =>
    if arg = "--" then readInputs o args else readArguments (readArgument o arg) args
  | .output o, arg :: args =>
    if isFlag arg.toList then .misuse else readArguments (.ofOptions (o.setOutput? arg)) args

def Request.ofArguments (args : List String) : Request := readArguments (.nothing .none) args

end TypedCss.CommandLine
