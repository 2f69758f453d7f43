import TypedCss.CommandLine.Arguments
import TypedCss.CommandLine.FileSystem
import TypedCss.Compile

/-!
Running the command line, on any host that reads and writes files and prints.
-/

namespace TypedCss.CommandLine

/-- What a run needs of the world around it. -/
structure Host (m : Type → Type) where
  read : String → m (Except AccessError String)
  write : String → String → m (Except AccessError Unit)
  print : String → m Unit
  complain : String → m Unit

def accessMessage (path : String) (e : AccessError) : String :=
  "failed to access " ++ path ++ ": " ++ e.message

/-- The name under which reports know a file. -/
def reportName (path : String) : String := (FileSystem.lastName? path).getD path

/-- What is printed or written for a source that has no problems, and what is complained of otherwise. -/
def Options.answer (o : Options) (path source : String) : Except String String :=
  if o.check then
    match TypedCss.check (reportName path) source with
    | .ok (_, []) => .ok (path ++ ": ok\n")
    | .ok (_, ds) => .error (Diagnostic.reports ds source)
    | .error fault => .error (fault.report source)
  else (compile (reportName path) source).mapError (Failure.report source)

section

variable {m : Type → Type} [Monad m]

/-- Works on one input, and gives what there is to complain of. -/
def processInput (host : Host m) (o : Options) (path : String) : m (Option String) := do
  match ← host.read path with
  | .error e => return some (accessMessage path e)
  | .ok source =>
    match o.answer path source with
    | .error message => return some message
    | .ok text =>
      match if o.check then none else o.output? with
      | none => do
        host.print text
        return none
      | some out =>
        match ← host.write out text with
        | .ok _ => return none
        | .error e => return some (accessMessage out e)

/-- Works on all inputs in turn, whatever becomes of each, and says whether all went well. -/
def processInputs (host : Host m) (o : Options) : List String → m Bool
  | [] => return true
  | path :: paths => do
    match ← processInput host o path with
    | none => processInputs host o paths
    | some message => do
      host.complain (message ++ "\n")
      let _ ← processInputs host o paths
      return false

def versionText : String := "icss 0.1.0\n"

def usageText : String :=
  "Checks and compiles ICSS stylesheets into plain CSS\n\n" ++
  "Usage: icss [OPTIONS] <INPUT>...\n\n" ++
  "  -o, --output <FILE>  Write the generated css to FILE instead of stdout\n" ++
  "      --check          Only report semantic errors, do not generate css\n" ++
  "  -v, --verbose        Increase log verbosity\n" ++
  "  -h, --help           Print help\n" ++
  "  -V, --version        Print version\n"

def runOptions (host : Host m) (o : Options) : m UInt32 := do
  if o.output?.isSome && 1 < o.inputs.length then
    host.complain "--output can only be used with a single input file\n"
    return 1
  else if ← processInputs host o o.inputs then return 0
  else return 1

/-- Does what the arguments ask for, and gives the exit code. -/
def run (host : Host m) (args : List String) : m UInt32 := do
  match Request.ofArguments args with
  | .run o => runOptions host o
  | .version => do
    host.print versionText
    return 0
  | .help => do
    host.print usageText
    return 0
  | .misuse => do
    host.complain usageText
    return 2

end

/-- A file system, and what has been printed and complained of so far. -/
structure World where
  files : FileSystem
  printed : String
  complaints : String

/-- The host whose world is a value. -/
def Host.model : Host (StateM World) where
  read path := return (← get).files.read path
  write path text := do
    let w ← get
    match w.files.write path text with
    | .ok files => do
      set { w with files }
      return .ok ()
    | .error e => return .error e
  print text := modify fun w => { w with printed := w.printed ++ text }
  complain text := modify fun w => { w with complaints := w.complaints ++ text }

/-- The exit code of a run that begins with the given files, and the world it leaves. -/
def runOn (files : FileSystem) (args : List String) : UInt32 × World :=
  (run .model args).run ⟨files, "", ""⟩

/-- The same for a run whose arguments have been read. -/
def Options.runOn (o : Options) (files : FileSystem) : UInt32 × World :=
  (runOptions .model o).run ⟨files, "", ""⟩

end TypedCss.CommandLine
