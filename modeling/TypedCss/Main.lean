import TypedCss.CommandLine.Run

/-!
The command line on the files of this machine.
-/

namespace TypedCss.CommandLine

/-- What an error of the system says about a file. Some calls report the negated number of the error. -/
def accessErrorOf (e : IO.Error) : AccessError :=
  match e with
  | .noFileOrDirectory .. => .notFound
  | .inappropriateType _ code _ => if code = 20 ∨ code = 0 - 20 then .notADirectory else .isADirectory
  | .permissionDenied .. => .other "Permission denied (os error 13)"
  | _ => .other (toString e)

def attempt {α : Type} (act : IO α) : IO (Except AccessError α) := do
  try return .ok (← act)
  catch e => return .error (accessErrorOf e)

def Host.machine : Host IO where
  read path := return (← attempt (IO.FS.readBinFile path)).bind FileSystem.decode
  write path text := attempt (IO.FS.writeFile path text)
  print text := do (← IO.getStdout).putStr text
  complain text := do (← IO.getStderr).putStr text

end TypedCss.CommandLine

def main (args : List String) : IO UInt32 :=
  TypedCss.CommandLine.run TypedCss.CommandLine.Host.machine args
