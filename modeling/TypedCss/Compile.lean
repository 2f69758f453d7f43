import TypedCss.Css
import TypedCss.Folding
import TypedCss.Grammar.Statement
import TypedCss.Report
import TypedCss.Token.Source
import TypedCss.Typing

/-!
From a source text to plain CSS.
-/

namespace TypedCss

/-- The outcome of reading some tokens, and the stream where it stopped. -/
def Grammar.Parse.outcome {α : Type} (p : Grammar.Parse α) (s : Grammar.Stream) :
    Except Fault α × Grammar.Stream :=
  match p.run s with
  | .ok a s => (.ok a, s)
  | .error fault s => (.error fault, s)

def Stylesheet.ofTokens (file : String) (ts : List Token) : Except Fault Stylesheet :=
  ((Grammar.stylesheet .standard file).outcome (.ofTokens file ts)).1

def Stylesheet.ofSource (file source : String) : Except Fault Stylesheet := do
  Stylesheet.ofTokens file (← Token.ofSource file source)

/-- Reads an expression at the front of a source; what comes after it is left aside. -/
def Expr.ofSource (file source : String) : Except Fault Expr := do
  ((Grammar.expression .standard .default).outcome (.ofTokens file (← Token.ofSource file source))).1

/-- The checked stylesheet and all problems in it. -/
def check (file source : String) : Except Fault (Stylesheet × List Diagnostic) := do
  let sheet := (← Stylesheet.ofSource file source).check
  return (sheet, sheet.diagnostics)

/-- Why there is no CSS. -/
inductive Failure where
  | unreadable (fault : Fault)
  | illTyped (diagnostics : List Diagnostic)
  | unfoldable (fault : Fault)
  deriving DecidableEq, Repr

def Failure.message : Failure → String
  | unreadable fault => fault.message
  | illTyped ds => ds.length.repr ++ " semantic error(s) found"
  | unfoldable fault => fault.message

def Failure.report (source : String) : Failure → String
  | unreadable fault => fault.report source
  | illTyped ds => Diagnostic.reports ds source
  | unfoldable fault => fault.report source

/-- The CSS of a stylesheet without problems. -/
def Stylesheet.compile (sheet : Stylesheet) : Except Failure String :=
  let folded := sheet.fold
  match folded.fault? with
  | some fault => .error (.unfoldable fault)
  | none => folded.tree.css.mapError .unfoldable

def compile (file source : String) : Except Failure String :=
  match check file source with
  | .error fault => .error (.unreadable fault)
  | .ok (sheet, []) => sheet.compile
  | .ok (_, ds) => .error (.illTyped ds)

end TypedCss
