import TypedCss.Expr

/-!
Stylesheets: assignments and style rules, which hold declarations, if clauses and rules in turn.
-/

namespace TypedCss

inductive Selector where
  | tag (name : String)
  | className (name : String)
  | id (name : String)
  deriving DecidableEq, Repr

def Selector.text : Selector → String
  | tag name => name
  | className name => "." ++ name
  | id name => "#" ++ name

/-- One of `Name := value;`, `property: value;`, `selector { body }`, `if [condition] { body }`. A rule opens a
scope of its own; an if clause shares the scope around it. -/
inductive Stmt where
  | assignment (name : String) (value : Expr) (note : Note)
  | declaration (property : String) (value : Expr) (note : Note)
  | rule (selector : Selector) (body : List Stmt) (note : Note)
  | ifClause (condition : Expr) (body : List Stmt) (note : Note)
  deriving Repr

namespace Stmt

def note : Stmt → Note
  | assignment _ _ n => n
  | declaration _ _ n => n
  | rule _ _ n => n
  | ifClause _ _ n => n

mutual

/-- The problems in the statement: its own first, then those inside it, in the order of the source. -/
def diagnostics : Stmt → List Diagnostic
  | assignment _ e n => n.diagnostics ++ e.diagnostics
  | declaration _ e n => n.diagnostics ++ e.diagnostics
  | rule _ body n => n.diagnostics ++ allDiagnostics body
  | ifClause c body n => n.diagnostics ++ (c.diagnostics ++ allDiagnostics body)

def allDiagnostics : List Stmt → List Diagnostic
  | [] => []
  | s :: ss => s.diagnostics ++ allDiagnostics ss

end

end Stmt

structure Stylesheet where
  body : List Stmt
  span : Span
  deriving Repr

def Stylesheet.diagnostics (sheet : Stylesheet) : List Diagnostic := Stmt.allDiagnostics sheet.body

def Stylesheet.hasProblems (sheet : Stylesheet) : Bool := !sheet.diagnostics.isEmpty

end TypedCss
