import TypedCss.Problem

/-!
Expressions, and the note that every node of a tree carries.
-/

namespace TypedCss

/-- The place of a node, and the problem found in it. -/
structure Note where
  span : Span
  problem? : Option Problem
  deriving DecidableEq, Repr

namespace Note

/-- The note of a node in which no problem has been found. -/
def clear (span : Span) : Note := ⟨span, none⟩

/-- A new problem takes the place of an earlier one. -/
def report (n : Note) (new? : Option Problem) : Note := { n with problem? := new?.or n.problem? }

@[simp] theorem report_none (n : Note) : n.report none = n := by
  simp [report]

def diagnostics (n : Note) : List Diagnostic := n.problem?.toList.map (⟨·, n.span⟩)

end Note

inductive Expr where
  | literal (value : Value) (note : Note)
  | reference (name : String) (note : Note)
  | operation (op : Operator) (lhs rhs : Expr) (note : Note)
  deriving DecidableEq, Repr

namespace Expr

def note : Expr → Note
  | literal _ n => n
  | reference _ n => n
  | operation _ _ _ n => n

def span (e : Expr) : Span := e.note.span

def value? : Expr → Option Value
  | literal v _ => some v
  | _ => none

/-- The text of the expression, each operation in parentheses. -/
def text : Expr → String
  | literal v _ => v.text
  | reference x _ => x
  | operation op l r _ => "(" ++ l.text ++ " " ++ op.symbol ++ " " ++ r.text ++ ")"

/-- The problems in the expression: a node's own first, then those of its operands. -/
def diagnostics : Expr → List Diagnostic
  | operation _ l r n => n.diagnostics ++ (l.diagnostics ++ r.diagnostics)
  | e => e.note.diagnostics

end Expr

end TypedCss
