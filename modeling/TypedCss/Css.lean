import TypedCss.Fault
import TypedCss.Stylesheet

/-!
Plain CSS: one block for each rule, nested rules after the rule around them.
-/

namespace TypedCss

namespace Css

/-- The declarations of one rule, with the selectors of the rules around it and its own, outermost
first. -/
structure Block where
  path : List Selector
  lines : List (String × Value)
  deriving DecidableEq, Repr

def Block.selectorText (b : Block) : String := " ".intercalate (b.path.map Selector.text)

def lineText (line : String × Value) : String := "  " ++ line.1 ++ ": " ++ line.2.text ++ ";\n"

def Block.text (b : Block) : String :=
  b.selectorText ++ " \x7b\n" ++ String.join (b.lines.map lineText) ++ "\x7d\n"

/-- The blocks with a blank line between them. -/
def text (blocks : List Block) : String := "\n".intercalate (blocks.map Block.text)

end Css

/-- The value of a folded expression. -/
def Expr.finalValue (e : Expr) : Except Fault Value :=
  match e.value? with
  | some v => .ok v
  | none => .error ⟨.unfolded, e.span.start⟩

/-- Whether the expression is the literal `TRUE`. -/
def Expr.isTrue (e : Expr) : Bool := e.value? == some (.flag true)

namespace Stmt

mutual

/-- The declarations that a statement gives to the rule around it: its own, or those of an if clause that
holds. A condition that is not folded is a fault. -/
def declarations : Stmt → Except Fault (List (String × Expr))
  | assignment .. => .ok []
  | declaration p e _ => .ok [(p, e)]
  | rule .. => .ok []
  | ifClause c body _ => do
    let v ← c.finalValue
    if v = .flag true then allDeclarations body else return []

def allDeclarations : List Stmt → Except Fault (List (String × Expr))
  | [] => .ok []
  | s :: ss => do return (← s.declarations) ++ (← allDeclarations ss)

end

/-- The lines of the block that a rule with this body makes. -/
def lines (body : List Stmt) : Except Fault (List (String × Value)) := do
  (← allDeclarations body).mapM fun d => return (d.1, ← d.2.finalValue)

mutual

/-- The blocks of the rules in a statement, when the rules around it have the given selectors. -/
def blocks (outer : List Selector) : Stmt → Except Fault (List Css.Block)
  | assignment .. => .ok []
  | declaration .. => .ok []
  | rule s body _ => do
    let lines ← lines body
    let nested ← allBlocks (outer ++ [s]) body
    return ⟨outer ++ [s], lines⟩ :: nested
  | ifClause c body _ => if c.isTrue then allBlocks outer body else .ok []

def allBlocks (outer : List Selector) : List Stmt → Except Fault (List Css.Block)
  | [] => .ok []
  | s :: ss => do return (← s.blocks outer) ++ (← allBlocks outer ss)

end

def isRule : Stmt → Bool
  | rule .. => true
  | _ => false

end Stmt

/-- The blocks of the rules at the top level. -/
def Stylesheet.blocks (sheet : Stylesheet) : Except Fault (List Css.Block) :=
  Stmt.allBlocks [] (sheet.body.filter Stmt.isRule)

def Stylesheet.css (sheet : Stylesheet) : Except Fault String := return Css.text (← sheet.blocks)

end TypedCss
