import TypedCss.Grammar.Expression
import TypedCss.Stylesheet

/-!
Reading statements and whole stylesheets.
-/

namespace TypedCss.Grammar

open Parse

/-- The text without the mark it begins with. -/
def withoutSigil (text : String) : String := String.ofList text.toList.tail

/-- The selector that a token makes. -/
def selectorOf? (t : Token) : Option Selector :=
  match t.kind with
  | .word => some (.tag t.text)
  | .className => some (.className (withoutSigil t.text))
  | .idName | .color => some (.id (withoutSigil t.text))
  | _ => none

/-- Reads `Name := value;`. -/
def assignment (value : Parse Expr) : Parse Stmt := do
  let name ← advance
  let _ ← expectWith .assign "expected `:=` after variable name"
  let e ← value
  let stop ← expect .semicolon
  return .assignment name.text e (.clear ⟨name.span.start, stop.span.stop⟩)

/-- Reads `property: value;`. -/
def declaration (value : Parse Expr) : Parse Stmt := do
  let property ← advance
  let _ ← expect .colon
  let e ← value
  let stop ← expect .semicolon
  return .declaration property.text e (.clear ⟨property.span.start, stop.span.stop⟩)

/-- Reads a selector and a body. The rule spans up to the token that comes after it. -/
def rule (body : Parse (List Stmt)) : Parse Stmt := do
  let t ← advance
  match selectorOf? t with
  | some selector => do
    let ss ← body
    return .rule selector ss (.clear ⟨t.span.start, ← position⟩)
  | none => failAt t

/-- Reads `if [condition]` and a body. The clause spans up to the token that comes after it. -/
def ifClause (condition : Parse Expr) (body : Parse (List Stmt)) : Parse Stmt := do
  let t ← advance
  let _ ← expectWith .openBracket "expected `[` before if condition"
  let c ← condition
  let _ ← expect .closeBracket
  let ss ← body
  return .ifClause c ss (.clear ⟨t.span.start, ← position⟩)

/-- Reads a statement that begins with a lower-case word. -/
def wordStatement (value : Parse Expr) (body : Parse (List Stmt)) : Parse Stmt := do
  if (← get).nextKind = .colon then declaration value else rule body

/-- Reads a statement of the given form, its expressions by `value` and its body by `body`. -/
def statementOf (value : Parse Expr) (body : Parse (List Stmt)) : StmtForm → Parse Stmt
  | .assignment => assignment value
  | .word => wordStatement value body
  | .declaration => declaration value
  | .rule => rule body
  | .ifClause => ifClause value body

mutual

/-- Reads a statement in the form that the table has for the current token, in at most `n` nested
rounds. -/
def statementWithin (table : Table) : Nat → Parse Stmt
  | 0 => runaway
  | n + 1 => do
    match table.stmt? (← currentKind) with
    | none => failWith "expected a variable assignment, declaration, if clause or style rule"
    | some form => statementOf (expressionWithin table n .default) (bodyWithin table n) form

/-- Reads statements in curly brackets. -/
def bodyWithin (table : Table) : Nat → Parse (List Stmt)
  | 0 => runaway
  | n + 1 => do
    let _ ← expect .openCurly
    let ss ← statementsWithin table n
    let _ ← expect .closeCurly
    return ss

/-- Reads statements up to a closing curly bracket. -/
def statementsWithin (table : Table) : Nat → Parse (List Stmt)
  | 0 => runaway
  | n + 1 => do
    match ← currentKind with
    | .closeCurly => return []
    | .endOfInput => failWith "expected `\x7d` before end of file"
    | _ => do
      let s ← statementWithin table n
      let ss ← statementsWithin table n
      return s :: ss

end

def statement (table : Table) : Parse Stmt := do statementWithin table (← get).budget

def body (table : Table) : Parse (List Stmt) := do bodyWithin table (← get).budget

/-- Reads one statement of the top level, where only assignments and rules may stand. -/
def topStatement (statement : Parse Stmt) : Parse Stmt := do
  let t ← current
  match ← statement with
  | s@(.assignment ..) | s@(.rule ..) => return s
  | _ => throw ⟨.misplaced t.text "declarations and if clauses must be inside a style rule", t.span.start⟩

/-- Reads statements of the top level up to the end of the input. -/
def topStatementsWithin (table : Table) : Nat → Parse (List Stmt)
  | 0 => runaway
  | n + 1 => do
    if (← currentKind) = .endOfInput then return []
    else do
      let s ← topStatement (statementWithin table n)
      let ss ← topStatementsWithin table n
      return s :: ss

def stylesheet (table : Table) (file : String) : Parse Stylesheet := do
  let body ← topStatementsWithin table (← get).budget
  return ⟨body, ⟨0, file⟩, ← position⟩

end TypedCss.Grammar
