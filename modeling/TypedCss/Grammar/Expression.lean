import TypedCss.Expr
import TypedCss.Grammar.Parse
import TypedCss.Grammar.Table
import TypedCss.Text.Search

/-!
Reading expressions: an operand, and then as many operators as bind tightly enough, each with the operand
to its right.
-/

namespace TypedCss.Grammar

open Parse

/-- The number that a token writes, without the suffix of its measure. -/
def number? (m : Measure) (text : String) : Option Int32 :=
  Text.readWord? (Text.dropEndCopies m.suffix.toList text.toList)

/-- The operand that a single token makes. -/
def operandOf (t : Token) : Except Fault Expr :=
  match t.kind with
  | .number m =>
    match number? m t.text with
    | some n => .ok (.literal (.number m n) (.clear t.span))
    | none => .error ⟨.badNumber t.text, t.span.start⟩
  | .color => .ok (.literal (.color t.text) (.clear t.span))
  | .flag b => .ok (.literal (.flag b) (.clear t.span))
  | .name => .ok (.reference t.text (.clear t.span))
  | _ => .error (unexpectedToken t)

/-- Reads an operand of one token. -/
def primary : Parse Expr := do
  match operandOf (← current) with
  | .ok e => do
    let _ ← advance
    return e
  | .error fault => throw fault

/-- Reads the current token, an expression, and a closing parenthesis. The parentheses leave no node. -/
def grouping (inner : Parse Expr) : Parse Expr := do
  let _ ← advance
  let e ← inner
  let _ ← expect .closeParen
  return e

/-- Reads an operand in the form that the table has for the current token. -/
def operand (table : Table) (inner : Parse Expr) : Parse Expr := do
  match table.operand? (← currentKind) with
  | none => failWith "expected a literal, variable or `(`"
  | some .primary => primary
  | some .grouping => grouping inner

/-- Reads an operator and what stands to its right. The operation spans both operands. -/
def binary (left : Expr) (right : Parse Expr) : Parse Expr := do
  let t ← advance
  match t.kind with
  | .operator op => do
    let r ← right
    return .operation op left r (.clear ⟨left.span.start, r.span.stop⟩)
  | _ => failAt t

mutual

/-- Reads an expression whose operators bind more tightly than `power`, in at most `n` nested rounds. -/
def expressionWithin (table : Table) : Nat → Power → Parse Expr
  | 0, _ => runaway
  | n + 1, power => do
    let left ← operand table (expressionWithin table n .default)
    extendWithin table n power left

/-- Takes operators for as long as they bind more tightly than `power`. -/
def extendWithin (table : Table) : Nat → Power → Expr → Parse Expr
  | 0, _, _ => runaway
  | n + 1, power, left => do
    match table.power? (← currentKind) with
    | none => return left
    | some next =>
      if next.rank ≤ power.rank then return left
      else do
        let e ← binary left (expressionWithin table n next)
        extendWithin table n power e

end

def expression (table : Table) (power : Power) : Parse Expr := do
  expressionWithin table (← get).budget power

end TypedCss.Grammar
