import TypedCss.Scopes
import TypedCss.Stylesheet
import TypedCss.Text.Search

/-!
Checking a stylesheet: every node gets its problem attached, and nothing else changes.
-/

namespace TypedCss

/-- The type of an operation. An operand without a type has been reported already, so an operation on it has
no type and no problem of its own. -/
def Operator.resultType : Operator → ValueType → ValueType → Except Problem ValueType
  | _, .undefined, _ => .ok .undefined
  | _, _, .undefined => .ok .undefined
  | .multiply, l, r =>
    if l = .number .scalar ∧ r.isNumeric then .ok r
    else if r = .number .scalar ∧ l.isNumeric then .ok l
    else .error (.invalidProduct l r)
  | op, l, r => if l = r ∧ l.isNumeric then .ok l else .error (.invalidOperands op.symbol l r)

/-- The types of the variables in sight. -/
abbrev Types := Scopes ValueType

/-- The problem that an outcome reports. -/
def problemOf? {α : Type} : Except Problem α → Option Problem
  | .ok _ => none
  | .error p => some p

namespace Expr

def type (types : Types) : Expr → ValueType
  | literal v _ => v.type
  | reference x _ => (types.resolve? x).getD .undefined
  | operation op l r _ =>
    match op.resultType (l.type types) (r.type types) with
    | .ok t => t
    | .error _ => .undefined

/-- Reports undefined variables, and operands that do not fit together. -/
def check (types : Types) : Expr → Expr
  | literal v n => literal v n
  | reference x n =>
    reference x (n.report (if (types.resolve? x).isNone then some (.undefinedVariable x) else none))
  | operation op l r n =>
    operation op (l.check types) (r.check types)
      (n.report (problemOf? (op.resultType (l.type types) (r.type types))))

end Expr

/-- Whether the property is one that takes a color. -/
def wantsColor (property : String) : Bool := Text.mentions "color".toList property.toList

/-- Whether the property is a length along one axis. -/
def wantsDimension (property : String) : Bool :=
  Text.mentions "width".toList property.toList || Text.mentions "height".toList property.toList

/-- Whether the expression is a color, or names one in any open scope. -/
def Expr.isColor (types : Types) : Expr → Bool
  | literal v _ => v.type == .color
  | reference x _ => (types.find? x (· == .color)).isSome
  | operation .. => false

/-- The type that makes the expression unfit as a length, if it names a variable of such a type. -/
def Expr.unfitDimension? (types : Types) : Expr → Option ValueType
  | reference x _ => types.find? x fun t => t == .number .scalar || t == .color || t == .flag
  | _ => none

def declarationProblem? (types : Types) (property : String) (value : Expr) : Option Problem :=
  if wantsColor property ∧ ¬ value.isColor types then some (.invalidColor property)
  else if wantsDimension property then (value.unfitDimension? types).map (.invalidDimension property)
  else none

/-- Whether the expression is a truth value, or names a global one. -/
def Expr.isCondition (types : Types) : Expr → Bool
  | literal v _ => v.type == .flag
  | reference x _ => types.getGlobal? x == some .flag
  | operation .. => false

def conditionProblem? (types : Types) (condition : Expr) : Option Problem :=
  if condition.isCondition types then none else some (.invalidCondition (condition.type types))

namespace Stmt

mutual

/-- Checks a statement, and gives the types of the variables in sight after it. -/
def check (types : Types) : Stmt → Stmt × Types
  | assignment x e n => (assignment x (e.check types) n, types.declare x (e.type types))
  | declaration p e n => (declaration p (e.check types) (n.report (declarationProblem? types p e)), types)
  | rule s body n =>
    let (body, inner) := checkAll types.enter body
    (rule s body n, inner.leave)
  | ifClause c body n =>
    let (body, after) := checkAll types body
    (ifClause (c.check types) body (n.report (conditionProblem? types c)), after)

def checkAll (types : Types) : List Stmt → List Stmt × Types
  | [] => ([], types)
  | s :: ss =>
    let (s, next) := s.check types
    let (ss, after) := checkAll next ss
    (s :: ss, after)

end

variable (types : Types)

theorem check_rule (s : Selector) (body : List Stmt) (n : Note) :
    (rule s body n).check types =
      (rule s (checkAll types.enter body).1 n, (checkAll types.enter body).2.leave) := rfl

theorem check_ifClause (c : Expr) (body : List Stmt) (n : Note) :
    (ifClause c body n).check types =
      (ifClause (c.check types) (checkAll types body).1 (n.report (conditionProblem? types c)),
        (checkAll types body).2) := rfl

theorem checkAll_cons (s : Stmt) (ss : List Stmt) :
    checkAll types (s :: ss) =
      ((s.check types).1 :: (checkAll (s.check types).2 ss).1, (checkAll (s.check types).2 ss).2) := rfl

end Stmt

/-- Checks a stylesheet where the given variables are in sight. -/
def Stylesheet.checkIn (types : Types) (sheet : Stylesheet) : Stylesheet × Types :=
  let (body, after) := Stmt.checkAll types sheet.body
  ({ sheet with body }, after)

def Stylesheet.check (sheet : Stylesheet) : Stylesheet := (sheet.checkIn .empty).1

end TypedCss
