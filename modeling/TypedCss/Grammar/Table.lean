import TypedCss.Token

/-!
Tables that say what each kind of token may begin and how tightly it binds.
-/

namespace TypedCss.Grammar

/-- How tightly an operator holds its operands. -/
inductive Power where
  | default
  | additive
  | multiplicative
  | primary
  deriving DecidableEq, Repr

def Power.rank : Power → Nat
  | default => 0
  | additive => 1
  | multiplicative => 2
  | primary => 3

/-- How an operand is read. -/
inductive OperandForm where
  /-- A single token. -/
  | primary
  /-- An expression in parentheses. -/
  | grouping
  deriving DecidableEq, Repr

/-- How a statement is read. -/
inductive StmtForm where
  | assignment
  /-- A declaration if a colon comes next, and a rule if not. -/
  | word
  | declaration
  | rule
  | ifClause
  deriving DecidableEq, Repr

structure Table where
  stmt? : Kind → Option StmtForm
  operand? : Kind → Option OperandForm
  power? : Kind → Option Power

namespace Table

def empty : Table := ⟨fun _ => none, fun _ => none, fun _ => none⟩

def withStmt (kind : Kind) (form : StmtForm) (t : Table) : Table :=
  { t with stmt? := fun k => if k = kind then some form else t.stmt? k }

def withOperand (kind : Kind) (form : OperandForm) (t : Table) : Table :=
  { t with operand? := fun k => if k = kind then some form else t.operand? k }

def withOperator (kind : Kind) (power : Power) (t : Table) : Table :=
  { t with power? := fun k => if k = kind then some power else t.power? k }

@[simp] theorem power?_withOperator (t : Table) (kind k : Kind) (power : Power) :
    (t.withOperator kind power).power? k = if k = kind then some power else t.power? k := rfl

/-- The table of the language. A color may also be an id that happens to be written with six digits. -/
def standard : Table where
  stmt?
    | .name => some .assignment
    | .ifWord => some .ifClause
    | .word => some .word
    | .className | .idName | .color => some .rule
    | _ => none
  operand?
    | .number _ | .color | .flag _ | .name => some .primary
    | .openParen => some .grouping
    | _ => none
  power?
    | .operator .add | .operator .subtract => some .additive
    | .operator .multiply => some .multiplicative
    | _ => none

end Table

end TypedCss.Grammar
