import TypedCss.Fault
import TypedCss.Scopes
import TypedCss.Stylesheet

/-!
Folding a stylesheet: every expression is replaced by its value.
-/

namespace TypedCss

/-- The values of the variables in sight. -/
abbrev Values := Scopes Value

namespace Expr

/-- The value of an expression. The left operand is evaluated first. -/
def eval (values : Values) : Expr → Except Fault Value
  | literal v _ => .ok v
  | reference x n =>
    match values.resolve? x with
    | some v => .ok v
    | none => .error ⟨.unassigned x, n.span.start⟩
  | operation op l r n => do
    let a ← l.eval values
    let b ← r.eval values
    match op.apply a b with
    | some v => .ok v
    | none => .error ⟨.unsupported op.symbol a.text b.text, n.span.start⟩

/-- The literal that takes the place of an expression. A literal stays as it is. -/
def fold (values : Values) : Expr → Except Fault Expr
  | literal v n => .ok (literal v n)
  | e => do return literal (← e.eval values) (.clear e.span)

theorem eval_operation_eq_ok {values : Values} {op : Operator} {l r : Expr} {n : Note} {v : Value} :
    (operation op l r n).eval values = .ok v ↔
      ∃ a b, l.eval values = .ok a ∧ r.eval values = .ok b ∧ op.apply a b = some v := by
  rw [eval]
  cases l.eval values with
  | error fault => simp [bind, Except.bind]
  | ok a =>
    cases r.eval values with
    | error fault => simp [bind, Except.bind]
    | ok b => cases hv : op.apply a b <;> simp [bind, Except.bind, hv]

/-- An operation has no value if its left operand has none, or else its right one, or else because the two
do not fit together. -/
theorem eval_operation_eq_error {values : Values} {op : Operator} {l r : Expr} {n : Note} {fault : Fault} :
    (operation op l r n).eval values = .error fault ↔
      l.eval values = .error fault ∨
      (∃ a, l.eval values = .ok a ∧ r.eval values = .error fault) ∨
      ∃ a b, l.eval values = .ok a ∧ r.eval values = .ok b ∧ op.apply a b = none ∧
        fault = ⟨.unsupported op.symbol a.text b.text, n.span.start⟩ := by
  rw [eval]
  cases l.eval values with
  | error fault => simp [bind, Except.bind]
  | ok a =>
    cases r.eval values with
    | error fault => simp [bind, Except.bind]
    | ok b => cases hv : op.apply a b <;> simp [bind, Except.bind, hv, eq_comm]

theorem eval_reference_eq_ok {values : Values} {x : String} {n : Note} {v : Value} :
    (reference x n).eval values = .ok v ↔ values.resolve? x = some v := by
  rw [eval]
  cases values.resolve? x <;> simp

theorem eval_reference_eq_error {values : Values} {x : String} {n : Note} {fault : Fault} :
    (reference x n).eval values = .error fault ↔
      values.resolve? x = none ∧ fault = ⟨.unassigned x, n.span.start⟩ := by
  rw [eval]
  cases values.resolve? x <;> simp [eq_comm]

/-- What folding leaves in the place of an expression with the given value. -/
def foldedTo (v : Value) : Expr → Expr
  | literal w n => literal w n
  | e => literal v (.clear e.span)

theorem fold_eq_map (values : Values) (e : Expr) : e.fold values = (e.eval values).map e.foldedTo := by
  cases e with
  | literal v n => rfl
  | reference x n => cases h : (reference x n).eval values <;> simp [fold, foldedTo, h] <;> rfl
  | operation op l r n => cases h : (operation op l r n).eval values <;> simp [fold, foldedTo, h] <;> rfl

end Expr

/-- A tree as far as it has been folded, the variables in sight after it, and the fault that ended the
folding. -/
structure Folded (α : Type) where
  tree : α
  values : Values
  fault? : Option Fault
  deriving Repr

namespace Stmt

mutual

/-- Folds a statement. The body of an if clause is folded whatever its condition. -/
def fold (values : Values) : Stmt → Folded Stmt
  | assignment x e n =>
    match e.eval values with
    | .ok v => ⟨assignment x (.literal v (.clear e.span)) n, values.declare x v, none⟩
    | .error fault => ⟨assignment x e n, values, some fault⟩
  | declaration p e n =>
    match e.fold values with
    | .ok v => ⟨declaration p v n, values, none⟩
    | .error fault => ⟨declaration p e n, values, some fault⟩
  | rule s body n =>
    let r := foldAll values.enter body
    ⟨rule s r.tree n, r.values.leave, r.fault?⟩
  | ifClause c body n =>
    match c.fold values with
    | .ok v =>
      let r := foldAll values body
      ⟨ifClause v r.tree n, r.values, r.fault?⟩
    | .error fault => ⟨ifClause c body n, values, some fault⟩

/-- Folds statements one after the other, up to the first fault. -/
def foldAll (values : Values) : List Stmt → Folded (List Stmt)
  | [] => ⟨[], values, none⟩
  | s :: ss =>
    let r := s.fold values
    match r.fault? with
    | some fault => ⟨r.tree :: ss, r.values, some fault⟩
    | none =>
      let rs := foldAll r.values ss
      ⟨r.tree :: rs.tree, rs.values, rs.fault?⟩

end

variable {values : Values} {s : Stmt} {ss : List Stmt}

theorem foldAll_cons_of_fault {fault : Fault} (h : (s.fold values).fault? = some fault) :
    foldAll values (s :: ss) = ⟨(s.fold values).tree :: ss, (s.fold values).values, some fault⟩ := by
  rw [foldAll, h]

theorem foldAll_cons_of_no_fault (h : (s.fold values).fault? = none) :
    foldAll values (s :: ss) =
      ⟨(s.fold values).tree :: (foldAll (s.fold values).values ss).tree,
        (foldAll (s.fold values).values ss).values, (foldAll (s.fold values).values ss).fault?⟩ := by
  rw [foldAll, h]

end Stmt

/-- Folds a stylesheet where the given variables are in sight. -/
def Stylesheet.foldIn (values : Values) (sheet : Stylesheet) : Folded Stylesheet :=
  let r := Stmt.foldAll values sheet.body
  ⟨{ sheet with body := r.tree }, r.values, r.fault?⟩

def Stylesheet.fold (sheet : Stylesheet) : Folded Stylesheet := sheet.foldIn .empty

end TypedCss
