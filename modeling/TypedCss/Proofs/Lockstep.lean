import TypedCss.Proofs.Walk

/-!
# Checking and folding in lockstep

As long as folding meets no fault, the types that the checker keeps are the types of the values that the
folder keeps: `types = values.map Value.type`. An expression then has the type of its value, and an
expression without a value has no type.
-/

namespace TypedCss

namespace Operator

/-- The problem that the checker reports on operands which do not fit together. -/
def misfit (op : Operator) (lhs rhs : ValueType) : Problem :=
  match op with
  | .multiply => .invalidProduct lhs rhs
  | _ => .invalidOperands op.symbol lhs rhs

theorem resultType_type (op : Operator) (a b : Value) :
    op.resultType a.type b.type =
      match op.apply a b with
      | some v => .ok v.type
      | none => .error (op.misfit a.type b.type) := by
  cases a <;> cases b
  case number.number m x n y =>
    cases op with
    | add => by_cases h : m = n <;> simp [resultType, apply, misfit, Value.type, ValueType.isNumeric, h]
    | subtract => by_cases h : m = n <;> simp [resultType, apply, misfit, Value.type, ValueType.isNumeric, h]
    | multiply =>
      by_cases hm : m = .scalar
      · simp [resultType, apply, Value.type, ValueType.isNumeric, hm]
      · by_cases hn : n = .scalar <;>
          simp [resultType, apply, misfit, Value.type, ValueType.isNumeric, hm, hn]
  all_goals cases op <;> simp [resultType, apply, misfit, Value.type, ValueType.isNumeric]

theorem resultType_undefined_left (op : Operator) (t : ValueType) :
    op.resultType .undefined t = .ok .undefined := by
  cases op <;> rfl

theorem resultType_undefined_right (op : Operator) (t : ValueType) :
    op.resultType t .undefined = .ok .undefined := by
  cases op <;> cases t <;> rfl

end Operator

namespace Expr

theorem type_of_eval_eq_ok {values : Values} {e : Expr} {v : Value} (h : e.eval values = .ok v) :
    e.type (values.map Value.type) = v.type := by
  induction e generalizing v with
  | literal w n =>
    obtain rfl := Except.ok.inj h
    rfl
  | reference x n =>
    rw [type, Scopes.resolve?_map, eval_reference_eq_ok.1 h]
    rfl
  | operation op l r n ihl ihr =>
    obtain ⟨a, b, hl, hr, hv⟩ := eval_operation_eq_ok.1 h
    rw [type, ihl hl, ihr hr, Operator.resultType_type, hv]

theorem type_of_eval_eq_error {values : Values} {e : Expr} {fault : Fault}
    (h : e.eval values = .error fault) : e.type (values.map Value.type) = .undefined := by
  induction e generalizing fault with
  | literal v n => simp [eval] at h
  | reference x n =>
    rw [type, Scopes.resolve?_map, (eval_reference_eq_error.1 h).1]
    rfl
  | operation op l r n ihl ihr =>
    rw [type]
    rcases eval_operation_eq_error.1 h with hl | ⟨a, hl, hr⟩ | ⟨a, b, hl, hr, hv, -⟩
    · rw [ihl hl, Operator.resultType_undefined_left]
    · rw [ihr hr, Operator.resultType_undefined_right]
    · rw [type_of_eval_eq_ok hl, type_of_eval_eq_ok hr, Operator.resultType_type, hv]

/-- An expression that has a value is left as it is by the checker. -/
theorem check_of_eval_eq_ok {values : Values} {e : Expr} {v : Value} (h : e.eval values = .ok v) :
    e.check (values.map Value.type) = e := by
  induction e generalizing v with
  | literal w n => rfl
  | reference x n =>
    rw [check, Scopes.resolve?_map, eval_reference_eq_ok.1 h]
    simp
  | operation op l r n ihl ihr =>
    obtain ⟨a, b, hl, hr, hv⟩ := eval_operation_eq_ok.1 h
    rw [check, ihl hl, ihr hr, type_of_eval_eq_ok hl, type_of_eval_eq_ok hr, Operator.resultType_type, hv,
      problemOf?, Note.report_none]

end Expr

/-- An expression has the type of what the folder makes of it. -/
theorem Pass.folding_agrees_typing : Pass.Agrees Value.type .folding .typing := by
  intro values e v h
  cases hv : e.eval values with
  | error fault => simp [folding_error hv] at h
  | ok w =>
    rw [folding_ok hv] at h
    obtain rfl := Option.some.inj h
    exact congrArg some (Expr.type_of_eval_eq_ok hv)

namespace Stmt

/-- Where folding meets no fault, checking ends in the types of the values that folding ends in. -/
theorem check_types_of_fold (values : Values) (s : Stmt) (h : (s.fold values).fault? = none) :
    (s.check (values.map Value.type)).2 = (s.fold values).values.map Value.type := by
  have hfold := walk_folding_after values s
  have hcheck := walk_typing_after (values.map Value.type) s
  rw [h] at hfold
  rw [walk_map Pass.folding_agrees_typing values s (hfold ▸ rfl), Walk.map, hfold] at hcheck
  exact (Option.some.inj hcheck).symm

/-- The checker's walk is the folder's with types for values. -/
theorem walkAll_typing_of_foldAll (values : Values) (ss : List Stmt) (h : (foldAll values ss).fault? = none) :
    walkAll .typing (values.map Value.type) ss = (walkAll .folding values ss).map Value.type := by
  have hfold := walkAll_folding_after values ss
  rw [h] at hfold
  exact walkAll_map Pass.folding_agrees_typing values ss (hfold ▸ rfl)

end Stmt

end TypedCss
