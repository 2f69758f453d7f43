import TypedCss.Proofs.Lockstep

/-!
# The first fault of folding

Folding a tree without attached problems fails exactly when the checker finds a problem inside an
expression, and it fails where the first of these problems is. In an operation the folder works from the
operands up and the checker reports from the operation down. The two orders agree because a problem in an
operand leaves the operation around it without a type and so without a problem.
-/

namespace TypedCss

/-- Whether the problem leaves an expression without a value. The other kinds of problem are about the use
of a value. -/
def Problem.preventsFolding : Problem → Bool
  | undefinedVariable _ => true
  | invalidColor _ => false
  | invalidDimension _ _ => false
  | invalidCondition _ => false
  | invalidOperands _ _ _ => true
  | invalidProduct _ _ => true

/-- The fault is the one that the diagnosed node leads to: the same place, and the same variable or the
same operator with operands of the types reported. -/
def Diagnostic.Foretells (d : Diagnostic) (fault : Fault) : Prop :=
  fault.position = d.span.start ∧
    match d.problem with
    | .undefinedVariable x => fault.cause = .unassigned x
    | .invalidOperands op lhs rhs =>
      ∃ a b : Value, a.type = lhs ∧ b.type = rhs ∧ fault.cause = .unsupported op a.text b.text
    | .invalidProduct lhs rhs => ∃ a b : Value,
      a.type = lhs ∧ b.type = rhs ∧ fault.cause = .unsupported Operator.multiply.symbol a.text b.text
    | _ => False

/-- The first diagnostic that prevents folding foretells the fault; without one there is no fault. -/
def Foretold (ds : List Diagnostic) (fault? : Option Fault) : Prop :=
  Option.Rel Diagnostic.Foretells (ds.find? fun d => d.problem.preventsFolding) fault?

namespace Foretold

variable {ds es : List Diagnostic} {fault : Fault} {fault? : Option Fault}

theorem nil : Foretold [] none := .none

theorem none_of_forall (h : ∀ d ∈ ds, d.problem.preventsFolding = false) : Foretold ds none := by
  have hfind : ds.find? (fun d => d.problem.preventsFolding) = none := by
    apply List.find?_eq_none.2
    intro d hd
    simp [h d hd]
  unfold Foretold
  rw [hfind]
  exact .none

theorem append_left (h : Foretold ds (some fault)) (es : List Diagnostic) :
    Foretold (ds ++ es) (some fault) := by
  unfold Foretold at h ⊢
  rw [List.find?_append]
  cases hd : ds.find? (fun d => d.problem.preventsFolding) with
  | none => simp only [hd] at h; cases h
  | some d => rwa [hd] at h

theorem append_right (hds : Foretold ds none) (h : Foretold es fault?) : Foretold (ds ++ es) fault? := by
  unfold Foretold at hds h ⊢
  rw [List.find?_append]
  cases hd : ds.find? (fun d => d.problem.preventsFolding) with
  | none => simpa using h
  | some d => simp only [hd] at hds; cases hds

theorem fault_iff (h : Foretold ds fault?) :
    fault?.isSome ↔ ∃ d ∈ ds, d.problem.preventsFolding := by
  rw [← List.find?_isSome]
  unfold Foretold at h
  cases hd : ds.find? (fun d => d.problem.preventsFolding) with
  | none =>
    simp only [hd] at h
    cases h
    simp
  | some d =>
    rw [hd] at h
    cases h
    simp

theorem exists_first (h : Foretold ds (some fault)) :
    ∃ d, ds.find? (fun d => d.problem.preventsFolding) = some d ∧ d.Foretells fault := by
  unfold Foretold at h
  cases hd : ds.find? (fun d => d.problem.preventsFolding) with
  | none => simp only [hd] at h; cases h
  | some d =>
    rw [hd] at h
    cases h with
    | some hf => exact ⟨d, rfl, hf⟩

end Foretold

namespace Note

theorem diagnostics_report_some (n : Note) (p : Problem) : (n.report (some p)).diagnostics = [⟨p, n.span⟩] := rfl

/-- On a clear node, a problem that does not prevent folding foretells nothing. -/
theorem foretold_report {n : Note} (hn : n.diagnostics = []) {p? : Option Problem}
    (hp : ∀ p ∈ p?, p.preventsFolding = false) : Foretold (n.report p?).diagnostics none := by
  cases p? with
  | none =>
    rw [report_none, hn]
    exact .nil
  | some p =>
    rw [diagnostics_report_some]
    apply Foretold.none_of_forall
    simpa using hp p rfl

end Note

theorem declarationProblem?_allows_folding {types : Types} {property : String} {value : Expr} {p : Problem}
    (h : p ∈ declarationProblem? types property value) : p.preventsFolding = false := by
  unfold declarationProblem? at h
  split at h
  · obtain rfl := Option.some.inj h
    rfl
  · split at h
    · obtain ⟨found, -, rfl⟩ := Option.map_eq_some_iff.1 h
      rfl
    · simp at h

theorem conditionProblem?_allows_folding {types : Types} {condition : Expr} {p : Problem}
    (h : p ∈ conditionProblem? types condition) : p.preventsFolding = false := by
  unfold conditionProblem? at h
  split at h
  · simp at h
  · obtain rfl := Option.some.inj h
    rfl

namespace Operator

theorem misfit_foretells (op : Operator) (a b : Value) (span : Span) :
    (Diagnostic.mk (op.misfit a.type b.type) span).Foretells
      ⟨.unsupported op.symbol a.text b.text, span.start⟩ := by
  cases op <;> exact ⟨rfl, a, b, rfl, rfl, rfl⟩

theorem misfit_preventsFolding (op : Operator) (lhs rhs : ValueType) :
    (op.misfit lhs rhs).preventsFolding = true := by
  cases op <;> rfl

end Operator

namespace Expr

theorem foretold_of_eval_eq_ok {values : Values} {e : Expr} {v : Value} (he : e.diagnostics = [])
    (h : e.eval values = .ok v) : Foretold (e.check (values.map Value.type)).diagnostics none := by
  rw [check_of_eval_eq_ok h, he]
  exact .nil

theorem foretold_of_eval_eq_error {values : Values} {e : Expr} {fault : Fault} (he : e.diagnostics = [])
    (h : e.eval values = .error fault) :
    Foretold (e.check (values.map Value.type)).diagnostics (some fault) := by
  induction e generalizing fault with
  | literal v n => simp [eval] at h
  | reference x n =>
    obtain ⟨hx, rfl⟩ := eval_reference_eq_error.1 h
    rw [check, Scopes.resolve?_map, hx]
    exact .some ⟨rfl, rfl⟩
  | operation op l r n ihl ihr =>
    rw [diagnostics, List.append_eq_nil_iff, List.append_eq_nil_iff] at he
    obtain ⟨hn, hl, hr⟩ := he
    rw [check, diagnostics]
    rcases eval_operation_eq_error.1 h with hle | ⟨a, hlo, hre⟩ | ⟨a, b, hlo, hro, hv, rfl⟩
    · rw [type_of_eval_eq_error hle, Operator.resultType_undefined_left, problemOf?, Note.report_none, hn]
      exact (ihl hl hle).append_left _
    · rw [type_of_eval_eq_error hre, Operator.resultType_undefined_right, problemOf?, Note.report_none, hn]
      exact (foretold_of_eval_eq_ok hl hlo).append_right (ihr hr hre)
    · rw [type_of_eval_eq_ok hlo, type_of_eval_eq_ok hro, Operator.resultType_type, hv]
      apply Foretold.append_left
      unfold Foretold
      rw [problemOf?, Note.diagnostics_report_some, List.find?_singleton,
        if_pos (Operator.misfit_preventsFolding op a.type b.type)]
      exact .some (Operator.misfit_foretells op a b n.span)

end Expr

namespace Stmt

mutual

theorem check_foretells_fold (values : Values) : (s : Stmt) → s.diagnostics = [] →
    Foretold (s.check (values.map Value.type)).1.diagnostics (s.fold values).fault?
  | assignment x e n, h => by
    obtain ⟨hn, he⟩ := List.append_eq_nil_iff.1 h
    rw [check, diagnostics, hn, List.nil_append, fold]
    cases hv : e.eval values with
    | ok v => exact Expr.foretold_of_eval_eq_ok he hv
    | error fault => exact Expr.foretold_of_eval_eq_error he hv
  | declaration p e n, h => by
    obtain ⟨hn, he⟩ := List.append_eq_nil_iff.1 h
    rw [check, diagnostics, fold, Expr.fold_eq_map]
    apply Foretold.append_right (Note.foretold_report hn fun _ => declarationProblem?_allows_folding)
    cases hv : e.eval values with
    | ok v => exact Expr.foretold_of_eval_eq_ok he hv
    | error fault => exact Expr.foretold_of_eval_eq_error he hv
  | rule s body n, h => by
    obtain ⟨hn, hbody⟩ := List.append_eq_nil_iff.1 h
    rw [check_rule, diagnostics, hn, List.nil_append, fold, Scopes.enter_map]
    exact checkAll_foretells_foldAll values.enter body hbody
  | ifClause c body n, h => by
    obtain ⟨hn, h⟩ := List.append_eq_nil_iff.1 h
    obtain ⟨hc, hbody⟩ := List.append_eq_nil_iff.1 h
    rw [check_ifClause, diagnostics, fold, Expr.fold_eq_map]
    apply Foretold.append_right (Note.foretold_report hn fun _ => conditionProblem?_allows_folding)
    cases hv : c.eval values with
    | ok v =>
      have hfold := checkAll_foretells_foldAll values body hbody
      exact (Expr.foretold_of_eval_eq_ok hc hv).append_right hfold
    | error fault => exact (Expr.foretold_of_eval_eq_error hc hv).append_left _

theorem checkAll_foretells_foldAll (values : Values) : (ss : List Stmt) → allDiagnostics ss = [] →
    Foretold (allDiagnostics (checkAll (values.map Value.type) ss).1) (foldAll values ss).fault?
  | [], _ => .nil
  | s :: ss, h => by
    obtain ⟨hs, hss⟩ := List.append_eq_nil_iff.1 h
    have hfirst := check_foretells_fold values s hs
    rw [checkAll_cons, allDiagnostics]
    cases hf : (s.fold values).fault? with
    | some fault =>
      rw [foldAll_cons_of_fault hf]
      rw [hf] at hfirst
      exact hfirst.append_left _
    | none =>
      rw [foldAll_cons_of_no_fault hf, check_types_of_fold values s hf]
      rw [hf] at hfirst
      exact hfirst.append_right (checkAll_foretells_foldAll _ ss hss)

end

end Stmt

theorem Stylesheet.check_foretells_fold {sheet : Stylesheet} (h : sheet.diagnostics = []) :
    Foretold sheet.check.diagnostics sheet.fold.fault? :=
  Stmt.checkAll_foretells_foldAll .empty sheet.body h

/-- On a tree without attached problems, folding fails if and only if the checker finds a problem that
prevents it, and the fault is the one that the first of these problems foretells. -/
theorem fold_fails_at_first_preventing_problem (sheet : Stylesheet) (h : sheet.diagnostics = []) :
    (sheet.fold.fault?.isSome ↔ ∃ d ∈ sheet.check.diagnostics, d.problem.preventsFolding) ∧
      ∀ fault, sheet.fold.fault? = some fault →
        ∃ d, sheet.check.diagnostics.find? (fun d => d.problem.preventsFolding) = some d ∧
          d.Foretells fault := by
  have hforetold := Stylesheet.check_foretells_fold h
  refine ⟨hforetold.fault_iff, ?_⟩
  intro fault hfault
  rw [hfault] at hforetold
  exact hforetold.exists_first

/-- The misfit color comes first but prevents nothing; the fault is at the variable inside the sum. -/
theorem fold_fails_at_unassigned_operand :
    let note (offset : UInt32) : Note := .clear ⟨⟨offset, "a.icss"⟩, ⟨offset + 1, "a.icss"⟩⟩
    let sum : Expr := .operation .add (.literal (.number .pixel 1) (note 8)) (.reference "X" (note 9)) (note 8)
    let sheet : Stylesheet := ⟨[.rule (.tag "a")
      [.declaration "color" (.literal (.number .pixel 5) (note 5)) (note 4),
        .declaration "width" sum (note 7)] (note 0)], .nowhere⟩
    sheet.diagnostics = [] ∧ sheet.check.diagnostics.length = 2 ∧
      ∃ d, sheet.check.diagnostics.find? (fun d => d.problem.preventsFolding) = some d ∧
        d.Foretells ⟨.unassigned "X", ⟨9, "a.icss"⟩⟩ := by
  intro note sum sheet
  have hclear : sheet.diagnostics = [] := by decide
  have hfault : sheet.fold.fault? = some ⟨.unassigned "X", ⟨9, "a.icss"⟩⟩ := by decide
  exact ⟨hclear, by decide +kernel, (fold_fails_at_first_preventing_problem sheet hclear).2 _ hfault⟩

end TypedCss
