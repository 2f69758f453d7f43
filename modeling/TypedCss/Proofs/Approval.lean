import Mathlib.Data.List.Forall2
import TypedCss.Proofs.FirstFault
import TypedCss.Proofs.Preservation
import TypedCss.Proofs.Soundness

/-!
# What the checker lets pass

Where the checker has nothing to report, each expression is fit for its use by the rules of the checker, and
folds to a literal of its type. For conditions the two disagree: the rules ask for a truth value in the global
scope, and the type is that of the variable in sight.
-/

namespace TypedCss

/-- What the checker finds wrong with the use of an expression. -/
def Use.problem? (types : Types) (e : Expr) : Use → Option Problem
  | assigned _ => none
  | declared property => declarationProblem? types property e
  | condition => conditionProblem? types e

/-- The use in a slot is right by the types in sight there. -/
def Approved (use : Use × Expr) (v : Visit ValueType) : Prop := use.1.problem? v.scopes use.2 = none

theorem Note.eq_none_of_report {n : Note} {p? : Option Problem} (h : (n.report p?).diagnostics = []) :
    p? = none := by
  cases p? with
  | none => rfl
  | some p => simp [diagnostics_report_some] at h

namespace Stmt

mutual

theorem check_approves (types : Types) : (s : Stmt) → (s.check types).1.diagnostics = [] →
    List.Forall₂ Approved s.uses (s.walk .typing types).visits
  | assignment x e n, _ => .cons rfl .nil
  | declaration p e n, h => by
    obtain ⟨hn, -⟩ := List.append_eq_nil_iff.1 h
    exact .cons (Note.eq_none_of_report hn) .nil
  | rule s body n, h => by
    obtain ⟨-, hbody⟩ := List.append_eq_nil_iff.1 h
    exact checkAll_approves types.enter body hbody
  | ifClause c body n, h => by
    obtain ⟨hn, h⟩ := List.append_eq_nil_iff.1 h
    obtain ⟨-, hbody⟩ := List.append_eq_nil_iff.1 h
    exact .cons (Note.eq_none_of_report hn) (checkAll_approves types body hbody)

theorem checkAll_approves (types : Types) : (ss : List Stmt) → allDiagnostics (checkAll types ss).1 = [] →
    List.Forall₂ Approved (allUses ss) (walkAll .typing types ss).visits
  | [], _ => .nil
  | s :: ss, h => by
    obtain ⟨hs, hss⟩ := List.append_eq_nil_iff.1 h
    rw [walkAll_cons_of_after (walk_typing_after types s)]
    exact List.rel_append (check_approves types s hs) (checkAll_approves _ ss hss)

end

end Stmt

namespace Stylesheet

variable {sheet : Stylesheet} {i : Nat} {use : Use} {e : Expr} {types : Types}

theorem uses_approved (h : sheet.check.diagnostics = []) : List.Forall₂ Approved sheet.uses sheet.typings :=
  Stmt.checkAll_approves .empty sheet.body h

theorem problem?_of_check (h : sheet.check.diagnostics = []) (he : sheet.uses[i]? = some (use, e))
    (htypes : sheet.typesAt? i = some types) : use.problem? types e = none := by
  obtain ⟨v, hv, rfl⟩ := Option.map_eq_some_iff.1 htypes
  obtain ⟨hlt, he⟩ := List.getElem?_eq_some_iff.1 he
  obtain ⟨hlt', hv⟩ := List.getElem?_eq_some_iff.1 hv
  have happroved : Approved sheet.uses[i] sheet.typings[i] := (uses_approved h).get hlt hlt'
  rwa [he, hv] at happroved

/-- In a stylesheet that the checker lets pass, each slot holds a literal after folding. The literal has the
type of the expression, and the expression is fit for its use. -/
theorem approved_literal_of_use (h : sheet.check.diagnostics = []) (he : sheet.uses[i]? = some (use, e)) :
    ∃ types v n, sheet.typesAt? i = some types ∧ use.problem? types e = none ∧ e.type types = v.type ∧
      sheet.fold.tree.uses[i]? = some (use, .literal v n) := by
  have hfold : sheet.fold.fault? = none := check_eq_self h ▸ fold_ok_of_check h
  obtain ⟨types, v, n, htypes, htype, hfolded⟩ := typed_literal_of_use hfold he
  exact ⟨types, v, n, htypes, problem?_of_check h he htypes, htype, hfolded⟩

end Stylesheet

theorem conditionProblem?_eq_none {types : Types} {c : Expr} :
    conditionProblem? types c = none ↔ c.isCondition types := by
  unfold conditionProblem?
  split <;> simp_all

/-- What the innermost open rule itself binds the name to. -/
def Scopes.own? {α : Type} (s : Scopes α) (name : String) : Option α :=
  s.inner.head?.bind fun frame => frame.lookup name

theorem Scopes.resolve?_eq_own?_or {α : Type} (s : Scopes α) (name : String) :
    s.resolve? name = (s.own? name).or (s.getGlobal? name) := by
  rcases s with ⟨inner, global⟩
  cases inner <;> simp [resolve?, own?, getGlobal?]

theorem Value.type_eq_flag {v : Value} : v.type = .flag ↔ ∃ b, v = .flag b := by
  cases v <;> simp [Value.type]

theorem Expr.type_eq_flag_of_isCondition {types : Types} {c : Expr} (h : c.isCondition types) :
    c.type types = .flag ↔ ∀ x n, c = .reference x n → ∀ t ∈ types.own? x, t = .flag := by
  cases c with
  | literal v n =>
    have hflag : v.type = .flag := by simpa [isCondition] using h
    simp [type, hflag]
  | reference x n =>
    have hglobal : types.getGlobal? x = some .flag := by simpa [isCondition] using h
    rw [type, Scopes.resolve?_eq_own?_or, hglobal]
    cases hown : types.own? x with
    | none => simp [hown]
    | some t => simp [hown]
  | operation op l r n => simp [isCondition] at h

/-- In a stylesheet that the checker lets pass, a condition folds to a truth value if and only if it is not a
variable that the rule around it binds to a value of another type. -/
theorem condition_is_flag_iff_not_shadowed {sheet : Stylesheet} (h : sheet.check.diagnostics = []) {i : Nat}
    {c : Expr} (hc : sheet.uses[i]? = some (.condition, c)) :
    ∃ types v n, sheet.typesAt? i = some types ∧
      sheet.fold.tree.uses[i]? = some (.condition, .literal v n) ∧
      ((∃ b, v = .flag b) ↔ ∀ x m, c = .reference x m → ∀ t ∈ types.own? x, t = .flag) := by
  obtain ⟨types, v, n, htypes, hproblem, htype, hfolded⟩ := Stylesheet.approved_literal_of_use h hc
  have hcondition : c.isCondition types := conditionProblem?_eq_none.1 hproblem
  refine ⟨types, v, n, htypes, hfolded, ?_⟩
  rw [← Value.type_eq_flag, ← htype]
  exact Expr.type_eq_flag_of_isCondition hcondition

/-- The rule binds the global condition again, to another truth value. -/
theorem condition_is_flag_iff_not_shadowed_rebound :
    let n : Note := .clear .nowhere
    let clause : Stmt := .ifClause (.reference "On" n) [.declaration "width" (.literal (.number .pixel 1) n) n] n
    let sheet : Stylesheet := ⟨[.assignment "On" (.literal (.flag true) n) n,
      .rule (.tag "a") [.assignment "On" (.literal (.flag false) n) n, clause] n], .nowhere⟩
    sheet.check.diagnostics = [] ∧ sheet.uses[2]? = some (.condition, .reference "On" n) ∧
      ∃ types v m, sheet.typesAt? 2 = some types ∧
        sheet.fold.tree.uses[2]? = some (.condition, .literal v m) ∧
        ((∃ b, v = .flag b) ↔
          ∀ x k, Expr.reference "On" n = .reference x k → ∀ t ∈ types.own? x, t = .flag) := by
  intro n clause sheet
  have hcheck : sheet.check.diagnostics = [] := by decide +kernel
  have huse : sheet.uses[2]? = some (.condition, .reference "On" n) := by decide
  exact ⟨hcheck, huse, condition_is_flag_iff_not_shadowed hcheck huse⟩

/-- A global truth value satisfies the checker, and the length that the rule binds to the same name becomes
the condition. The body of the if clause is lost. -/
theorem shadowed_condition_is_length :
    let n : Note := .clear .nowhere
    let clause : Stmt := .ifClause (.reference "F" n) [.declaration "width" (.literal (.number .pixel 1) n) n] n
    let sheet : Stylesheet := ⟨[.assignment "F" (.literal (.flag true) n) n,
      .rule (.tag "a") [.assignment "F" (.literal (.number .pixel 5) n) n, clause] n], .nowhere⟩
    sheet.check.diagnostics = [] ∧ sheet.fold.fault? = none ∧
      sheet.fold.tree.uses[2]? = some (.condition, .literal (.number .pixel 5) n) ∧
      sheet.fold.tree.css.toOption = some "a \x7b\n\x7d\n" := by
  decide +kernel

end TypedCss
