import TypedCss.Compile
import TypedCss.Proofs.FirstFault
import TypedCss.Proofs.Generation
import TypedCss.Proofs.Walk

/-!
# Checked stylesheets compile

A stylesheet in which the checker finds nothing can be folded into literals and written out, so that
compiling fails only in reading a source and in checking it.
-/

namespace TypedCss

theorem Note.report_of_diagnostics_eq_nil {n : Note} {p? : Option Problem}
    (h : (n.report p?).diagnostics = []) : n.report p? = n := by
  cases p? with
  | none => exact n.report_none
  | some p => simp [diagnostics_report_some] at h

theorem Expr.check_eq_self {types : Types} {e : Expr} (h : (e.check types).diagnostics = []) :
    e.check types = e := by
  induction e with
  | literal v n => rfl
  | reference x n =>
    rw [check] at h ⊢
    rw [Note.report_of_diagnostics_eq_nil h]
  | operation op l r n ihl ihr =>
    rw [check] at h ⊢
    obtain ⟨hn, h⟩ := List.append_eq_nil_iff.1 h
    obtain ⟨hl, hr⟩ := List.append_eq_nil_iff.1 h
    rw [ihl hl, ihr hr, Note.report_of_diagnostics_eq_nil hn]

namespace Stmt

mutual

theorem check_eq_self (types : Types) : (s : Stmt) → (s.check types).1.diagnostics = [] →
    (s.check types).1 = s
  | assignment x e n, h => by
    obtain ⟨-, he⟩ := List.append_eq_nil_iff.1 h
    rw [check, Expr.check_eq_self he]
  | declaration p e n, h => by
    obtain ⟨hn, he⟩ := List.append_eq_nil_iff.1 h
    rw [check, Expr.check_eq_self he, Note.report_of_diagnostics_eq_nil hn]
  | rule s body n, h => by
    obtain ⟨-, hbody⟩ := List.append_eq_nil_iff.1 h
    rw [check_rule, checkAll_eq_self types.enter body hbody]
  | ifClause c body n, h => by
    obtain ⟨hn, h⟩ := List.append_eq_nil_iff.1 h
    obtain ⟨hc, hbody⟩ := List.append_eq_nil_iff.1 h
    rw [check_ifClause, Expr.check_eq_self hc, checkAll_eq_self types body hbody,
      Note.report_of_diagnostics_eq_nil hn]

theorem checkAll_eq_self (types : Types) : (ss : List Stmt) →
    allDiagnostics (checkAll types ss).1 = [] → (checkAll types ss).1 = ss
  | [], _ => rfl
  | s :: ss, h => by
    obtain ⟨hs, hss⟩ := List.append_eq_nil_iff.1 h
    rw [checkAll_cons, check_eq_self types s hs, checkAll_eq_self _ ss hss]

end

end Stmt

namespace Stylesheet

variable {sheet : Stylesheet}

/-- Where the checker has nothing to report it changes nothing. -/
theorem check_eq_self (h : sheet.check.diagnostics = []) : sheet.check = sheet := by
  have hbody : (Stmt.checkAll .empty sheet.body).1 = sheet.body := Stmt.checkAll_eq_self .empty sheet.body h
  change { sheet with body := (Stmt.checkAll .empty sheet.body).1 } = sheet
  rw [hbody]

theorem fold_ok_of_check (h : sheet.check.diagnostics = []) : sheet.check.fold.fault? = none := by
  have hself := check_eq_self h
  have hforetold : Foretold sheet.check.diagnostics sheet.fold.fault? := check_foretells_fold (hself ▸ h)
  rw [h] at hforetold
  rw [hself]
  cases hf : sheet.fold.fault? with
  | none => rfl
  | some fault =>
    rw [hf] at hforetold
    obtain ⟨d, hd, -⟩ := hforetold.exists_first
    simp at hd

/-- A stylesheet in which the checker finds nothing folds into literals throughout and has CSS. -/
theorem folds_and_writes_of_check (h : sheet.check.diagnostics = []) :
    sheet.check.fold.fault? = none ∧ (∀ e ∈ sheet.check.fold.tree.expressions, e.IsLiteral) ∧
      ∃ css, sheet.check.fold.tree.css = .ok css := by
  have hfold := fold_ok_of_check h
  have hlit : ∀ e ∈ sheet.check.fold.tree.expressions, e.IsLiteral :=
    (hfold ▸ sheet.check.fold_expressions).isLiteral
  exact ⟨hfold, hlit, css_ok_of_literals hlit⟩

theorem compile_ok_of_check (h : sheet.check.diagnostics = []) : ∃ css, sheet.check.compile = .ok css := by
  obtain ⟨hfold, -, css, hcss⟩ := folds_and_writes_of_check h
  refine ⟨css, ?_⟩
  simp only [compile, hfold, hcss]
  rfl

end Stylesheet

/-- What `check` answers is the checked tree of the source and its diagnostics. -/
theorem check_eq_ok {file source : String} {sheet : Stylesheet} {ds : List Diagnostic}
    (h : check file source = .ok (sheet, ds)) :
    ∃ parsed, Stylesheet.ofSource file source = .ok parsed ∧ sheet = parsed.check ∧ ds = parsed.check.diagnostics := by
  unfold check at h
  cases hp : Stylesheet.ofSource file source with
  | error fault => simp [hp, bind, Except.bind] at h
  | ok parsed =>
    simp only [hp, bind, Except.bind, pure, Except.pure, Except.ok.injEq, Prod.mk.injEq] at h
    exact ⟨parsed, rfl, h.1.symm, h.2.symm⟩

theorem check_eq_error {file source : String} {fault : Fault} :
    check file source = .error fault ↔ Stylesheet.ofSource file source = .error fault := by
  unfold check
  cases Stylesheet.ofSource file source with
  | error fault => simp [bind, Except.bind]
  | ok parsed => simp [bind, Except.bind, pure, Except.pure]

/-- The three ways in which compiling can end. -/
theorem compile_cases (file source : String) :
    (∃ fault, Stylesheet.ofSource file source = .error fault ∧ compile file source = .error (.unreadable fault)) ∨
    (∃ sheet ds, check file source = .ok (sheet, ds) ∧ ds ≠ [] ∧ compile file source = .error (.illTyped ds)) ∨
    ∃ sheet css, check file source = .ok (sheet, []) ∧ compile file source = .ok css := by
  cases hc : check file source with
  | error fault =>
    refine .inl ⟨fault, check_eq_error.1 hc, ?_⟩
    rw [compile, hc]
  | ok checked =>
    obtain ⟨sheet, ds⟩ := checked
    cases ds with
    | cons d ds =>
      refine .inr (.inl ⟨sheet, d :: ds, rfl, List.cons_ne_nil d ds, ?_⟩)
      rw [compile, hc]
    | nil =>
      obtain ⟨parsed, -, rfl, hds⟩ := check_eq_ok hc
      obtain ⟨css, hcss⟩ := Stylesheet.compile_ok_of_check hds.symm
      refine .inr (.inr ⟨_, css, rfl, ?_⟩)
      rw [compile, hc]
      exact hcss

/-- Compiling fails in reading exactly when the source cannot be read, in checking exactly when the checker
reports something, and nowhere else, because a stylesheet in which the checker finds nothing folds into
literals throughout and has CSS. -/
theorem compile_fails_only_in_reading_or_checking (file source : String) :
    (∀ fault, compile file source = .error (.unreadable fault) ↔
      Stylesheet.ofSource file source = .error fault) ∧
    (∀ ds, compile file source = .error (.illTyped ds) ↔
      ds ≠ [] ∧ ∃ sheet, check file source = .ok (sheet, ds)) ∧
    ((∃ css, compile file source = .ok css) ↔ ∃ sheet, check file source = .ok (sheet, [])) ∧
    (∀ fault, compile file source ≠ .error (.unfoldable fault)) ∧
    ∀ sheet : Stylesheet, sheet.check.diagnostics = [] →
      sheet.check.fold.fault? = none ∧ (∀ e ∈ sheet.check.fold.tree.expressions, e.IsLiteral) ∧
        ∃ css, sheet.check.fold.tree.css = .ok css := by
  have hsheet : ∀ sheet : Stylesheet, sheet.check.diagnostics = [] → _ :=
    fun _ h => Stylesheet.folds_and_writes_of_check h
  rcases compile_cases file source with
    ⟨fault, hread, hcompile⟩ | ⟨sheet, ds, hcheck, hds, hcompile⟩ | ⟨sheet, css, hcheck, hcompile⟩
  · have hcheck := check_eq_error.2 hread
    exact ⟨by simp [hread, hcompile], by simp [hcompile, hcheck], by simp [hcompile, hcheck],
      by simp [hcompile], hsheet⟩
  · obtain ⟨parsed, hread, -, -⟩ := check_eq_ok hcheck
    refine ⟨by simp [hread, hcompile], ?_, by simp [hcheck, hcompile, hds], by simp [hcompile], hsheet⟩
    intro es
    rw [hcompile, hcheck]
    simp only [Except.error.injEq, Failure.illTyped.injEq, Except.ok.injEq, Prod.mk.injEq, exists_eq_left']
    exact ⟨fun h => ⟨h ▸ hds, h⟩, And.right⟩
  · obtain ⟨parsed, hread, -, -⟩ := check_eq_ok hcheck
    refine ⟨by simp [hread, hcompile], ?_, by simp [hcheck, hcompile], by simp [hcompile], hsheet⟩
    intro es
    simp only [hcompile, hcheck, reduceCtorEq, Except.ok.injEq, Prod.mk.injEq, false_iff, not_and]
    rintro hes ⟨_, _, rfl⟩
    exact hes rfl

/-- The variable is assigned again under a condition, beside a nested rule. -/
theorem compile_fails_only_in_reading_or_checking_clause :
    let note := Note.clear .nowhere
    let double : Expr := .operation .multiply (.literal (.number .scalar 2) note) (.reference "W" note) note
    let clause : Stmt := .ifClause (.reference "On" note)
      [.assignment "W" double note,
        .rule (.className "b") [.declaration "color" (.literal (.color "#ff0000") note) note] note] note
    let sheet : Stylesheet := ⟨[.assignment "On" (.literal (.flag true) note) note,
      .rule (.tag "a") [.assignment "W" (.literal (.number .pixel 5) note) note, clause,
        .declaration "width" (.reference "W" note) note] note], .nowhere⟩
    sheet.check.diagnostics = [] ∧ sheet.check.fold.fault? = none ∧
      (∀ e ∈ sheet.check.fold.tree.expressions, e.IsLiteral) ∧ ∃ css, sheet.check.fold.tree.css = .ok css := by
  intro note double clause sheet
  have hcheck : sheet.check.diagnostics = [] := by decide +kernel
  exact ⟨hcheck, (compile_fails_only_in_reading_or_checking "a.icss" "").2.2.2.2 sheet hcheck⟩

end TypedCss
