import TypedCss.Proofs.Bare

/-!
# Passes without places

Checking and folding look at no place. On a tree without places they do what they do on the tree itself, except
that there are no places in the outcome, and nothing that is written depends on a place.
-/

namespace TypedCss

def Fault.withoutPlace (fault : Fault) : Fault := { fault with position := .nowhere }

theorem Note.report_withoutSpan (n : Note) (p? : Option Problem) :
    n.withoutSpan.report p? = (n.report p?).withoutSpan := rfl

theorem Note.map_problem_withoutSpan (n : Note) :
    n.withoutSpan.diagnostics.map Diagnostic.problem = n.diagnostics.map Diagnostic.problem := by
  obtain ⟨span, problem?⟩ := n
  cases problem? <;> rfl

namespace Expr

theorem note_withoutSpans (e : Expr) : e.withoutSpans.note = e.note.withoutSpan := by
  cases e <;> rfl

theorem span_withoutSpans (e : Expr) : e.withoutSpans.span = .nowhere := by
  rw [span, note_withoutSpans]
  rfl

theorem type_withoutSpans (types : Types) (e : Expr) : e.withoutSpans.type types = e.type types := by
  induction e with
  | literal v n => rfl
  | reference x n => rfl
  | operation op l r n ihl ihr => rw [withoutSpans, type, type, ihl, ihr]

theorem check_withoutSpans (types : Types) (e : Expr) :
    e.withoutSpans.check types = (e.check types).withoutSpans := by
  induction e with
  | literal v n => rfl
  | reference x n => rfl
  | operation op l r n ihl ihr =>
    rw [withoutSpans, check, check, withoutSpans, ihl, ihr, type_withoutSpans, type_withoutSpans,
      Note.report_withoutSpan]

theorem eval_withoutSpans (values : Values) (e : Expr) :
    e.withoutSpans.eval values = (e.eval values).mapError Fault.withoutPlace := by
  induction e with
  | literal v n => rfl
  | reference x n =>
    rw [withoutSpans, eval, eval]
    cases values.resolve? x <;> rfl
  | operation op l r n ihl ihr =>
    rw [withoutSpans, eval, eval]
    cases hl : l.eval values with
    | error fault =>
      rw [ihl, hl]
      rfl
    | ok a =>
      rw [show l.withoutSpans.eval values = .ok a by rw [ihl, hl]; rfl]
      cases hr : r.eval values with
      | error fault =>
        rw [ihr, hr]
        rfl
      | ok b =>
        rw [show r.withoutSpans.eval values = .ok b by rw [ihr, hr]; rfl]
        dsimp only [bind, Except.bind]
        cases op.apply a b <;> rfl

theorem foldedTo_withoutSpans (v : Value) (e : Expr) :
    e.withoutSpans.foldedTo v = (e.foldedTo v).withoutSpans := by
  cases e <;> rfl

theorem fold_withoutSpans (values : Values) (e : Expr) :
    e.withoutSpans.fold values = ((e.fold values).map withoutSpans).mapError Fault.withoutPlace := by
  rw [fold_eq_map, fold_eq_map, eval_withoutSpans]
  cases e.eval values with
  | error fault => rfl
  | ok v => exact congrArg Except.ok (foldedTo_withoutSpans v e)

theorem isColor_withoutSpans (types : Types) (e : Expr) : e.withoutSpans.isColor types = e.isColor types := by
  cases e <;> rfl

theorem unfitDimension?_withoutSpans (types : Types) (e : Expr) :
    e.withoutSpans.unfitDimension? types = e.unfitDimension? types := by
  cases e <;> rfl

theorem isCondition_withoutSpans (types : Types) (e : Expr) :
    e.withoutSpans.isCondition types = e.isCondition types := by
  cases e <;> rfl

theorem bare_withoutSpans (e : Expr) : e.withoutSpans.bare = e.bare := by
  induction e with
  | literal v n => rfl
  | reference x n => rfl
  | operation op l r n ihl ihr => rw [withoutSpans, bare, bare, ihl, ihr]

theorem value?_withoutSpans (e : Expr) : e.withoutSpans.value? = e.value? := by
  cases e <;> rfl

theorem map_problem_withoutSpans (e : Expr) :
    e.withoutSpans.diagnostics.map Diagnostic.problem = e.diagnostics.map Diagnostic.problem := by
  induction e with
  | literal v n => exact n.map_problem_withoutSpan
  | reference x n => exact n.map_problem_withoutSpan
  | operation op l r n ihl ihr =>
    simp only [withoutSpans, diagnostics, List.map_append, Note.map_problem_withoutSpan, ihl, ihr]

end Expr

theorem declarationProblem?_withoutSpans (types : Types) (property : String) (e : Expr) :
    declarationProblem? types property e.withoutSpans = declarationProblem? types property e := by
  rw [declarationProblem?, declarationProblem?, Expr.isColor_withoutSpans, Expr.unfitDimension?_withoutSpans]

theorem conditionProblem?_withoutSpans (types : Types) (c : Expr) :
    conditionProblem? types c.withoutSpans = conditionProblem? types c := by
  rw [conditionProblem?, conditionProblem?, Expr.isCondition_withoutSpans, Expr.type_withoutSpans]

/-- The outcome of folding without places. -/
def Folded.withoutSpans {α : Type} (erase : α → α) (r : Folded α) : Folded α :=
  ⟨erase r.tree, r.values, r.fault?.map Fault.withoutPlace⟩

namespace Stmt

mutual

theorem check_withoutSpans (types : Types) : (s : Stmt) →
    s.withoutSpans.check types = ((s.check types).1.withoutSpans, (s.check types).2)
  | assignment x e n => by
    rw [withoutSpans, check, check, Expr.check_withoutSpans, Expr.type_withoutSpans]
    rfl
  | declaration p e n => by
    rw [withoutSpans, check, check, Expr.check_withoutSpans, declarationProblem?_withoutSpans]
    rfl
  | rule s body n => by
    rw [withoutSpans, check_rule, check_rule, checkAll_withoutSpans types.enter body]
    rfl
  | ifClause c body n => by
    rw [withoutSpans, check_ifClause, check_ifClause, checkAll_withoutSpans types body, Expr.check_withoutSpans,
      conditionProblem?_withoutSpans]
    rfl

theorem checkAll_withoutSpans (types : Types) : (ss : List Stmt) →
    checkAll types (allWithoutSpans ss) = (allWithoutSpans (checkAll types ss).1, (checkAll types ss).2)
  | [] => rfl
  | s :: ss => by
    rw [allWithoutSpans, checkAll_cons, checkAll_cons, check_withoutSpans types s, checkAll_withoutSpans _ ss]
    rfl

end

mutual

theorem map_problem_withoutSpans : (s : Stmt) →
    s.withoutSpans.diagnostics.map Diagnostic.problem = s.diagnostics.map Diagnostic.problem
  | assignment x e n => by
    simp only [withoutSpans, diagnostics, List.map_append, Note.map_problem_withoutSpan,
      Expr.map_problem_withoutSpans]
  | declaration p e n => by
    simp only [withoutSpans, diagnostics, List.map_append, Note.map_problem_withoutSpan,
      Expr.map_problem_withoutSpans]
  | rule s body n => by
    simp only [withoutSpans, diagnostics, List.map_append, Note.map_problem_withoutSpan,
      map_problem_allWithoutSpans body]
  | ifClause c body n => by
    simp only [withoutSpans, diagnostics, List.map_append, Note.map_problem_withoutSpan,
      Expr.map_problem_withoutSpans, map_problem_allWithoutSpans body]

theorem map_problem_allWithoutSpans : (ss : List Stmt) →
    (allDiagnostics (allWithoutSpans ss)).map Diagnostic.problem = (allDiagnostics ss).map Diagnostic.problem
  | [] => rfl
  | s :: ss => by
    simp only [allWithoutSpans, allDiagnostics, List.map_append, map_problem_withoutSpans s,
      map_problem_allWithoutSpans ss]

end

mutual

theorem fold_withoutSpans (values : Values) : (s : Stmt) →
    s.withoutSpans.fold values = (s.fold values).withoutSpans withoutSpans
  | assignment x e n => by
    rw [withoutSpans, fold, fold, Expr.eval_withoutSpans, Expr.span_withoutSpans]
    cases e.eval values <;> rfl
  | declaration p e n => by
    rw [withoutSpans, fold, fold, Expr.fold_withoutSpans]
    cases e.fold values <;> rfl
  | rule s body n => by
    rw [withoutSpans, fold, fold, foldAll_withoutSpans values.enter body]
    rfl
  | ifClause c body n => by
    rw [withoutSpans, fold, fold, Expr.fold_withoutSpans]
    cases c.fold values with
    | error fault => rfl
    | ok v =>
      rw [foldAll_withoutSpans values body]
      rfl

theorem foldAll_withoutSpans (values : Values) : (ss : List Stmt) →
    foldAll values (allWithoutSpans ss) = (foldAll values ss).withoutSpans allWithoutSpans
  | [] => rfl
  | s :: ss => by
    have hs := fold_withoutSpans values s
    rw [allWithoutSpans]
    cases hfault : (s.fold values).fault? with
    | some fault =>
      have hfault' : (s.withoutSpans.fold values).fault? = some fault.withoutPlace := by
        rw [hs, Folded.withoutSpans, hfault]
        rfl
      rw [foldAll_cons_of_fault hfault, foldAll_cons_of_fault hfault', hs]
      rfl
    | none =>
      have hfault' : (s.withoutSpans.fold values).fault? = none := by
        rw [hs, Folded.withoutSpans, hfault]
        rfl
      rw [foldAll_cons_of_no_fault hfault, foldAll_cons_of_no_fault hfault', hs,
        Folded.withoutSpans, foldAll_withoutSpans _ ss]
      rfl

end

mutual

theorem bare_withoutSpans : (s : Stmt) → s.withoutSpans.bare = s.bare
  | assignment x e n => rfl
  | declaration p e n => by rw [withoutSpans, bare, bare, Expr.bare_withoutSpans]
  | rule s body n => by rw [withoutSpans, bare, bare, allBare_withoutSpans body]
  | ifClause c body n => by
    rw [withoutSpans, bare, bare, Expr.bare_withoutSpans, Expr.isTrue, Expr.isTrue, Expr.value?_withoutSpans,
      allBare_withoutSpans body]

theorem allBare_withoutSpans : (ss : List Stmt) → allBare (allWithoutSpans ss) = allBare ss
  | [] => rfl
  | s :: ss => by rw [allWithoutSpans, allBare, allBare, bare_withoutSpans s, allBare_withoutSpans ss]

end

theorem filter_isRule_withoutSpans (ss : List Stmt) :
    (allWithoutSpans ss).filter isRule = allWithoutSpans (ss.filter isRule) := by
  induction ss with
  | nil => rfl
  | cons s ss ih =>
    cases s with
    | rule t body n => exact congrArg (rule t (allWithoutSpans body) n.withoutSpan :: ·) ih
    | _ => exact ih

end Stmt

namespace Stylesheet

def withoutSpans (sheet : Stylesheet) : Stylesheet := ⟨Stmt.allWithoutSpans sheet.body, .nowhere⟩

variable {sheet other : Stylesheet}

theorem check_withoutSpans (sheet : Stylesheet) : sheet.withoutSpans.check = sheet.check.withoutSpans := by
  simp only [check, checkIn, withoutSpans, Stmt.checkAll_withoutSpans]

theorem fold_withoutSpans (sheet : Stylesheet) :
    sheet.withoutSpans.fold = sheet.fold.withoutSpans withoutSpans := by
  simp only [fold, foldIn, withoutSpans, Stmt.foldAll_withoutSpans]
  rfl

theorem map_problem_withoutSpans (sheet : Stylesheet) :
    sheet.withoutSpans.diagnostics.map Diagnostic.problem = sheet.diagnostics.map Diagnostic.problem :=
  Stmt.map_problem_allWithoutSpans sheet.body

/-- Stylesheets that differ in places only have the same problems. -/
theorem problems_of_withoutSpans (h : sheet.withoutSpans = other.withoutSpans) :
    sheet.check.diagnostics.map Diagnostic.problem = other.check.diagnostics.map Diagnostic.problem := by
  rw [← map_problem_withoutSpans, ← check_withoutSpans, h, check_withoutSpans, map_problem_withoutSpans]

theorem bare_withoutSpans (sheet : Stylesheet) : sheet.withoutSpans.bare = sheet.bare := by
  rw [bare, withoutSpans, Stmt.filter_isRule_withoutSpans, Stmt.allBare_withoutSpans, bare]

/-- Stylesheets that differ in places only fold to the same text. -/
theorem css_of_withoutSpans {text : String} (h : sheet.withoutSpans = other.withoutSpans)
    (htext : sheet.fold.tree.css = .ok text) : other.fold.tree.css = .ok text := by
  have htree (sheet : Stylesheet) : sheet.fold.tree.withoutSpans = sheet.withoutSpans.fold.tree := by
    rw [fold_withoutSpans, Folded.withoutSpans]
  refine css_of_bare htext ?_
  rw [← bare_withoutSpans other.fold.tree, ← bare_withoutSpans sheet.fold.tree, htree, htree, h]

end Stylesheet

end TypedCss
