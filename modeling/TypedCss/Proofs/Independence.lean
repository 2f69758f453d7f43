import TypedCss.Proofs.Editing

/-!
# Rules at the top level are independent

No rule changes what is in sight of the statements after it. A rule at the top level can therefore be removed,
or change places with one beside it, and nothing happens to the other statements: the problems in them, their
values and their blocks stay the same.
-/

namespace TypedCss

/-- A change to the rules at the front of some statements. -/
inductive RuleEdit where
  /-- The first rule is removed. -/
  | remove
  /-- The first two rules change places. -/
  | exchange
  deriving DecidableEq, Repr

namespace RuleEdit

def apply : RuleEdit → List Stmt → List Stmt
  | remove, ss => ss.tail
  | exchange, s :: t :: ss => t :: s :: ss
  | exchange, ss => ss

/-- The statements that the edit removes or moves are rules. -/
def IsOfRules : RuleEdit → List Stmt → Prop
  | remove, s :: _ => s.isRule
  | exchange, s :: t :: _ => s.isRule ∧ t.isRule
  | _, _ => False

/-- Edits the rules that begin with statement `i` of the stylesheet. -/
def applyAt (edit : RuleEdit) (i : Nat) (sheet : Stylesheet) : Stylesheet :=
  sheet.mapBody fun ss => ss.modifyTailIdx i edit.apply

variable {edit : RuleEdit} {ss : List Stmt}

theorem cases_of_isOfRules (h : edit.IsOfRules ss) :
    (∃ s rest, edit = remove ∧ ss = s :: rest ∧ s.isRule) ∨
      ∃ s t rest, edit = exchange ∧ ss = s :: t :: rest ∧ s.isRule ∧ t.isRule := by
  match edit, ss, h with
  | remove, s :: rest, h => exact .inl ⟨s, rest, rfl, rfl, h⟩
  | exchange, s :: t :: rest, h => exact .inr ⟨s, t, rest, rfl, rfl, h⟩

theorem checksAlike (h : edit.IsOfRules ss) : Stmt.ChecksAlike edit.apply ss := by
  obtain ⟨s, rest, rfl, rfl, hs⟩ | ⟨s, t, rest, rfl, rfl, hs, ht⟩ := cases_of_isOfRules h
  · exact Stmt.checksAlike_tail (Stmt.not_assigns_of_isRule hs) rest
  · have hs := Stmt.not_assigns_of_isRule hs
    have ht := Stmt.not_assigns_of_isRule ht
    intro types
    simp only [apply, Stmt.checkAll_cons_of_not_assigns hs, Stmt.checkAll_cons_of_not_assigns ht]

theorem foldsAlike (h : edit.IsOfRules ss) : Stmt.FoldsAlike (· = none) edit.apply ss := by
  obtain ⟨s, rest, rfl, rfl, hs⟩ | ⟨s, t, rest, rfl, rfl, hs, ht⟩ := cases_of_isOfRules h
  · exact Stmt.foldsAlike_tail (Stmt.not_assigns_of_isRule hs) rest
  · have hs := Stmt.not_assigns_of_isRule hs
    have ht := Stmt.not_assigns_of_isRule ht
    intro values hok
    have hsfold := Stmt.fold_ok_of_cons hok
    rw [Stmt.foldAll_cons_of_not_assigns hs hsfold] at hok
    have htfold := Stmt.fold_ok_of_cons hok
    simp only [apply, Stmt.foldAll_cons_of_not_assigns hs hsfold, Stmt.foldAll_cons_of_not_assigns ht htfold]
    rfl

end RuleEdit

theorem Stmt.allBlocks_eq_flatMap {outer : List Selector} {write : Stmt → List Css.Block} {ss : List Stmt}
    (h : ∀ s ∈ ss, s.blocks outer = .ok (write s)) : allBlocks outer ss = .ok (ss.flatMap write) := by
  induction ss with
  | nil => rfl
  | cons s ss ih =>
    obtain ⟨hs, hss⟩ := List.forall_mem_cons.1 h
    rw [allBlocks, hs, ih hss]
    rfl

/-- Statements with literals in all slots have blocks of their own. -/
theorem Stylesheet.exists_write : ∃ write : Stmt → List Css.Block, ∀ {sheet : Stylesheet},
    (∀ e ∈ sheet.expressions, e.IsLiteral) → ∀ s ∈ sheet.body, s.blocks [] = .ok (write s) := by
  refine ⟨fun s => (s.blocks []).toOption.getD [], fun {sheet} h s hs => ?_⟩
  obtain ⟨bs, hbs⟩ := Stmt.blocks_ok_of_literals [] s fun e he => h e (Stmt.mem_allExpressions.2 ⟨s, hs, he⟩)
  simp [hbs, Except.toOption]

theorem Stylesheet.blocks_eq_flatMap {sheet : Stylesheet} {write : Stmt → List Css.Block}
    (h : ∀ s ∈ sheet.body, s.blocks [] = .ok (write s)) :
    sheet.blocks = .ok ((sheet.body.filter Stmt.isRule).flatMap write) :=
  Stmt.allBlocks_eq_flatMap fun s hs => h s (List.mem_filter.1 hs).1

/-- When a rule at the top level is removed, or changes places with the rule beside it, the checker finds the same
problems at the same nodes, whatever folded folds to the same values, and each rule that is left has the same
blocks, which come in the order of the rules. -/
theorem top_level_rules_are_independent {sheet : Stylesheet} {edit : RuleEdit} {i : Nat}
    (h : edit.IsOfRules (sheet.body.drop i)) :
    (edit.applyAt i sheet).check = edit.applyAt i sheet.check ∧
      (sheet.fold.fault? = none →
        (edit.applyAt i sheet).fold.fault? = none ∧
        (edit.applyAt i sheet).fold.tree = edit.applyAt i sheet.fold.tree ∧
        ∃ write : Stmt → List Css.Block, (∀ s ∈ sheet.fold.tree.body, s.blocks [] = .ok (write s)) ∧
          sheet.fold.tree.blocks = .ok ((sheet.fold.tree.body.filter Stmt.isRule).flatMap write) ∧
          (edit.applyAt i sheet).fold.tree.blocks =
            .ok (((edit.applyAt i sheet).fold.tree.body.filter Stmt.isRule).flatMap write)) := by
  have hlocal : Stmt.IsLocal (Stmt.FoldsAlike (· = none)) := Stmt.foldsAlike_local rfl
  have hfolds := hlocal.further (RuleEdit.foldsAlike h)
  refine ⟨Stylesheet.check_mapBody (Stmt.checksAlike_local.further (RuleEdit.checksAlike h)), ?_⟩
  intro hfault
  have hfold : (edit.applyAt i sheet).fold = sheet.fold.map (edit.applyAt i) :=
    Stylesheet.fold_mapBody hfolds hfault
  have hfault' : (edit.applyAt i sheet).fold.fault? = none := by rw [hfold, ← hfault, Folded.map]
  obtain ⟨write, hwrite⟩ := Stylesheet.exists_write
  have hsource := hwrite (hfault ▸ sheet.fold_expressions).isLiteral
  have hedited := hwrite (hfault' ▸ (edit.applyAt i sheet).fold_expressions).isLiteral
  exact ⟨hfault', by rw [hfold, Folded.map], write, hsource, Stylesheet.blocks_eq_flatMap hsource,
    Stylesheet.blocks_eq_flatMap hedited⟩

/-- The first of two rules hides the variable that the second one reads, and gives a nested rule a value of its
own. -/
theorem top_level_rules_are_independent_shadowing :
    let n : Note := .clear .nowhere
    let pixels (p : Int32) : Expr := .literal (.number .pixel p) n
    let width (e : Expr) : Stmt := .declaration "width" e n
    let shadowing : Stmt := .rule (.tag "a") [.assignment "W" (.literal (.color "#ff0000") n) n,
      .rule (.tag "b") [.assignment "W" (pixels 2) n, width (.reference "W" n)] n, width (.reference "W" n)] n
    let reading : Stmt := .rule (.tag "p") [width (.reference "W" n)] n
    let sheet : Stylesheet := ⟨[.assignment "W" (pixels 1) n, shadowing, reading], .nowhere⟩
    let exchanged : Stylesheet := ⟨[.assignment "W" (pixels 1) n, reading, shadowing], .nowhere⟩
    sheet.fold.fault? = none ∧ sheet.check.diagnostics.length = 2 ∧
      exchanged.check = RuleEdit.exchange.applyAt 1 sheet.check ∧
      exchanged.fold.tree = RuleEdit.exchange.applyAt 1 sheet.fold.tree := by
  intro n pixels width shadowing reading sheet exchanged
  have hfault : sheet.fold.fault? = none := by decide +kernel
  have hrules : RuleEdit.exchange.IsOfRules (sheet.body.drop 1) := ⟨rfl, rfl⟩
  obtain ⟨hcheck, hfold⟩ := top_level_rules_are_independent hrules
  exact ⟨hfault, by decide +kernel, hcheck, (hfold hfault).2.1⟩

end TypedCss
