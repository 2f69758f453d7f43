import TypedCss.Proofs.Slots

/-!
# What expressions are for

The expression in a slot is assigned to a variable, declared for a property, or the condition of an if
clause. Folding replaces the expressions and keeps what they are for.
-/

namespace TypedCss

inductive Use where
  | assigned (name : String)
  | declared (property : String)
  | condition
  deriving DecidableEq, Repr

namespace Stmt

mutual

/-- The expressions in the slots of a statement with what they are for, in the order of the source. -/
def uses : Stmt → List (Use × Expr)
  | assignment x e _ => [(.assigned x, e)]
  | declaration p e _ => [(.declared p, e)]
  | rule _ body _ => allUses body
  | ifClause c body _ => (.condition, c) :: allUses body

def allUses : List Stmt → List (Use × Expr)
  | [] => []
  | s :: ss => s.uses ++ allUses ss

end

mutual

theorem uses_map_snd : (s : Stmt) → s.uses.map Prod.snd = s.expressions
  | assignment .. => rfl
  | declaration .. => rfl
  | rule _ body _ => allUses_map_snd body
  | ifClause c body _ => congrArg (c :: ·) (allUses_map_snd body)

theorem allUses_map_snd : (ss : List Stmt) → (allUses ss).map Prod.snd = allExpressions ss
  | [] => rfl
  | s :: ss => by rw [allUses, List.map_append, uses_map_snd s, allUses_map_snd ss, allExpressions]

end

mutual

theorem fold_uses_map_fst (values : Values) : (s : Stmt) →
    (s.fold values).tree.uses.map Prod.fst = s.uses.map Prod.fst
  | assignment x e n => by
    rw [fold]
    cases e.eval values <;> rfl
  | declaration p e n => by
    rw [fold]
    cases e.fold values <;> rfl
  | rule s body n => foldAll_uses_map_fst values.enter body
  | ifClause c body n => by
    rw [fold]
    cases c.fold values with
    | error fault => rfl
    | ok v => exact congrArg (Use.condition :: ·) (foldAll_uses_map_fst values body)

theorem foldAll_uses_map_fst (values : Values) : (ss : List Stmt) →
    (allUses (foldAll values ss).tree).map Prod.fst = (allUses ss).map Prod.fst
  | [] => rfl
  | s :: ss => by
    have hs := fold_uses_map_fst values s
    cases hf : (s.fold values).fault? with
    | some fault => rw [foldAll_cons_of_fault hf, allUses, allUses, List.map_append, List.map_append, hs]
    | none =>
      rw [foldAll_cons_of_no_fault hf, allUses, allUses, List.map_append, List.map_append, hs,
        foldAll_uses_map_fst _ ss]

end

end Stmt

namespace Stylesheet

def uses (sheet : Stylesheet) : List (Use × Expr) := Stmt.allUses sheet.body

variable {sheet : Stylesheet} {i : Nat} {u : Use} {e e' : Expr}

theorem uses_map_snd (sheet : Stylesheet) : sheet.uses.map Prod.snd = sheet.expressions :=
  Stmt.allUses_map_snd sheet.body

theorem fold_uses_map_fst (sheet : Stylesheet) : sheet.fold.tree.uses.map Prod.fst = sheet.uses.map Prod.fst :=
  Stmt.foldAll_uses_map_fst .empty sheet.body

theorem expressions_of_uses (h : sheet.uses[i]? = some (u, e)) : sheet.expressions[i]? = some e := by
  rw [← uses_map_snd, List.getElem?_map, h, Option.map_some]

/-- What stands in a slot after folding is there for the same use as before. -/
theorem uses_of_fold (h : sheet.uses[i]? = some (u, e)) (he : sheet.fold.tree.expressions[i]? = some e') :
    sheet.fold.tree.uses[i]? = some (u, e') := by
  rw [← uses_map_snd, List.getElem?_map] at he
  obtain ⟨⟨w, e''⟩, hw, rfl⟩ := Option.map_eq_some_iff.1 he
  have hfst : sheet.fold.tree.uses[i]?.map Prod.fst = sheet.uses[i]?.map Prod.fst := by
    rw [← List.getElem?_map, ← List.getElem?_map, fold_uses_map_fst]
  rw [h, hw] at hfst
  obtain rfl : w = u := Option.some.inj hfst
  exact hw

end Stylesheet

end TypedCss
