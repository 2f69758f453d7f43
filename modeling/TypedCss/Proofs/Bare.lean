import TypedCss.Proofs.Derivation
import TypedCss.Proofs.Emission

/-!
# Bare stylesheets

A bare stylesheet has top-level rules only, without assignments, without the bodies of if clauses that do not
hold, and without notes. Nothing of what it leaves out has a part in the text.
-/

namespace TypedCss

/-- The expression without notes. -/
def Expr.bare : Expr → Expr
  | literal v _ => literal v .plain
  | reference x _ => reference x .plain
  | operation op l r _ => operation op l.bare r.bare .plain

theorem Expr.bare_value? (e : Expr) : e.bare.value? = e.value? := by
  cases e <;> rfl

theorem Expr.bare_isTrue (e : Expr) : e.bare.isTrue = e.isTrue := by
  rw [isTrue, bare_value?, isTrue]

namespace Stmt

mutual

/-- What is left of the statement: no notes, no assignments, no bodies of if clauses that do not hold. -/
def bare : Stmt → List Stmt
  | assignment .. => []
  | declaration p e _ => [declaration p e.bare .plain]
  | rule s body _ => [rule s (allBare body) .plain]
  | ifClause c body _ => [ifClause c.bare (if c.isTrue then allBare body else []) .plain]

def allBare : List Stmt → List Stmt
  | [] => []
  | s :: ss => s.bare ++ allBare ss

end

end Stmt

def Stylesheet.bare (sheet : Stylesheet) : List Stmt := Stmt.allBare (sheet.body.filter Stmt.isRule)

section

variable {ε α β : Type}

theorem toOption_bind (x : Except ε α) (f : α → Except ε β) :
    (x >>= f).toOption = x.toOption.bind fun a => (f a).toOption := by
  cases x <;> rfl

theorem toOption_eq_some {x : Except ε α} {a : α} : x.toOption = some a ↔ x = .ok a := by
  cases x <;> simp [Except.toOption]

end

theorem Expr.toOption_finalValue (e : Expr) : e.finalValue.toOption = e.value? := by
  cases e <;> rfl

namespace Stmt

theorem allDeclarations_cons (s : Stmt) (ss : List Stmt) : (allDeclarations (s :: ss)).toOption =
    s.declarations.toOption.bind fun ds => (allDeclarations ss).toOption.map (ds ++ ·) := by
  rw [allDeclarations, toOption_bind]
  cases s.declarations <;> cases allDeclarations ss <;> rfl

theorem allDeclarations_append (ss ts : List Stmt) : (allDeclarations (ss ++ ts)).toOption =
    (allDeclarations ss).toOption.bind fun ds => (allDeclarations ts).toOption.map (ds ++ ·) := by
  induction ss with
  | nil => cases h : allDeclarations ts <;> simp [h, allDeclarations, Except.toOption]
  | cons s ss ih =>
    rw [List.cons_append, allDeclarations_cons, allDeclarations_cons, ih]
    cases s.declarations.toOption <;> cases (allDeclarations ss).toOption <;>
      cases (allDeclarations ts).toOption <;> simp

theorem allBlocks_cons (outer : List Selector) (s : Stmt) (ss : List Stmt) :
    (allBlocks outer (s :: ss)).toOption =
      (s.blocks outer).toOption.bind fun bs => (allBlocks outer ss).toOption.map (bs ++ ·) := by
  rw [allBlocks, toOption_bind]
  cases s.blocks outer <;> cases allBlocks outer ss <;> rfl

theorem allBlocks_append (outer : List Selector) (ss ts : List Stmt) :
    (allBlocks outer (ss ++ ts)).toOption =
      (allBlocks outer ss).toOption.bind fun bs => (allBlocks outer ts).toOption.map (bs ++ ·) := by
  induction ss with
  | nil => cases h : allBlocks outer ts <;> simp [h, allBlocks, Except.toOption]
  | cons s ss ih =>
    rw [List.cons_append, allBlocks_cons, allBlocks_cons, ih]
    cases (s.blocks outer).toOption <;> cases (allBlocks outer ss).toOption <;>
      cases (allBlocks outer ts).toOption <;> simp

/-- The declaration without notes. -/
def bareDeclaration (d : String × Expr) : String × Expr := (d.1, d.2.bare)

theorem allDeclarations_singleton (s : Stmt) : (allDeclarations [s]).toOption = s.declarations.toOption := by
  rw [allDeclarations_cons]
  cases s.declarations <;> simp [allDeclarations, Except.toOption]

theorem allBlocks_singleton (outer : List Selector) (s : Stmt) :
    (allBlocks outer [s]).toOption = (s.blocks outer).toOption := by
  rw [allBlocks_cons]
  cases s.blocks outer <;> simp [allBlocks, Except.toOption]

theorem declarations_ifClause (c : Expr) (body : List Stmt) (n : Note) :
    (ifClause c body n).declarations.toOption = c.value?.bind fun _ =>
      if c.isTrue then (allDeclarations body).toOption else some [] := by
  rw [declarations, toOption_bind, Expr.toOption_finalValue, Expr.isTrue]
  cases c.value? with
  | none => rfl
  | some v =>
    simp only [Option.bind_some, beq_iff_eq, Option.some.injEq]
    split <;> rfl

theorem blocks_ifClause (outer : List Selector) (c : Expr) (body : List Stmt) (n : Note) :
    ((ifClause c body n).blocks outer).toOption =
      if c.isTrue then (allBlocks outer body).toOption else some [] := by
  rw [blocks]
  split <;> rfl

mutual

theorem declarations_bare : (s : Stmt) →
    (allDeclarations s.bare).toOption = s.declarations.toOption.map (List.map bareDeclaration)
  | assignment .. => rfl
  | declaration .. => rfl
  | rule .. => rfl
  | ifClause c body n => by
    rw [bare, allDeclarations_singleton, declarations_ifClause, declarations_ifClause, Expr.bare_value?,
      Expr.bare_isTrue]
    by_cases hc : c.isTrue
    · simp only [if_pos hc, allDeclarations_bare body, Option.map_bind]
      rfl
    · simp only [if_neg hc, Option.map_bind]
      rfl

theorem allDeclarations_bare : (ss : List Stmt) →
    (allDeclarations (allBare ss)).toOption = (allDeclarations ss).toOption.map (List.map bareDeclaration)
  | [] => rfl
  | s :: ss => by
    rw [allBare, allDeclarations_append, declarations_bare s, allDeclarations_bare ss, allDeclarations_cons]
    cases s.declarations.toOption <;> cases (allDeclarations ss).toOption <;> simp

end

theorem lines_bare (body : List Stmt) : (lines (allBare body)).toOption = (lines body).toOption := by
  rw [lines, lines, toOption_bind, toOption_bind, allDeclarations_bare]
  cases (allDeclarations body).toOption with
  | none => rfl
  | some ds =>
    rw [Option.map_some, Option.bind_some, Option.bind_some]
    induction ds with
    | nil => rfl
    | cons d ds ih =>
      rw [List.map_cons, List.mapM_cons, List.mapM_cons, toOption_bind, toOption_bind, toOption_bind,
        toOption_bind, Expr.toOption_finalValue, Expr.toOption_finalValue, bareDeclaration, Expr.bare_value?]
      simp only [toOption_bind, ih]

mutual

theorem blocks_bare (outer : List Selector) : (s : Stmt) →
    (allBlocks outer s.bare).toOption = (s.blocks outer).toOption
  | assignment .. => rfl
  | declaration .. => rfl
  | rule s body n => by
    rw [bare, allBlocks_singleton, blocks, blocks, toOption_bind, toOption_bind, lines_bare]
    simp only [toOption_bind, allBlocks_bare (outer ++ [s]) body]
  | ifClause c body n => by
    rw [bare, allBlocks_singleton, blocks_ifClause, blocks_ifClause, Expr.bare_isTrue]
    by_cases hc : c.isTrue
    · simp only [if_pos hc, allBlocks_bare outer body]
    · simp only [if_neg hc]

theorem allBlocks_bare (outer : List Selector) : (ss : List Stmt) →
    (allBlocks outer (allBare ss)).toOption = (allBlocks outer ss).toOption
  | [] => rfl
  | s :: ss => by
    rw [allBare, allBlocks_append, blocks_bare outer s, allBlocks_bare outer ss, allBlocks_cons]

end

end Stmt

/-- Stylesheets with the same bare stylesheet are written out as the same text. -/
theorem Stylesheet.css_of_bare {sheet other : Stylesheet} {text : String} (h : sheet.css = .ok text)
    (hbare : other.bare = sheet.bare) : other.css = .ok text := by
  rw [← toOption_eq_some] at h ⊢
  rw [css, toOption_bind, blocks, ← Stmt.allBlocks_bare] at h ⊢
  rw [bare, bare] at hbare
  rwa [hbare]

end TypedCss
