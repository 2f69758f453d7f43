import TypedCss.Css
import TypedCss.Proofs.Walk

/-!
# Assignments stay in their rule

Whatever stands in a rule, the same variables are in sight after it as before it. Only a statement that assigns
a variable outside the rules nested in it changes what is in sight.
-/

namespace TypedCss

namespace Scopes

variable {α : Type} {s outer : Scopes α}

/-- The outer scopes and one more, which is the innermost. -/
def Extends (s outer : Scopes α) : Prop := ∃ frame, s = ⟨frame :: outer.inner, outer.global⟩

theorem extends_enter (s : Scopes α) : s.enter.Extends s := ⟨[], rfl⟩

theorem Extends.declare (h : s.Extends outer) (name : String) (a : α) : (s.declare name a).Extends outer := by
  obtain ⟨frame, rfl⟩ := h
  exact ⟨(name, a) :: frame, rfl⟩

theorem Extends.leave_eq (h : s.Extends outer) : s.leave = outer := by
  obtain ⟨frame, rfl⟩ := h
  rfl

end Scopes

namespace Stmt

mutual

/-- Whether the statement assigns a variable outside the rules nested in it. -/
def assigns : Stmt → Bool
  | assignment .. => true
  | declaration .. => false
  | rule .. => false
  | ifClause _ body _ => anyAssigns body

def anyAssigns : List Stmt → Bool
  | [] => false
  | s :: ss => s.assigns || anyAssigns ss

end

theorem not_assigns_of_isRule {s : Stmt} (h : s.isRule) : s.assigns = false := by
  cases s with
  | rule => rfl
  | _ => cases h

variable {α : Type} {pass : Pass α}

theorem walkAll_cons_eq_some {scopes next : Scopes α} {s : Stmt} {ss : List Stmt}
    (h : (walkAll pass scopes (s :: ss)).after? = some next) :
    ∃ middle, (s.walk pass scopes).after? = some middle ∧ (walkAll pass middle ss).after? = some next := by
  cases hs : (s.walk pass scopes).after? with
  | none =>
    rw [walkAll_cons_of_stop hs, hs] at h
    cases h
  | some middle =>
    rw [walkAll_cons_of_after hs] at h
    exact ⟨middle, rfl, h⟩

theorem walk_ifClause_eq_some {scopes next : Scopes α} {c : Expr} {body : List Stmt} {n : Note}
    (h : ((ifClause c body n).walk pass scopes).after? = some next) :
    (walkAll pass scopes body).after? = some next := by
  rw [walk] at h
  cases hc : pass scopes c with
  | none =>
    rw [hc] at h
    cases h
  | some a =>
    rw [hc] at h
    exact h

mutual

theorem walk_extends {outer scopes next : Scopes α} (h : scopes.Extends outer) : (s : Stmt) →
    (s.walk pass scopes).after? = some next → next.Extends outer
  | assignment x e n, hnext => by
    obtain ⟨a, -, rfl⟩ := Option.map_eq_some_iff.1 hnext
    exact h.declare x a
  | declaration p e n, hnext => by
    obtain ⟨a, -, rfl⟩ := Option.map_eq_some_iff.1 hnext
    exact h
  | rule s body n, hnext => by
    obtain ⟨inner, hinner, rfl⟩ := Option.map_eq_some_iff.1 hnext
    rwa [(walkAll_extends scopes.extends_enter body hinner).leave_eq]
  | ifClause c body n, hnext => walkAll_extends h body (walk_ifClause_eq_some hnext)

theorem walkAll_extends {outer scopes next : Scopes α} (h : scopes.Extends outer) : (ss : List Stmt) →
    (walkAll pass scopes ss).after? = some next → next.Extends outer
  | [], hnext => by
    obtain rfl := Option.some.inj hnext
    exact h
  | s :: ss, hnext => by
    obtain ⟨middle, hs, hss⟩ := walkAll_cons_eq_some hnext
    exact walkAll_extends (walk_extends h s hs) ss hss

end

/-- After a rule the same variables are in sight as before it. -/
theorem walk_rule_after {scopes next : Scopes α} {s : Selector} {body : List Stmt} {n : Note}
    (h : ((rule s body n).walk pass scopes).after? = some next) : next = scopes := by
  obtain ⟨inner, hinner, rfl⟩ := Option.map_eq_some_iff.1 h
  exact (walkAll_extends scopes.extends_enter body hinner).leave_eq

mutual

theorem walk_of_not_assigns {scopes next : Scopes α} : (s : Stmt) → s.assigns = false →
    (s.walk pass scopes).after? = some next → next = scopes
  | assignment .., h, _ => by cases h
  | declaration .., _, hnext => by
    obtain ⟨a, -, rfl⟩ := Option.map_eq_some_iff.1 hnext
    rfl
  | rule .., _, hnext => walk_rule_after hnext
  | ifClause _ body _, h, hnext => walkAll_of_not_assigns body h (walk_ifClause_eq_some hnext)

theorem walkAll_of_not_assigns {scopes next : Scopes α} : (ss : List Stmt) → anyAssigns ss = false →
    (walkAll pass scopes ss).after? = some next → next = scopes
  | [], _, hnext => (Option.some.inj hnext).symm
  | s :: ss, h, hnext => by
    obtain ⟨hs, hss⟩ := Bool.or_eq_false_iff.1 h
    obtain ⟨middle, hmiddle, hrest⟩ := walkAll_cons_eq_some hnext
    obtain rfl := walk_of_not_assigns s hs hmiddle
    exact walkAll_of_not_assigns ss hss hrest

end

/-- The checker has the same types in sight after a statement without assignments of its own. -/
theorem check_types_of_not_assigns (types : Types) {s : Stmt} (h : s.assigns = false) :
    (s.check types).2 = types :=
  walk_of_not_assigns s h (walk_typing_after types s)

theorem fold_values_of_not_assigns {values : Values} {s : Stmt} (h : s.assigns = false)
    (hfault : (s.fold values).fault? = none) : (s.fold values).values = values := by
  have hafter := walk_folding_after values s
  rw [hfault] at hafter
  exact walk_of_not_assigns s h hafter

end Stmt

end TypedCss
