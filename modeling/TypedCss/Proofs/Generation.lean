import TypedCss.Css
import TypedCss.Proofs.Slots

/-!
# Writing folded stylesheets

A stylesheet with a literal in every slot has CSS.
-/

namespace TypedCss

theorem Expr.IsLiteral.exists_finalValue {e : Expr} (h : e.IsLiteral) : ∃ v, e.finalValue = .ok v := by
  obtain ⟨v, n, rfl⟩ := h
  exact ⟨v, rfl⟩

theorem mapM_finalValue_ok (ds : List (String × Expr)) (h : ∀ d ∈ ds, d.2.IsLiteral) :
    ∃ ls, (ds.mapM fun d => return (d.1, ← d.2.finalValue) : Except Fault (List (String × Value))) = .ok ls := by
  induction ds with
  | nil => exact ⟨[], rfl⟩
  | cons d ds ih =>
    obtain ⟨v, hv⟩ := (h d List.mem_cons_self).exists_finalValue
    obtain ⟨ls, hls⟩ := ih fun d hd => h d (List.mem_cons_of_mem _ hd)
    refine ⟨(d.1, v) :: ls, ?_⟩
    rw [List.mapM_cons, hv, hls]
    rfl

namespace Stmt

mutual

theorem declarations_ok_of_literals : (s : Stmt) → (∀ e ∈ s.expressions, e.IsLiteral) →
    ∃ ds, s.declarations = .ok ds ∧ ∀ d ∈ ds, d.2.IsLiteral
  | assignment .., _ => ⟨[], rfl, by simp⟩
  | declaration p e n, h => ⟨[(p, e)], rfl, by simpa [expressions] using h⟩
  | rule .., _ => ⟨[], rfl, by simp⟩
  | ifClause c body n, h => by
    obtain ⟨hc, hbody⟩ := List.forall_mem_cons.1 h
    obtain ⟨v, hv⟩ := hc.exists_finalValue
    rw [declarations, hv]
    by_cases ht : v = .flag true
    · simpa [ht, bind, Except.bind] using allDeclarations_ok_of_literals body hbody
    · exact ⟨[], by simp [ht, bind, Except.bind, pure, Except.pure], by simp⟩

theorem allDeclarations_ok_of_literals : (ss : List Stmt) → (∀ e ∈ allExpressions ss, e.IsLiteral) →
    ∃ ds, allDeclarations ss = .ok ds ∧ ∀ d ∈ ds, d.2.IsLiteral
  | [], _ => ⟨[], rfl, by simp⟩
  | s :: ss, h => by
    obtain ⟨hs, hss⟩ := List.forall_mem_append.1 h
    obtain ⟨ds, hds, hlit⟩ := declarations_ok_of_literals s hs
    obtain ⟨es, hes, hlits⟩ := allDeclarations_ok_of_literals ss hss
    refine ⟨ds ++ es, ?_, List.forall_mem_append.2 ⟨hlit, hlits⟩⟩
    rw [allDeclarations, hds, hes]
    rfl

end

theorem lines_ok_of_literals {body : List Stmt} (h : ∀ e ∈ allExpressions body, e.IsLiteral) :
    ∃ ls, lines body = .ok ls := by
  obtain ⟨ds, hds, hlit⟩ := allDeclarations_ok_of_literals body h
  obtain ⟨ls, hls⟩ := mapM_finalValue_ok ds hlit
  refine ⟨ls, ?_⟩
  rw [lines, hds]
  exact hls

mutual

theorem blocks_ok_of_literals (outer : List Selector) : (s : Stmt) → (∀ e ∈ s.expressions, e.IsLiteral) →
    ∃ bs, s.blocks outer = .ok bs
  | assignment .., _ => ⟨[], rfl⟩
  | declaration .., _ => ⟨[], rfl⟩
  | rule s body n, h => by
    obtain ⟨ls, hls⟩ := lines_ok_of_literals h
    obtain ⟨bs, hbs⟩ := allBlocks_ok_of_literals (outer ++ [s]) body h
    refine ⟨⟨outer ++ [s], ls⟩ :: bs, ?_⟩
    rw [blocks, hls]
    change (allBlocks (outer ++ [s]) body >>= _) = _
    rw [hbs]
    rfl
  | ifClause c body n, h => by
    obtain ⟨-, hbody⟩ := List.forall_mem_cons.1 h
    rw [blocks]
    by_cases hc : c.isTrue
    · rw [if_pos hc]
      exact allBlocks_ok_of_literals outer body hbody
    · exact ⟨[], if_neg hc⟩

theorem allBlocks_ok_of_literals (outer : List Selector) :
    (ss : List Stmt) → (∀ e ∈ allExpressions ss, e.IsLiteral) → ∃ bs, allBlocks outer ss = .ok bs
  | [], _ => ⟨[], rfl⟩
  | s :: ss, h => by
    obtain ⟨hs, hss⟩ := List.forall_mem_append.1 h
    obtain ⟨bs, hbs⟩ := blocks_ok_of_literals outer s hs
    obtain ⟨cs, hcs⟩ := allBlocks_ok_of_literals outer ss hss
    refine ⟨bs ++ cs, ?_⟩
    rw [allBlocks, hbs, hcs]
    rfl

end

end Stmt

theorem Stylesheet.css_ok_of_literals {sheet : Stylesheet} (h : ∀ e ∈ sheet.expressions, e.IsLiteral) :
    ∃ text, sheet.css = .ok text := by
  have hrules : ∀ e ∈ Stmt.allExpressions (sheet.body.filter Stmt.isRule), e.IsLiteral := by
    intro e he
    obtain ⟨s, hs, he⟩ := Stmt.mem_allExpressions.1 he
    exact h e (Stmt.mem_allExpressions.2 ⟨s, (List.mem_filter.1 hs).1, he⟩)
  obtain ⟨bs, hbs⟩ := Stmt.allBlocks_ok_of_literals [] _ hrules
  refine ⟨Css.text bs, ?_⟩
  rw [css, blocks, hbs]
  rfl

end TypedCss
