import TypedCss.Proofs.Lockstep
import TypedCss.Proofs.Scoping
import TypedCss.Proofs.Uses

/-!
# Folding preserves types

Where folding meets no fault, the checker holds at every slot the types of the values that the folder holds
there. The literal that folding leaves in a slot therefore has the type that the checker gives to the
expression it replaces.
-/

namespace TypedCss

namespace Stylesheet

variable {sheet : Stylesheet} {i : Nat} {use : Use} {e : Expr}

theorem typings_eq_map_foldings (h : sheet.fold.fault? = none) :
    sheet.typings = sheet.foldings.map (Visit.map Value.type) :=
  congrArg Walk.visits (Stmt.walkAll_typing_of_foldAll .empty sheet.body h)

theorem typesAt?_eq_map_valuesAt? (h : sheet.fold.fault? = none) (i : Nat) :
    sheet.typesAt? i = (sheet.valuesAt? i).map (Scopes.map Value.type) := by
  rw [typesAt?, typings_eq_map_foldings h, List.getElem?_map, valuesAt?, Option.map_map, Option.map_map]
  rfl

theorem slots_of_expressions (h : sheet.expressions[i]? = some e) :
    ∃ slot, sheet.slots[i]? = some slot ∧ slot.value = e := by
  rw [← slots_map_value, List.getElem?_map] at h
  exact Option.map_eq_some_iff.1 h

/-- Folding without a fault comes to every slot and leaves the value of the expression in it. -/
theorem literal_of_use (h : sheet.fold.fault? = none) (he : sheet.uses[i]? = some (use, e)) :
    ∃ values v n, sheet.valuesAt? i = some values ∧ e.eval values = .ok v ∧
      sheet.fold.tree.uses[i]? = some (use, .literal v n) := by
  have hexpr := expressions_of_uses he
  cases hv : sheet.foldings[i]? with
  | none =>
    obtain ⟨j, -, v, fault, -, -, hfault⟩ := sheet.fold_expressions.stops_before hexpr hv
    rw [h] at hfault
    cases hfault
  | some visit =>
    obtain ⟨e', he', ⟨v, n, heval, -, hfolded⟩ | ⟨fault, -, -, hfault⟩⟩ := sheet.fold_expressions.visit hv
    · obtain rfl := Option.some.inj (hexpr.symm.trans he')
      have hvalues : sheet.valuesAt? i = some visit.scopes := by rw [valuesAt?, hv, Option.map_some]
      exact ⟨visit.scopes, v, n, hvalues, heval, uses_of_fold he hfolded⟩
    · rw [h] at hfault
      cases hfault

/-- The types in sight at a slot, and the literal that folding leaves in it. -/
theorem typed_literal_of_use (h : sheet.fold.fault? = none) (he : sheet.uses[i]? = some (use, e)) :
    ∃ types v n, sheet.typesAt? i = some types ∧ e.type types = v.type ∧
      sheet.fold.tree.uses[i]? = some (use, .literal v n) := by
  obtain ⟨values, v, n, hvalues, heval, hfolded⟩ := literal_of_use h he
  refine ⟨values.map Value.type, v, n, ?_, Expr.type_of_eval_eq_ok heval, hfolded⟩
  rw [typesAt?_eq_map_valuesAt? h, hvalues, Option.map_some]

end Stylesheet

/-- Where folding meets no fault, at each slot the checker holds the types of the values that the folder
holds, and the literal left in the slot has the type that the checker gives to the expression there. What
else the checker finds wrong does not matter. -/
theorem folding_preserves_types {sheet : Stylesheet} (h : sheet.fold.fault? = none) {i : Nat} {use : Use}
    {e : Expr} (he : sheet.uses[i]? = some (use, e)) :
    ∃ types values v n, sheet.typesAt? i = some types ∧ sheet.check.expressions[i]? = some (e.check types) ∧
      sheet.valuesAt? i = some values ∧ types = values.map Value.type ∧
      sheet.fold.tree.uses[i]? = some (use, .literal v n) ∧ e.type types = v.type := by
  obtain ⟨values, v, n, hvalues, heval, hfolded⟩ := Stylesheet.literal_of_use h he
  have htypes : sheet.typesAt? i = some (values.map Value.type) := by
    rw [Stylesheet.typesAt?_eq_map_valuesAt? h, hvalues, Option.map_some]
  obtain ⟨slot, hslot, rfl⟩ := Stylesheet.slots_of_expressions (Stylesheet.expressions_of_uses he)
  have hchecked := (Stylesheet.check_at_slot hslot htypes).1
  exact ⟨_, values, v, n, htypes, hchecked, hvalues, rfl, hfolded, Expr.type_of_eval_eq_ok heval⟩

/-- The variable changes its type twice in the rule, and the checker finds four misfits. -/
theorem folding_preserves_types_retyped :
    let n : Note := .clear .nowhere
    let x : Expr := .reference "X" n
    let clause : Stmt := .ifClause x [.assignment "X" (.literal (.flag true) n) n,
      .rule (.tag "p") [.declaration "width" x n] n] n
    let sheet : Stylesheet := ⟨[.assignment "X" (.literal (.number .pixel 5) n) n,
      .rule (.tag "a") [.declaration "color" x n, .assignment "X" (.literal (.number .percentage 50) n) n, clause,
        .declaration "height" x n] n], .nowhere⟩
    sheet.check.diagnostics.length = 4 ∧ sheet.fold.fault? = none ∧
      sheet.uses[6]? = some (.declared "height", x) ∧
      ∃ types values v m, sheet.typesAt? 6 = some types ∧ sheet.check.expressions[6]? = some (x.check types) ∧
        sheet.valuesAt? 6 = some values ∧ types = values.map Value.type ∧
        sheet.fold.tree.uses[6]? = some (.declared "height", .literal v m) ∧ x.type types = v.type := by
  intro n x clause sheet
  have hfold : sheet.fold.fault? = none := by decide
  have huse : sheet.uses[6]? = some (.declared "height", x) := by decide
  exact ⟨by decide +kernel, hfold, huse, folding_preserves_types hfold huse⟩

end TypedCss
