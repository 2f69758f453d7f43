import TypedCss.Proofs.BindingSite

/-!
# What names stand for

In every slot the checker types a name by its binding site, and the folder replaces it by the value left
there. Both report a name that has no binding site.
-/

namespace TypedCss

def Expr.references : Expr → List (String × Note)
  | literal .. => []
  | reference x n => [(x, n)]
  | operation _ l r _ => l.references ++ r.references

theorem Expr.references_check (types : Types) (e : Expr) :
    (e.check types).references = e.references.map fun r =>
      (r.1, r.2.report (if (types.resolve? r.1).isNone then some (.undefinedVariable r.1) else none)) := by
  induction e with
  | literal v n => rfl
  | reference x n => rfl
  | operation op l r n ihl ihr => rw [check, references, references, ihl, ihr, List.map_append]

namespace FoldsTo

variable {vs : List (Visit Value)} {es folded : List Expr} {fault? : Option Fault}

/-- A slot that the folder comes to holds the value of its expression afterwards, or the folder stops there
with a fault. -/
theorem visit (h : FoldsTo vs es folded fault?) {i : Nat} {v : Visit Value} (hv : vs[i]? = some v) :
    ∃ e, es[i]? = some e ∧
      ((∃ a n, e.eval v.scopes = .ok a ∧ v.made? = some a ∧ folded[i]? = some (.literal a n)) ∨
        ∃ fault, e.eval v.scopes = .error fault ∧ v.made? = none ∧ fault? = some fault) := by
  induction h generalizing i with
  | nil => simp at hv
  | @stop values e fault es h =>
    obtain ⟨rfl, rfl⟩ : i = 0 ∧ _ = v := by simpa [List.getElem?_singleton] using hv
    exact ⟨e, rfl, .inr ⟨fault, h, rfl, rfl⟩⟩
  | @next values e a vs es folded fault? n h _ ih =>
    cases i with
    | zero =>
      obtain rfl := Option.some.inj hv
      exact ⟨e, rfl, .inl ⟨a, n, h, rfl, rfl⟩⟩
    | succ i => exact ih hv

theorem stops_before (h : FoldsTo vs es folded fault?) {i : Nat} {e : Expr} (he : es[i]? = some e)
    (hv : vs[i]? = none) :
    ∃ j < i, ∃ v fault, vs[j]? = some v ∧ v.made? = none ∧ fault? = some fault := by
  induction h generalizing i with
  | nil => simp at he
  | @stop values e' fault es h =>
    cases i with
    | zero => simp at hv
    | succ i => exact ⟨0, Nat.succ_pos i, _, fault, rfl, rfl, rfl⟩
  | next n h _ ih =>
    cases i with
    | zero => simp at hv
    | succ i =>
      obtain ⟨j, hj, v, fault, hvj, hmade, hfault⟩ := ih he hv
      exact ⟨j + 1, Nat.succ_lt_succ hj, v, fault, hvj, hmade, hfault⟩

end FoldsTo

namespace Stylesheet

variable (sheet : Stylesheet)

/-- The slots that the checker comes to. -/
def typings : List (Visit ValueType) := (Stmt.walkAll .typing .empty sheet.body).visits

/-- The slots that the folder comes to. -/
def foldings : List (Visit Value) := (Stmt.walkAll .folding .empty sheet.body).visits

/-- The types that the checker holds at slot `i`. -/
def typesAt? (i : Nat) : Option Types := sheet.typings[i]?.map Visit.scopes

/-- The values that the folder holds at slot `i`, if it comes to it. -/
def valuesAt? (i : Nat) : Option Values := sheet.foldings[i]?.map Visit.scopes

/-- The type that the checker infers for the expression in slot `i`. -/
def typeAt? (i : Nat) : Option ValueType :=
  sheet.slots[i]?.bind fun slot => (sheet.typesAt? i).map slot.value.type

/-- The value that folding leaves in slot `i`. -/
def valueAt? (i : Nat) : Option Value := sheet.fold.tree.expressions[i]?.bind Expr.value?

variable {sheet} {i : Nat} {slot : Slot}

theorem expressions_of_slots (h : sheet.slots[i]? = some slot) : sheet.expressions[i]? = some slot.value := by
  rw [← slots_map_value, List.getElem?_map, h, Option.map_some]

theorem length_typings : sheet.typings.length = sheet.expressions.length :=
  Stmt.length_walkAll_typing .empty sheet.body

theorem exists_typing (h : sheet.slots[i]? = some slot) : ∃ v, sheet.typings[i]? = some v := by
  obtain ⟨hlt, -⟩ := List.getElem?_eq_some_iff.1 (expressions_of_slots h)
  rw [← length_typings] at hlt
  exact ⟨_, List.getElem?_eq_getElem hlt⟩

theorem follows {α : Type} (pass : Pass α) :
    ∃ after?, Follows pass [] sheet.slots (Stmt.walkAll pass .empty sheet.body).visits after? := by
  have hopened : Past.Opened ([] : Past α) [] 0 := ⟨List.nodup_nil, by simp, by simp⟩
  obtain ⟨after?, h, -⟩ := Stmt.walkAll_follows pass hopened sheet.body
  exact ⟨after?, h⟩

theorem typeAt?_of_typing {v : Visit ValueType} (hv : sheet.typings[i]? = some v) :
    v.made? = sheet.typeAt? i := by
  obtain ⟨after?, hfollows⟩ := sheet.follows .typing
  obtain ⟨history, hvisit, -⟩ := hfollows.exists_history
  obtain ⟨-, slot, hslot, hmade, -⟩ := hvisit i v hv
  rw [hmade, typeAt?, typesAt?, hslot, hv]
  rfl

theorem valueAt?_of_folding {v : Visit Value} {a : Value} (hv : sheet.foldings[i]? = some v)
    (ha : v.made? = some a) : sheet.valueAt? i = some a := by
  obtain ⟨e, -, ⟨b, n, -, hb, hfolded⟩ | ⟨fault, -, hmade, -⟩⟩ := sheet.fold_expressions.visit hv
  · rw [ha] at hb
    obtain rfl := Option.some.inj hb
    rw [valueAt?, hfolded]
    rfl
  · rw [ha] at hmade
    cases hmade

theorem resolve?_of_visit {α : Type} {pass : Pass α} {left? : Nat → Option α} {v : Visit α}
    (hleft : ∀ {j : Nat} {w : Visit α} {a : α},
      (Stmt.walkAll pass .empty sheet.body).visits[j]? = some w → w.made? = some a → left? j = some a)
    (hv : (Stmt.walkAll pass .empty sheet.body).visits[i]? = some v) (x : String) :
    match bindingSite? sheet.slots i x with
    | none => v.scopes.resolve? x = none
    | some j => ∃ a, left? j = some a ∧ v.scopes.resolve? x = some a := by
  obtain ⟨after?, hfollows⟩ := sheet.follows pass
  have hresolve := hfollows.resolve?_eq hv x
  cases hsite : bindingSite? sheet.slots i x with
  | none => rw [hresolve, hsite, Option.bind_none]
  | some j =>
    obtain ⟨w, a, hw, ha⟩ := hfollows.made_before hv (bindingSite?_lt hsite)
    refine ⟨a, hleft hw ha, ?_⟩
    rw [hresolve, hsite, Option.bind_some, hw, Option.bind_some, ha]

theorem resolve?_typing {v : Visit ValueType} (hv : sheet.typings[i]? = some v) (x : String) :
    match bindingSite? sheet.slots i x with
    | none => v.scopes.resolve? x = none
    | some j => ∃ t, sheet.typeAt? j = some t ∧ v.scopes.resolve? x = some t := by
  apply resolve?_of_visit ?_ hv x
  intro j w t hw ht
  rw [← typeAt?_of_typing hw, ht]

theorem resolve?_folding {v : Visit Value} (hv : sheet.foldings[i]? = some v) (x : String) :
    match bindingSite? sheet.slots i x with
    | none => v.scopes.resolve? x = none
    | some j => ∃ a, sheet.valueAt? j = some a ∧ v.scopes.resolve? x = some a := by
  apply resolve?_of_visit ?_ hv x
  intro j w a hw ha
  exact valueAt?_of_folding hw ha

theorem valuesAt?_eq_none (hslot : sheet.slots[i]? = some slot) (h : sheet.valuesAt? i = none) :
    ∃ j < i, ∃ earlier values fault, sheet.slots[j]? = some earlier ∧ sheet.valuesAt? j = some values ∧
      earlier.value.eval values = .error fault ∧ sheet.fold.fault? = some fault := by
  obtain ⟨after?, hfollows⟩ := sheet.follows .folding
  obtain ⟨history, hvisit, -⟩ := hfollows.exists_history
  have hstops := sheet.fold_expressions.stops_before (expressions_of_slots hslot) (Option.map_eq_none_iff.1 h)
  obtain ⟨j, hj, v, fault, hv, hmade, hfault⟩ := hstops
  obtain ⟨-, earlier, hearlier, -, -⟩ := hvisit j v hv
  obtain ⟨e, he, ⟨a, n, -, ha, -⟩ | ⟨fault', herror, -, hfault'⟩⟩ := sheet.fold_expressions.visit hv
  · rw [hmade] at ha
    cases ha
  · rw [expressions_of_slots hearlier] at he
    obtain rfl := Option.some.inj he
    rw [hfault] at hfault'
    obtain rfl := Option.some.inj hfault'
    refine ⟨j, hj, earlier, v.scopes, fault, hearlier, ?_, herror, hfault⟩
    rw [valuesAt?, foldings, hv, Option.map_some]

theorem check_at_slot {types : Types} (hslot : sheet.slots[i]? = some slot)
    (htypes : sheet.typesAt? i = some types) :
    sheet.check.expressions[i]? = some (slot.value.check types) ∧
    (slot.value.check types).references = slot.value.references.map fun r =>
      (r.1, if (bindingSite? sheet.slots i r.1).isNone then r.2.report (some (.undefinedVariable r.1)) else r.2) := by
  obtain ⟨v, hv, rfl⟩ := Option.map_eq_some_iff.1 htypes
  refine ⟨?_, ?_⟩
  · rw [typings] at hv
    rw [sheet.check_expressions, List.getElem?_zipWith, hv, expressions_of_slots hslot]
    rfl
  · rw [Expr.references_check]
    apply List.map_congr_left
    intro r _
    have hresolve := resolve?_typing hv r.1
    cases hsite : bindingSite? sheet.slots i r.1 with
    | none =>
      rw [hsite] at hresolve
      simp [hresolve]
    | some j =>
      rw [hsite] at hresolve
      obtain ⟨t, -, ht⟩ := hresolve
      simp [ht, Note.report_none]

theorem fold_at_slot {values : Values} (hslot : sheet.slots[i]? = some slot)
    (hvalues : sheet.valuesAt? i = some values) :
    match slot.value.eval values with
    | .ok v => ∃ n, sheet.fold.tree.expressions[i]? = some (.literal v n)
    | .error fault => sheet.fold.fault? = some fault := by
  obtain ⟨v, hv, rfl⟩ := Option.map_eq_some_iff.1 hvalues
  obtain ⟨e, he, hvisit⟩ := sheet.fold_expressions.visit hv
  rw [expressions_of_slots hslot] at he
  obtain rfl := Option.some.inj he
  rcases hvisit with ⟨a, n, ha, -, hfolded⟩ | ⟨fault, herror, -, hfault⟩
  · rw [ha]
    exact ⟨n, hfolded⟩
  · rw [herror]
    exact hfault

theorem type_reference {types : Types} (htypes : sheet.typesAt? i = some types) (x : String) (n : Note) :
    match bindingSite? sheet.slots i x with
    | none => (Expr.reference x n).type types = .undefined
    | some j => sheet.typeAt? j = some ((Expr.reference x n).type types) := by
  obtain ⟨v, hv, rfl⟩ := Option.map_eq_some_iff.1 htypes
  have hresolve := resolve?_typing hv x
  cases hsite : bindingSite? sheet.slots i x with
  | none =>
    rw [hsite] at hresolve
    simp [Expr.type, hresolve]
  | some j =>
    rw [hsite] at hresolve
    obtain ⟨t, hj, ht⟩ := hresolve
    simp [Expr.type, ht, hj]

theorem eval_reference {values : Values} (hvalues : sheet.valuesAt? i = some values) (x : String) (n : Note) :
    match bindingSite? sheet.slots i x with
    | none => (Expr.reference x n).eval values = .error ⟨.unassigned x, n.span.start⟩
    | some j => ∃ a, sheet.valueAt? j = some a ∧ (Expr.reference x n).eval values = .ok a := by
  obtain ⟨v, hv, rfl⟩ := Option.map_eq_some_iff.1 hvalues
  have hresolve := resolve?_folding hv x
  cases hsite : bindingSite? sheet.slots i x with
  | none =>
    rw [hsite] at hresolve
    exact Expr.eval_reference_eq_error.2 ⟨hresolve, rfl⟩
  | some j =>
    rw [hsite] at hresolve
    obtain ⟨a, hj, ha⟩ := hresolve
    exact ⟨a, hj, Expr.eval_reference_eq_ok.2 ha⟩

end Stylesheet

/-- A reference is an undefined variable if and only if it has no binding site. Otherwise the checker gives it
the type inferred at that site, and the folder the value left there. The folder comes to a slot unless it has
stopped at an earlier one, and stops at a reference without a binding site. -/
theorem names_stand_for_binding_sites {sheet : Stylesheet} {i : Nat} {slot : Slot}
    (hslot : sheet.slots[i]? = some slot) :
    (∃ types, sheet.typesAt? i = some types ∧
      sheet.check.expressions[i]? = some (slot.value.check types) ∧
      ((slot.value.check types).references = slot.value.references.map fun r =>
        (r.1, if (bindingSite? sheet.slots i r.1).isNone then r.2.report (some (.undefinedVariable r.1))
          else r.2)) ∧
      ∀ x n, match bindingSite? sheet.slots i x with
        | none => (Expr.reference x n).type types = .undefined
        | some j => sheet.typeAt? j = some ((Expr.reference x n).type types)) ∧
    (∀ values, sheet.valuesAt? i = some values →
      (match slot.value.eval values with
        | .ok v => ∃ n, sheet.fold.tree.expressions[i]? = some (.literal v n)
        | .error fault => sheet.fold.fault? = some fault) ∧
      ∀ x n, match bindingSite? sheet.slots i x with
        | none => (Expr.reference x n).eval values = .error ⟨.unassigned x, n.span.start⟩
        | some j => ∃ v, sheet.valueAt? j = some v ∧ (Expr.reference x n).eval values = .ok v) ∧
    (sheet.valuesAt? i = none → ∃ j < i, ∃ earlier values fault, sheet.slots[j]? = some earlier ∧
      sheet.valuesAt? j = some values ∧ earlier.value.eval values = .error fault ∧
      sheet.fold.fault? = some fault) := by
  obtain ⟨v, hv⟩ := Stylesheet.exists_typing hslot
  have htypes : sheet.typesAt? i = some v.scopes := by rw [Stylesheet.typesAt?, hv, Option.map_some]
  obtain ⟨hchecked, hreferences⟩ := Stylesheet.check_at_slot hslot htypes
  refine ⟨⟨v.scopes, htypes, hchecked, hreferences, Stylesheet.type_reference htypes⟩, ?_, ?_⟩
  · intro values hvalues
    exact ⟨Stylesheet.fold_at_slot hslot hvalues, Stylesheet.eval_reference hvalues⟩
  · exact Stylesheet.valuesAt?_eq_none hslot

/-- After the if clause the name stands for the assignment in it, in the nested rule for the global one. -/
theorem names_stand_for_binding_sites_nested :
    let n : Note := .clear .nowhere
    let px (k : Int32) : Expr := .literal (.number .pixel k) n
    let width : Stmt := .declaration "width" (.reference "X" n) n
    let sheet : Stylesheet := ⟨[.assignment "X" (px 1) n, .rule (.tag "a") [.assignment "X" (px 2) n,
      .rule (.tag "p") [width] n, .ifClause (.literal (.flag false) n) [.assignment "X" (px 3) n] n,
      width] n], .nowhere⟩
    sheet.slots[2]? = some ⟨.reference "X" n, [1, 0], none⟩ ∧ bindingSite? sheet.slots 2 "X" = some 0 ∧
      (∀ values, sheet.valuesAt? 2 = some values →
        ∃ v, sheet.valueAt? 0 = some v ∧ (Expr.reference "X" n).eval values = .ok v) ∧
    sheet.slots[5]? = some ⟨.reference "X" n, [0], none⟩ ∧ bindingSite? sheet.slots 5 "X" = some 4 ∧
      (∃ types, sheet.typesAt? 5 = some types ∧
        sheet.typeAt? 4 = some ((Expr.reference "X" n).type types)) := by
  intro n px width sheet
  have hnested : sheet.slots[2]? = some ⟨.reference "X" n, [1, 0], none⟩ := by decide
  have hglobal : bindingSite? sheet.slots 2 "X" = some 0 := by decide
  have hafter : sheet.slots[5]? = some ⟨.reference "X" n, [0], none⟩ := by decide
  have hclause : bindingSite? sheet.slots 5 "X" = some 4 := by decide
  refine ⟨hnested, hglobal, ?_, hafter, hclause, ?_⟩
  · intro values hvalues
    have heval := ((names_stand_for_binding_sites hnested).2.1 values hvalues).2 "X" n
    rw [hglobal] at heval
    exact heval
  · obtain ⟨types, htypes, -, -, htype⟩ := (names_stand_for_binding_sites hafter).1
    have htype := htype "X" n
    rw [hclause] at htype
    exact ⟨types, htypes, htype⟩

end TypedCss
