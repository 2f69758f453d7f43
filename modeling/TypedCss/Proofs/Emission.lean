import Mathlib.Data.List.Forall2
import TypedCss.Proofs.Soundness
import TypedCss.Proofs.Uses

/-!
# What is written

The lines of a block are declarations of the folded stylesheet, each at most once and in the order of the
source. A source compiles if and only if it is read, the checker finds nothing in it, and the folded
stylesheet is written out.
-/

namespace TypedCss

/-- The line that a declaration makes once its value is a literal. -/
def Use.line? : Use × Expr → Option (String × Value)
  | (.declared property, .literal v _) => some (property, v)
  | _ => none

/-- The declarations with literal values, at any depth. -/
def declaredLines (uses : List (Use × Expr)) : List (String × Value) := uses.filterMap Use.line?

theorem declaredLines_append (us ws : List (Use × Expr)) :
    declaredLines (us ++ ws) = declaredLines us ++ declaredLines ws :=
  List.filterMap_append

theorem except_bind_eq_ok {ε α β : Type} {x : Except ε α} {f : α → Except ε β} {b : β} :
    x >>= f = .ok b ↔ ∃ a, x = .ok a ∧ f a = .ok b := by
  cases x <;> simp [bind, Except.bind]

theorem Expr.finalValue_eq_ok {e : Expr} {v : Value} : e.finalValue = .ok v ↔ ∃ n, e = .literal v n := by
  cases e <;> simp [finalValue, value?]

/-- A declaration as the generator collects it. -/
def Use.ofDeclaration (d : String × Expr) : Use × Expr := (.declared d.1, d.2)

theorem declaredLines_of_mapM {ds : List (String × Expr)} {ls : List (String × Value)}
    (h : (ds.mapM fun d => return (d.1, ← d.2.finalValue) : Except Fault (List (String × Value))) = .ok ls) :
    declaredLines (ds.map Use.ofDeclaration) = ls := by
  induction ds generalizing ls with
  | nil => exact Except.ok.inj h
  | cons d ds ih =>
    rw [List.mapM_cons] at h
    obtain ⟨line, hline, h⟩ := except_bind_eq_ok.1 h
    obtain ⟨v, hv, hline⟩ := except_bind_eq_ok.1 hline
    obtain ⟨rest, hrest, h⟩ := except_bind_eq_ok.1 h
    obtain rfl := Except.ok.inj hline
    obtain rfl := Except.ok.inj h
    obtain ⟨property, e⟩ := d
    obtain ⟨n, rfl⟩ := Expr.finalValue_eq_ok.1 hv
    exact congrArg ((property, v) :: ·) (ih hrest)

namespace Stmt

mutual

theorem declarations_sublist : (s : Stmt) → ∀ ds, s.declarations = .ok ds →
    (ds.map Use.ofDeclaration).Sublist s.uses
  | assignment .., ds, h => by
    obtain rfl := Except.ok.inj h
    exact List.nil_sublist _
  | declaration .., ds, h => by
    obtain rfl := Except.ok.inj h
    exact List.Sublist.refl _
  | rule .., ds, h => by
    obtain rfl := Except.ok.inj h
    exact List.nil_sublist _
  | ifClause c body n, ds, h => by
    rw [declarations] at h
    obtain ⟨v, -, h⟩ := except_bind_eq_ok.1 h
    by_cases ht : v = .flag true
    · rw [if_pos ht] at h
      exact (allDeclarations_sublist body ds h).cons _
    · rw [if_neg ht] at h
      obtain rfl := Except.ok.inj h
      exact List.nil_sublist _

theorem allDeclarations_sublist : (ss : List Stmt) → ∀ ds, allDeclarations ss = .ok ds →
    (ds.map Use.ofDeclaration).Sublist (allUses ss)
  | [], ds, h => by
    obtain rfl := Except.ok.inj h
    exact List.Sublist.refl _
  | s :: ss, ds, h => by
    rw [allDeclarations] at h
    obtain ⟨first, hfirst, h⟩ := except_bind_eq_ok.1 h
    obtain ⟨rest, hrest, h⟩ := except_bind_eq_ok.1 h
    obtain rfl := Except.ok.inj h
    rw [List.map_append, allUses]
    exact (declarations_sublist s first hfirst).append (allDeclarations_sublist ss rest hrest)

end

theorem lines_sublist {body : List Stmt} {ls : List (String × Value)} (h : lines body = .ok ls) :
    ls.Sublist (declaredLines (allUses body)) := by
  obtain ⟨ds, hds, h⟩ := except_bind_eq_ok.1 h
  rw [← declaredLines_of_mapM h]
  exact (allDeclarations_sublist body ds hds).filterMap Use.line?

mutual

theorem blocks_lines_sublist (outer : List Selector) : (s : Stmt) → ∀ bs, s.blocks outer = .ok bs →
    ∀ b ∈ bs, b.lines.Sublist (declaredLines s.uses)
  | assignment .., bs, h => by
    obtain rfl := Except.ok.inj h
    simp
  | declaration .., bs, h => by
    obtain rfl := Except.ok.inj h
    simp
  | rule s body n, bs, h => by
    rw [blocks] at h
    obtain ⟨ls, hls, h⟩ := except_bind_eq_ok.1 h
    obtain ⟨nested, hnested, h⟩ := except_bind_eq_ok.1 h
    obtain rfl := Except.ok.inj h
    exact List.forall_mem_cons.2 ⟨lines_sublist hls, allBlocks_lines_sublist _ body nested hnested⟩
  | ifClause c body n, bs, h => by
    rw [blocks] at h
    by_cases hc : c.isTrue
    · rw [if_pos hc] at h
      exact allBlocks_lines_sublist outer body bs h
    · rw [if_neg hc] at h
      obtain rfl := Except.ok.inj h
      simp

theorem allBlocks_lines_sublist (outer : List Selector) : (ss : List Stmt) → ∀ bs,
    allBlocks outer ss = .ok bs → ∀ b ∈ bs, b.lines.Sublist (declaredLines (allUses ss))
  | [], bs, h => by
    obtain rfl := Except.ok.inj h
    simp
  | s :: ss, bs, h => by
    rw [allBlocks] at h
    obtain ⟨first, hfirst, h⟩ := except_bind_eq_ok.1 h
    obtain ⟨rest, hrest, h⟩ := except_bind_eq_ok.1 h
    obtain rfl := Except.ok.inj h
    intro b hb
    rw [allUses, declaredLines_append]
    rcases List.mem_append.1 hb with hb | hb
    · exact (blocks_lines_sublist outer s first hfirst b hb).trans (List.sublist_append_left _ _)
    · exact (allBlocks_lines_sublist outer ss rest hrest b hb).trans (List.sublist_append_right _ _)

end

theorem allUses_sublist {ss ts : List Stmt} (h : ss.Sublist ts) : (allUses ss).Sublist (allUses ts) := by
  induction h with
  | slnil => exact List.Sublist.refl _
  | cons t _ ih => exact List.sublist_append_of_sublist_right ih
  | cons_cons t _ ih => exact (List.Sublist.refl _).append ih

end Stmt

/-- The lines of each block are among the declarations of the stylesheet, in their order. -/
theorem Stylesheet.blocks_lines_sublist {sheet : Stylesheet} {bs : List Css.Block} (h : sheet.blocks = .ok bs) :
    ∀ b ∈ bs, b.lines.Sublist (declaredLines sheet.uses) := by
  intro b hb
  have hrules := Stmt.allUses_sublist (List.filter_sublist (p := Stmt.isRule) (l := sheet.body))
  exact (Stmt.allBlocks_lines_sublist [] _ bs h b hb).trans (hrules.filterMap Use.line?)

/-- The members of a sublist of what is kept of some entries were kept at increasing places. -/
theorem exists_places_of_sublist {α β : Type} {f : α → Option β} {xs : List α} {ls : List β}
    (h : ls.Sublist (xs.filterMap f)) : ∃ places : List Nat, places.Pairwise (· < ·) ∧
      List.Forall₂ (fun l i => ∃ x, xs[i]? = some x ∧ f x = some l) ls places := by
  induction xs generalizing ls with
  | nil =>
    obtain rfl := List.sublist_nil.1 h
    exact ⟨[], .nil, .nil⟩
  | cons x xs ih =>
    have hlater : ∀ {ls : List β}, ls.Sublist (xs.filterMap f) → ∃ places : List Nat,
        places.Pairwise (· < ·) ∧ (∀ i ∈ places, 0 < i) ∧
          List.Forall₂ (fun l i => ∃ y, (x :: xs)[i]? = some y ∧ f y = some l) ls places := by
      intro ls hls
      obtain ⟨places, hpairwise, hplaces⟩ := ih hls
      refine ⟨places.map (· + 1), List.pairwise_map.2 (hpairwise.imp Nat.succ_lt_succ), ?_, ?_⟩
      · intro i hi
        obtain ⟨j, -, rfl⟩ := List.mem_map.1 hi
        exact Nat.succ_pos j
      · exact List.forall₂_map_right_iff.2 hplaces
    cases hx : f x with
    | none =>
      rw [List.filterMap_cons_none hx] at h
      obtain ⟨places, hpairwise, -, hplaces⟩ := hlater h
      exact ⟨places, hpairwise, hplaces⟩
    | some l =>
      rw [List.filterMap_cons_some hx] at h
      cases h with
      | cons _ h =>
        obtain ⟨places, hpairwise, -, hplaces⟩ := hlater h
        exact ⟨places, hpairwise, hplaces⟩
      | cons_cons _ h =>
        obtain ⟨places, hpairwise, hpos, hplaces⟩ := hlater h
        exact ⟨0 :: places, List.pairwise_cons.2 ⟨hpos, hpairwise⟩, .cons ⟨x, rfl, hx⟩ hplaces⟩

/-- The line is the declaration of `e` in slot `i` of the stylesheet, with the value that `e` folds to. -/
structure Stylesheet.Writes (sheet : Stylesheet) (line : String × Value) (i : Nat) (e : Expr) : Prop where
  declared : sheet.uses[i]? = some (.declared line.1, e)
  folded : ∃ n, sheet.fold.tree.uses[i]? = some (.declared line.1, .literal line.2 n)

theorem Stylesheet.writes_of_folded {sheet : Stylesheet} {line : String × Value} {i : Nat} {u : Use × Expr}
    (hu : sheet.fold.tree.uses[i]? = some u) (hline : Use.line? u = some line) : ∃ e, sheet.Writes line i e := by
  have hfst : sheet.uses[i]?.map Prod.fst = some u.1 := by
    rw [← List.getElem?_map, ← fold_uses_map_fst, List.getElem?_map, hu, Option.map_some]
  obtain ⟨⟨use, e⟩, he, rfl⟩ := Option.map_eq_some_iff.1 hfst
  unfold Use.line? at hline
  split at hline
  case h_1 property v n =>
    obtain rfl := Option.some.inj hline
    exact ⟨e, he, n, hu⟩
  case h_2 => cases hline

/-- Each line of a block is written for a slot of its own, and the slots are in the order of the source. -/
theorem Stylesheet.exists_slots {sheet : Stylesheet} {bs : List Css.Block} (h : sheet.fold.tree.blocks = .ok bs) :
    ∀ b ∈ bs, ∃ slots : List Nat, slots.Pairwise (· < ·) ∧
      List.Forall₂ (fun line i => ∃ e, sheet.Writes line i e) b.lines slots := by
  intro b hb
  obtain ⟨slots, hpairwise, hslots⟩ := exists_places_of_sublist (blocks_lines_sublist h b hb)
  refine ⟨slots, hpairwise, hslots.imp fun line i => ?_⟩
  rintro ⟨u, hu, hline⟩
  exact writes_of_folded hu hline

/-- The source is read as the stylesheet, in which the checker finds nothing, and which folds to these
blocks. -/
structure Compiles (file source : String) (sheet : Stylesheet) (blocks : List Css.Block) : Prop where
  read : Stylesheet.ofSource file source = .ok sheet
  passed : sheet.check.diagnostics = []
  written : sheet.fold.tree.blocks = .ok blocks

theorem Stylesheet.compile_eq_ok {sheet : Stylesheet} {css : String} (h : sheet.fold.fault? = none) :
    sheet.compile = .ok css ↔ ∃ blocks, sheet.fold.tree.blocks = .ok blocks ∧ css = Css.text blocks := by
  simp only [compile, h, Stylesheet.css]
  cases sheet.fold.tree.blocks with
  | error fault =>
    constructor
    · intro hcss
      cases hcss
    · rintro ⟨blocks, hblocks, -⟩
      cases hblocks
  | ok blocks =>
    constructor
    · intro hcss
      exact ⟨blocks, rfl, (Except.ok.inj hcss).symm⟩
    · rintro ⟨blocks', hblocks, rfl⟩
      obtain rfl := Except.ok.inj hblocks
      rfl

theorem check_of_read {file source : String} {sheet : Stylesheet}
    (h : Stylesheet.ofSource file source = .ok sheet) :
    check file source = .ok (sheet.check, sheet.check.diagnostics) := by
  rw [check, h]
  rfl

theorem compile_eq_ok {file source css : String} :
    compile file source = .ok css ↔
      ∃ sheet blocks, Compiles file source sheet blocks ∧ css = Css.text blocks := by
  -- A stylesheet that the checker lets pass is the checked one, so it is this one that is folded.
  have hpassed : ∀ {sheet : Stylesheet}, Stylesheet.ofSource file source = .ok sheet →
      sheet.check.diagnostics = [] → compile file source = sheet.compile ∧ sheet.fold.fault? = none := by
    intro sheet hread hdiags
    have hself := Stylesheet.check_eq_self hdiags
    refine ⟨?_, hself ▸ Stylesheet.fold_ok_of_check hdiags⟩
    rw [compile, check_of_read hread, hdiags, hself]
  constructor
  · intro h
    cases hread : Stylesheet.ofSource file source with
    | error fault =>
      rw [compile, check_eq_error.2 hread] at h
      cases h
    | ok sheet =>
      cases hdiags : sheet.check.diagnostics with
      | cons d ds =>
        rw [compile, check_of_read hread, hdiags] at h
        cases h
      | nil =>
        obtain ⟨hcompile, hfold⟩ := hpassed hread hdiags
        rw [hcompile] at h
        obtain ⟨blocks, hwritten, hcss⟩ := (Stylesheet.compile_eq_ok hfold).1 h
        exact ⟨sheet, blocks, ⟨hread, hdiags, hwritten⟩, hcss⟩
  · rintro ⟨sheet, blocks, ⟨hread, hdiags, hwritten⟩, hcss⟩
    obtain ⟨hcompile, hfold⟩ := hpassed hread hdiags
    rw [hcompile]
    exact (Stylesheet.compile_eq_ok hfold).2 ⟨blocks, hwritten, hcss⟩

end TypedCss
