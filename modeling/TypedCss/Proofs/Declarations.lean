import TypedCss.Proofs.Approval
import TypedCss.Proofs.Emission

/-!
# Colors and lengths

What the checker's rules for colors and for lengths along an axis are worth in the CSS. The rule for lengths
looks at every open scope for a misfit, and so at the variable in sight. The rule for colors is content with
a color in any open scope, and the variable in sight may be another one.
-/

namespace TypedCss

theorem wantsColor_iff {property : String} : wantsColor property ↔ "color".toList <:+: property.toList :=
  Text.mentions_iff _ _

theorem wantsDimension_iff {property : String} :
    wantsDimension property ↔ "width".toList <:+: property.toList ∨ "height".toList <:+: property.toList := by
  rw [wantsDimension, Bool.or_eq_true, Text.mentions_iff, Text.mentions_iff]

theorem declarationProblem?_eq_none {types : Types} {p : String} {e : Expr} :
    declarationProblem? types p e = none ↔
      (wantsColor p → e.isColor types) ∧ (wantsDimension p → e.unfitDimension? types = none) := by
  unfold declarationProblem?
  by_cases h : wantsColor p ∧ ¬e.isColor types
  · simp [h]
  · have hcolor : wantsColor p → e.isColor types := by simpa using h
    rw [if_neg h, and_iff_right hcolor]
    by_cases hdimension : wantsDimension p <;> simp [hdimension]

theorem Value.type_eq_color {v : Value} : v.type = .color ↔ ∃ text, v = .color text := by
  cases v <;> simp [Value.type]

theorem Value.type_ne_undefined (v : Value) : v.type ≠ .undefined := by
  cases v <;> simp [Value.type]

theorem Expr.resolve?_of_type {types : Types} {x : String} {n : Note} {v : Value}
    (h : (reference x n).type types = v.type) : types.resolve? x = some v.type := by
  rw [type] at h
  cases hx : types.resolve? x with
  | none => exact absurd (by simpa [hx] using h.symm) v.type_ne_undefined
  | some t => simpa [hx] using h

theorem Expr.isColor_cases {types : Types} {e : Expr} (h : e.isColor types) :
    (∃ text n, e = .literal (.color text) n) ∨
      ∃ x n, e = .reference x n ∧ ∃ frame ∈ types.frames, frame.lookup x = some .color := by
  cases e with
  | literal v n =>
    obtain ⟨text, rfl⟩ := Value.type_eq_color.1 (by simpa [isColor] using h)
    exact .inl ⟨text, n, rfl⟩
  | reference x n =>
    obtain ⟨t, ht⟩ := Option.isSome_iff_exists.1 h
    obtain ⟨hframe, hcolor⟩ := Scopes.exists_frame_of_find? ht
    obtain rfl : t = .color := eq_of_beq hcolor
    exact .inr ⟨x, n, rfl, hframe⟩
  | operation op l r n => simp [isColor] at h

/-- The expression is a variable that resolves to something else than a color, while an open scope binds its
name to a color. -/
def Expr.HidesColor (types : Types) (e : Expr) : Prop :=
  ∃ x n t, e = .reference x n ∧ types.resolve? x = some t ∧ t ≠ .color ∧
    ∃ frame ∈ types.frames, frame.lookup x = some .color

/-- A variable that the rule for lengths lets pass is a misfit in none of the open scopes. -/
theorem Expr.ne_of_unfitDimension?_eq_none {types : Types} {x : String} {n : Note} {t : ValueType}
    (h : (reference x n).unfitDimension? types = none) (ht : types.resolve? x = some t) :
    t ≠ .number .scalar ∧ t ≠ .color ∧ t ≠ .flag := by
  obtain ⟨frame, hframe, hlookup⟩ := Scopes.exists_frame_of_resolve? ht
  have hmisfit := Scopes.find?_eq_none.1 h frame hframe t hlookup
  simpa [and_assoc] using hmisfit

namespace Stylesheet

variable {sheet : Stylesheet} {i : Nat} {property x : String} {e : Expr} {m : Note}

/-- What a color declaration folds to when the checker finds nothing. -/
theorem color_iff_not_hidden (h : sheet.check.diagnostics = [])
    (he : sheet.uses[i]? = some (.declared property, e)) (hproperty : wantsColor property) :
    ∃ types v n, sheet.typesAt? i = some types ∧
      sheet.fold.tree.uses[i]? = some (.declared property, .literal v n) ∧
      ((∃ text, v = .color text) ↔ ¬e.HidesColor types) := by
  obtain ⟨types, v, n, htypes, hproblem, htype, hfolded⟩ := approved_literal_of_use h he
  refine ⟨types, v, n, htypes, hfolded, ?_⟩
  have hcolor := (declarationProblem?_eq_none.1 hproblem).1 hproperty
  rw [← Value.type_eq_color]
  constructor
  · rintro hv ⟨x, k, t, rfl, hresolve, ht, -⟩
    rw [Expr.resolve?_of_type htype] at hresolve
    exact ht (Option.some.inj hresolve ▸ hv)
  · intro hhides
    rcases Expr.isColor_cases hcolor with ⟨text, k, rfl⟩ | ⟨x, k, rfl, hframe⟩
    · exact htype.symm
    · by_contra hv
      exact hhides ⟨x, k, v.type, rfl, Expr.resolve?_of_type htype, hv, hframe⟩

/-- What a length along an axis folds to when it is a variable and the checker finds nothing. -/
theorem length_of_reference (h : sheet.check.diagnostics = [])
    (he : sheet.uses[i]? = some (.declared property, .reference x m)) (hproperty : wantsDimension property) :
    ∃ unit w n, (unit = .pixel ∨ unit = .percentage) ∧
      sheet.fold.tree.uses[i]? = some (.declared property, .literal (.number unit w) n) := by
  obtain ⟨types, v, n, -, hproblem, htype, hfolded⟩ := approved_literal_of_use h he
  have hunfit := (declarationProblem?_eq_none.1 hproblem).2 hproperty
  obtain ⟨hscalar, hcolor, hflag⟩ :=
    Expr.ne_of_unfitDimension?_eq_none hunfit (Expr.resolve?_of_type htype)
  cases v with
  | flag b => exact absurd rfl hflag
  | color text => exact absurd rfl hcolor
  | number unit w =>
    refine ⟨unit, w, n, ?_, hfolded⟩
    cases unit with
    | percentage => exact .inr rfl
    | pixel => exact .inl rfl
    | scalar => exact absurd rfl hscalar

/-- The value of a line is the one that its slot is found to fold to. -/
theorem Writes.value_eq {line : String × Value} {v : Value} {n : Note} (h : sheet.Writes line i e)
    (hv : sheet.fold.tree.uses[i]? = some (.declared line.1, .literal v n)) : line.2 = v := by
  obtain ⟨k, hk⟩ := h.folded
  rw [hk] at hv
  cases hv
  rfl

/-- A line is a color exactly where its declaration hides none. -/
theorem Writes.color_iff {line : String × Value} (hpassed : sheet.check.diagnostics = [])
    (h : sheet.Writes line i e) : ∃ types, sheet.typesAt? i = some types ∧
      ("color".toList <:+: line.1.toList → ((∃ text, line.2 = .color text) ↔ ¬e.HidesColor types)) := by
  obtain ⟨types, -, -, htypes, -⟩ := approved_literal_of_use hpassed h.declared
  refine ⟨types, htypes, fun hproperty => ?_⟩
  obtain ⟨types', v, n, htypes', hfolded, hcolor⟩ :=
    color_iff_not_hidden hpassed h.declared (wantsColor_iff.2 hproperty)
  obtain rfl := Option.some.inj (htypes.symm.trans htypes')
  rwa [h.value_eq hfolded]

/-- A line along an axis is a length if its declaration was a variable. -/
theorem Writes.length_of_reference {line : String × Value} (hpassed : sheet.check.diagnostics = [])
    (h : sheet.Writes line i (.reference x m))
    (hproperty : "width".toList <:+: line.1.toList ∨ "height".toList <:+: line.1.toList) :
    ∃ w, line.2 = .number .pixel w ∨ line.2 = .number .percentage w := by
  obtain ⟨unit, w, n, hunit, hfolded⟩ :=
    Stylesheet.length_of_reference hpassed h.declared (wantsDimension_iff.2 hproperty)
  rw [h.value_eq hfolded]
  rcases hunit with rfl | rfl
  · exact ⟨w, .inl rfl⟩
  · exact ⟨w, .inr rfl⟩

end Stylesheet

/-- Each line of the CSS is the folded form of a declaration. One whose property takes a color has a color for its
value if and only if the declaration was not of a variable that hides a color. -/
theorem colors_are_written_unless_hidden {file source css : String} (h : compile file source = .ok css) :
    ∃ sheet blocks, Compiles file source sheet blocks ∧ css = Css.text blocks ∧
      (∀ block ∈ blocks, ∃ slots : List Nat, slots.Pairwise (· < ·) ∧
        List.Forall₂ (fun line i => ∃ e types, sheet.Writes line i e ∧ sheet.typesAt? i = some types ∧
          ("color".toList <:+: line.1.toList → ((∃ text, line.2 = .color text) ↔ ¬e.HidesColor types)))
          block.lines slots) ∧
      (∀ block ∈ blocks, block.lines.Sublist (declaredLines sheet.fold.tree.uses)) ∧
      ∀ (i : Nat) property e, sheet.uses[i]? = some (.declared property, e) → wantsColor property →
        ∃ types v n, sheet.typesAt? i = some types ∧
          sheet.fold.tree.uses[i]? = some (.declared property, .literal v n) ∧
          ((∃ text, v = .color text) ↔ ¬e.HidesColor types) := by
  obtain ⟨sheet, blocks, hcompiles, hcss⟩ := compile_eq_ok.1 h
  refine ⟨sheet, blocks, hcompiles, hcss, fun block hblock => ?_,
    Stylesheet.blocks_lines_sublist hcompiles.written, fun i property e he hproperty => ?_⟩
  · obtain ⟨slots, hpairwise, hslots⟩ := Stylesheet.exists_slots hcompiles.written block hblock
    refine ⟨slots, hpairwise, hslots.imp fun line i => ?_⟩
    rintro ⟨e, hwrites⟩
    obtain ⟨types, htypes, hcolor⟩ := hwrites.color_iff hcompiles.passed
    exact ⟨e, types, hwrites, htypes, hcolor⟩
  · exact Stylesheet.color_iff_not_hidden hcompiles.passed he hproperty

/-- The color of the rule stands in front of a length. -/
theorem colors_are_written_unless_hidden_own :
    let source := "Tint := 10px; a \x7b Tint := #ff0000; color: Tint; \x7d"
    let css := "a \x7b\n  color: #ff0000;\n\x7d\n"
    compile "a.icss" source = .ok css ∧
      ∃ sheet blocks, Compiles "a.icss" source sheet blocks ∧ css = Css.text blocks ∧
        (∀ block ∈ blocks, ∃ slots : List Nat, slots.Pairwise (· < ·) ∧
          List.Forall₂ (fun line i => ∃ e types, sheet.Writes line i e ∧ sheet.typesAt? i = some types ∧
            ("color".toList <:+: line.1.toList → ((∃ text, line.2 = .color text) ↔ ¬e.HidesColor types)))
            block.lines slots) ∧
        (∀ block ∈ blocks, block.lines.Sublist (declaredLines sheet.fold.tree.uses)) ∧
        ∀ (i : Nat) property e, sheet.uses[i]? = some (.declared property, e) → wantsColor property →
          ∃ types v n, sheet.typesAt? i = some types ∧
            sheet.fold.tree.uses[i]? = some (.declared property, .literal v n) ∧
            ((∃ text, v = .color text) ↔ ¬e.HidesColor types) := by
  intro source css
  have hcompile : compile "a.icss" source = .ok css := by decide +kernel
  exact ⟨hcompile, colors_are_written_unless_hidden hcompile⟩

/-- A global color satisfies the checker, and the length that the rule binds to the same name is written. -/
theorem hidden_color_is_written_as_length :
    let source := "Tint := #ff0000; a \x7b Tint := 10px; color: Tint; \x7d"
    compile "a.icss" source = .ok "a \x7b\n  color: 10px;\n\x7d\n" ∧
      ∃ sheet blocks, Compiles "a.icss" source sheet blocks ∧
        ∃ block ∈ blocks, ∃ line ∈ block.lines, wantsColor line.1 ∧ line.2 = .number .pixel 10 := by
  intro source
  have hcompile : compile "a.icss" source = .ok "a \x7b\n  color: 10px;\n\x7d\n" := by decide +kernel
  have hblocks : ((Stylesheet.ofSource "a.icss" source).bind fun sheet => sheet.fold.tree.blocks) =
      .ok [⟨[.tag "a"], [("color", .number .pixel 10)]⟩] := by decide +kernel
  obtain ⟨sheet, blocks, hcompiles, -⟩ := compile_eq_ok.1 hcompile
  refine ⟨hcompile, sheet, blocks, hcompiles, ?_⟩
  rw [hcompiles.read] at hblocks
  obtain rfl := Except.ok.inj (hcompiles.written.symm.trans hblocks)
  exact ⟨_, List.mem_cons_self, _, List.mem_cons_self, by decide, rfl⟩

/-- Each line of the CSS is the folded form of a declaration. One whose property is a length along an axis has pixels or
a percentage for its value if the declaration was of a variable. -/
theorem dimension_variables_are_written_as_lengths {file source css : String}
    (h : compile file source = .ok css) :
    ∃ sheet blocks, Compiles file source sheet blocks ∧ css = Css.text blocks ∧
      (∀ block ∈ blocks, ∃ slots : List Nat, slots.Pairwise (· < ·) ∧
        List.Forall₂ (fun line i => ∃ e, sheet.Writes line i e ∧
          ("width".toList <:+: line.1.toList ∨ "height".toList <:+: line.1.toList →
            ∀ x m, e = .reference x m → ∃ w, line.2 = .number .pixel w ∨ line.2 = .number .percentage w))
          block.lines slots) ∧
      (∀ block ∈ blocks, block.lines.Sublist (declaredLines sheet.fold.tree.uses)) ∧
      ∀ (i : Nat) property x m, sheet.uses[i]? = some (.declared property, .reference x m) →
        wantsDimension property → ∃ unit w n, (unit = .pixel ∨ unit = .percentage) ∧
          sheet.fold.tree.uses[i]? = some (.declared property, .literal (.number unit w) n) := by
  obtain ⟨sheet, blocks, hcompiles, hcss⟩ := compile_eq_ok.1 h
  refine ⟨sheet, blocks, hcompiles, hcss, fun block hblock => ?_,
    Stylesheet.blocks_lines_sublist hcompiles.written, fun i property x m he hproperty => ?_⟩
  · obtain ⟨slots, hpairwise, hslots⟩ := Stylesheet.exists_slots hcompiles.written block hblock
    refine ⟨slots, hpairwise, hslots.imp fun line i => ?_⟩
    rintro ⟨e, hwrites⟩
    refine ⟨e, hwrites, fun hproperty x m he => ?_⟩
    subst he
    exact hwrites.length_of_reference hcompiles.passed hproperty
  · exact Stylesheet.length_of_reference hcompiles.passed he hproperty

/-- The rule hides the global length from its own width, and not from the height in the nested rule. -/
theorem dimension_variables_are_written_as_lengths_nested :
    let source := "W := 5px; a \x7b W := 10%; width: W; if [TRUE] \x7b p \x7b height: W; \x7d \x7d \x7d"
    let css := "a \x7b\n  width: 10%;\n\x7d\n\na p \x7b\n  height: 5px;\n\x7d\n"
    compile "a.icss" source = .ok css ∧
      ∃ sheet blocks, Compiles "a.icss" source sheet blocks ∧ css = Css.text blocks ∧
        (∀ block ∈ blocks, ∃ slots : List Nat, slots.Pairwise (· < ·) ∧
          List.Forall₂ (fun line i => ∃ e, sheet.Writes line i e ∧
            ("width".toList <:+: line.1.toList ∨ "height".toList <:+: line.1.toList →
              ∀ x m, e = .reference x m → ∃ w, line.2 = .number .pixel w ∨ line.2 = .number .percentage w))
            block.lines slots) ∧
        (∀ block ∈ blocks, block.lines.Sublist (declaredLines sheet.fold.tree.uses)) ∧
        ∀ (i : Nat) property x m, sheet.uses[i]? = some (.declared property, .reference x m) →
          wantsDimension property → ∃ unit w n, (unit = .pixel ∨ unit = .percentage) ∧
            sheet.fold.tree.uses[i]? = some (.declared property, .literal (.number unit w) n) := by
  intro source css
  have hcompile : compile "a.icss" source = .ok css := by decide +kernel
  exact ⟨hcompile, dimension_variables_are_written_as_lengths hcompile⟩

end TypedCss
