import Mathlib.Data.Set.List
import TypedCss.Proofs.FlatRules

/-!
# The text reads back

The text that a source compiles to is itself a source, if no rule in it is nested and no number in it is negative.
It is read as one rule for each block, with the same selector and the same lines, and written out as the same text.
-/

namespace TypedCss

namespace Stylesheet

/-- No live rule stands inside another rule. -/
def IsFlat (sheet : Stylesheet) : Prop := ∀ o ∈ sheet.occurrences, o.isLive → o.stmt.isRule → o.rules = []

instance (sheet : Stylesheet) : Decidable sheet.IsFlat := List.decidableBAll _ _

variable {sheet : Stylesheet} {blocks : List Css.Block}

theorem occurrences_isWorded (h : Stmt.AllWorded sheet.body) : ∀ o ∈ sheet.occurrences, o.stmt.IsWorded := by
  refine Stmt.allOccurrences_isWorded _ (Stmt.allWorded_iff.2 fun s hs => ?_)
  exact Stmt.allWorded_iff.1 h s (List.mem_filter.1 hs).1

/-- In a flat stylesheet, the block of a rule has its selector alone. -/
theorem IsFlat.path_of_mem_blocks (hflat : sheet.IsFlat) (hworded : Stmt.AllWorded sheet.body)
    (h : sheet.blocks = .ok blocks) {b : Css.Block} (hb : b ∈ blocks) : ∃ s, b.path = [s] ∧ s.IsWorded := by
  have hpaths : blocks.map Css.Block.path = (liveRules sheet.occurrences).map NumberedRule.path :=
    Stmt.paths_of_allBlocks rfl _ blocks h
  have hpath : b.path ∈ blocks.map Css.Block.path := List.mem_map_of_mem hb
  rw [hpaths] at hpath
  obtain ⟨r, hr, hpath⟩ := List.mem_map.1 hpath
  obtain ⟨o, ho, hr⟩ := List.mem_filterMap.1 hr
  obtain ⟨s, body, n, hstmt, hlive, rfl⟩ := Occurrence.liveRule?_eq_some.1 hr
  have hselector := occurrences_isWorded hworded o ho
  have hrule : o.stmt.isRule := by rw [hstmt, Stmt.isRule]
  rw [hflat o ho hlive hrule] at hpath
  rw [hstmt] at hselector
  exact ⟨s, hpath.symm, hselector.1⟩

theorem line_isWorded (hworded : Stmt.AllWorded sheet.body) (h : sheet.blocks = .ok blocks) {b : Css.Block}
    (hb : b ∈ blocks) {line : String × Value} (hline : line ∈ b.lines) :
    Kind.word.Writes line.1 ∧ line.2.IsWorded := by
  have hdeclared := (blocks_lines_sublist h b hb).subset hline
  obtain ⟨⟨use, e⟩, hu, hline⟩ := List.mem_filterMap.1 hdeclared
  have huse := Stmt.allUses_isWorded sheet.body hworded _ hu
  cases use with
  | declared property =>
    cases e with
    | literal v n =>
      obtain rfl := Option.some.inj hline
      exact huse property rfl
    | _ => cases hline
  | _ => cases hline

/-- The blocks of a flat stylesheet without negative numbers are those of flat rules that can be read. -/
theorem IsFlat.exists_rules (hflat : sheet.IsFlat) (hworded : Stmt.AllWorded sheet.body)
    (h : sheet.blocks = .ok blocks) (hsign : ∀ b ∈ blocks, ∀ line ∈ b.lines, line.2.isNonnegative) :
    ∃ rules : List Css.FlatRule, rules.map Css.FlatRule.block = blocks ∧ ∀ r ∈ rules, r.IsReadable := by
  have hrange : blocks ∈ Set.range (List.map Css.FlatRule.block) := by
    rw [Set.range_list_map]
    rintro ⟨path, lines⟩ hb
    obtain ⟨s, rfl, -⟩ := hflat.path_of_mem_blocks hworded h hb
    exact ⟨⟨s, lines⟩, rfl⟩
  obtain ⟨rules, rfl⟩ := hrange
  refine ⟨rules, rfl, fun r hr => ?_⟩
  have hb : r.block ∈ rules.map Css.FlatRule.block := List.mem_map_of_mem hr
  obtain ⟨s, hpath, hselector⟩ := hflat.path_of_mem_blocks hworded h hb
  obtain rfl := List.singleton_inj.1 hpath
  refine ⟨hselector, fun line hline => ?_⟩
  obtain ⟨hproperty, hvalue⟩ := line_isWorded hworded h hb hline
  exact ⟨hproperty, hvalue.isReadable (hsign _ hb line hline)⟩

end Stylesheet

/-- A source that compiles, with no live rule inside another and no negative number in a block, compiles to a text
that is itself a source. It is read as one rule for each block, with the selector and the lines of the block and
nothing else, and this stylesheet is written out as the same text. -/
theorem css_reads_back {file source css : String} (h : compile file source = .ok css) (file' : String) :
    ∃ sheet blocks, Compiles file source sheet blocks ∧ css = Css.text blocks ∧
      (sheet.fold.tree.IsFlat → (∀ b ∈ blocks, ∀ line ∈ b.lines, line.2.isNonnegative) →
        ∃ (rules : List Css.FlatRule) (again : Stylesheet), rules.map Css.FlatRule.block = blocks ∧
          Stylesheet.ofSource file' css = .ok again ∧
          again.withoutSpans.body = rules.map Css.FlatRule.stmt ∧ again.css = .ok css) := by
  obtain ⟨sheet, blocks, hcompiles, rfl⟩ := compile_eq_ok.1 h
  refine ⟨sheet, blocks, hcompiles, rfl, fun hflat hsign => ?_⟩
  obtain ⟨rules, rfl, hreadable⟩ :=
    hflat.exists_rules (Stylesheet.isWorded_of_read hcompiles.read) hcompiles.written hsign
  obtain ⟨again, hread, hbody, hcss⟩ := Css.read_of_rules hreadable file'
  exact ⟨rules, again, rfl, hread, hbody, hcss⟩

/-- A selector that is a color, a computed number, a property with a dash, and a rule that is nested and not live. -/
theorem css_reads_back_computed :
    let source := "W := 2px; #fff \x7b width: W * 3; if [TRUE] \x7b background-color: #abc123; \x7d " ++
      "if [FALSE] \x7b p \x7b height: 1px; \x7d \x7d \x7d .a-b \x7b \x7d"
    let css := "#fff \x7b\n  width: 6px;\n  background-color: #abc123;\n\x7d\n\n.a-b \x7b\n\x7d\n"
    let rules : List Css.FlatRule :=
      [⟨.id "fff", [("width", .number .pixel 6), ("background-color", .color "#abc123")]⟩, ⟨.className "a-b", []⟩]
    compile "a" source = .ok css ∧ ∃ again, Stylesheet.ofSource "b" css = .ok again ∧
      again.withoutSpans.body = rules.map Css.FlatRule.stmt ∧ again.css = .ok css := by
  intro source css rules
  have hcss : compile "a" source = .ok css := toOption_eq_some.1 (by decide +kernel)
  obtain ⟨sheet, blocks, hcompiles, -, hback⟩ := css_reads_back hcss "b"
  have hsheet : (Stylesheet.ofSource "a" source).toOption.map (fun sheet =>
      (decide sheet.fold.tree.IsFlat, sheet.fold.tree.blocks.toOption)) =
        some (true, some (rules.map Css.FlatRule.block)) := by decide +kernel
  rw [hcompiles.read] at hsheet
  obtain ⟨hflat, hblocks⟩ := Prod.mk.inj (Option.some.inj hsheet)
  obtain rfl := Except.ok.inj (hcompiles.written.symm.trans (toOption_eq_some.1 hblocks))
  obtain ⟨rules', again, hsame, hread, hbody, hagain⟩ := hback (of_decide_eq_true hflat) (by decide)
  obtain rfl := (List.map_inj_right fun _ _ h => Css.FlatRule.block_injective h).1 hsame
  exact ⟨hcss, again, hread, hbody, hagain⟩

end TypedCss
