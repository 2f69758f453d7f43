import TypedCss.Proofs.PlacelessReading

/-!
# Layout does not matter

Two sources whose tokens are the same words compile to the same text, or fail for the same reasons, wherever the
words stand and whatever white space and comments are between them.
-/

namespace TypedCss

/-- Compiling ends alike: with the same text, with faults that have the same cause, or with the same problems. -/
inductive EndsAlike : Except Failure String → Except Failure String → Prop
  | written (css : String) : EndsAlike (.ok css) (.ok css)
  | unreadable {fault fault' : Fault} (h : fault.cause = fault'.cause) :
    EndsAlike (.error (.unreadable fault)) (.error (.unreadable fault'))
  | illTyped {ds ds' : List Diagnostic} (h : ds.map Diagnostic.problem = ds'.map Diagnostic.problem) :
    EndsAlike (.error (.illTyped ds)) (.error (.illTyped ds'))

variable {file source file' source' : String} {sheet sheet' : Stylesheet}

/-- The text of a stylesheet in which the checker finds nothing is what its source compiles to. -/
theorem compile_of_css {css : String} (hread : Stylesheet.ofSource file source = .ok sheet)
    (hclear : sheet.check.diagnostics = []) (hcss : sheet.fold.tree.css = .ok css) :
    compile file source = .ok css := by
  obtain ⟨blocks, hblocks, htext⟩ := except_bind_eq_ok.1 hcss
  exact compile_eq_ok.2 ⟨sheet, blocks, ⟨hread, hclear, hblocks⟩, (Except.ok.inj htext).symm⟩

theorem compile_of_problem {d : Diagnostic} {ds : List Diagnostic}
    (hread : Stylesheet.ofSource file source = .ok sheet) (hproblem : sheet.check.diagnostics = d :: ds) :
    compile file source = .error (.illTyped (d :: ds)) := by
  rw [compile, check_of_read hread, hproblem]

/-- From stylesheets that differ in places only comes the same text, or else the same problems. -/
theorem endsAlike_of_withoutSpans (hread : Stylesheet.ofSource file source = .ok sheet)
    (hread' : Stylesheet.ofSource file' source' = .ok sheet') (h : sheet.withoutSpans = sheet'.withoutSpans) :
    EndsAlike (compile file source) (compile file' source') := by
  have hproblems := Stylesheet.problems_of_withoutSpans h
  cases hdiags : sheet.check.diagnostics with
  | nil =>
    rw [hdiags] at hproblems
    have hdiags' := List.map_eq_nil_iff.1 hproblems.symm
    obtain ⟨-, -, css, hcss⟩ := Stylesheet.folds_and_writes_of_check hdiags
    rw [Stylesheet.check_eq_self hdiags] at hcss
    rw [compile_of_css hread hdiags hcss, compile_of_css hread' hdiags' (Stylesheet.css_of_withoutSpans h hcss)]
    exact .written css
  | cons d ds =>
    cases hdiags' : sheet'.check.diagnostics with
    | nil =>
      rw [hdiags, hdiags'] at hproblems
      cases hproblems
    | cons d' ds' =>
      rw [hdiags, hdiags'] at hproblems
      rw [compile_of_problem hread hdiags, compile_of_problem hread' hdiags']
      exact .illTyped hproblems

/-- From sources with the same kinds and texts of tokens comes the same text, or else a fault with the same cause or
the same problems in the same order. -/
theorem layout_does_not_matter {ts ts' : List Token} (h : Token.ofSource file source = .ok ts)
    (h' : Token.ofSource file' source' = .ok ts') (hwords : ts.map Token.word = ts'.map Token.word) :
    EndsAlike (compile file source) (compile file' source') := by
  have hsame := Stylesheet.ofTokens_of_words file file' hwords
  rw [← Stylesheet.ofSource_of_tokens h, ← Stylesheet.ofSource_of_tokens h'] at hsame
  cases hread : Stylesheet.ofSource file source with
  | error fault =>
    cases hread' : Stylesheet.ofSource file' source' with
    | ok sheet' =>
      rw [hread, hread'] at hsame
      cases hsame
    | error fault' =>
      rw [hread, hread'] at hsame
      rw [compile, compile, check_eq_error.2 hread, check_eq_error.2 hread']
      exact .unreadable (Fault.mk.inj (Except.error.inj hsame)).1
  | ok sheet =>
    cases hread' : Stylesheet.ofSource file' source' with
    | error fault' =>
      rw [hread, hread'] at hsame
      cases hsame
    | ok sheet' =>
      rw [hread, hread'] at hsame
      exact endsAlike_of_withoutSpans hread hread' (Except.ok.inj hsame)

/-- A comment hides what stands beside a variable that is assigned nowhere. -/
theorem layout_does_not_matter_comment :
    let source := "p\x7bw:X;\x7d"
    let source' := "p \x7b w: // = é\n X; \x7d"
    let words : List (Kind × String) := [(.word, "p"), (.openCurly, "\x7b"), (.word, "w"), (.colon, ":"),
      (.name, "X"), (.semicolon, ";"), (.closeCurly, "\x7d"), (.endOfInput, "EOF")]
    (∃ ts, Token.ofSource "a" source = .ok ts ∧ ts.map Token.word = words) ∧
      (∃ ts', Token.ofSource "b" source' = .ok ts' ∧ ts'.map Token.word = words) ∧
      compile "a" source = .error (.illTyped [⟨.undefinedVariable "X", .ofLength "a" 4 1⟩]) ∧
      EndsAlike (compile "a" source) (compile "b" source') := by
  intro source source' words
  have hwords : (Token.ofSource "a" source).toOption.map (List.map Token.word) = some words := by decide +kernel
  have hwords' : (Token.ofSource "b" source').toOption.map (List.map Token.word) = some words := by decide +kernel
  obtain ⟨ts, hts, hsame⟩ := Option.map_eq_some_iff.1 hwords
  obtain ⟨ts', hts', hsame'⟩ := Option.map_eq_some_iff.1 hwords'
  rw [toOption_eq_some] at hts hts'
  have hread : (check "a" source).toOption.map Prod.snd = some [⟨.undefinedVariable "X", .ofLength "a" 4 1⟩] := by
    decide +kernel
  obtain ⟨⟨sheet, ds⟩, hcheck, rfl⟩ := Option.map_eq_some_iff.1 hread
  have hcompile : compile "a" source = .error (.illTyped [⟨.undefinedVariable "X", .ofLength "a" 4 1⟩]) := by
    rw [compile, toOption_eq_some.1 hcheck]
  exact ⟨⟨ts, hts, hsame⟩, ⟨ts', hts', hsame'⟩, hcompile,
    layout_does_not_matter hts hts' (hsame.trans hsame'.symm)⟩

end TypedCss
