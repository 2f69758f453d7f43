import TypedCss.Compile
import TypedCss.Proofs.Slots
import TypedCss.Proofs.Statements

/-!
# The parser recognises the grammar

The tokens of a source are read as a stylesheet if and only if they have a derivation and their numbers have
32-bit forms. The stylesheet is then the one tree that they derive, up to places, and all tokens have been
read.
-/

namespace TypedCss.Grammar

open Parse

variable {s s' : Stream} {file : String} {sheet : Stylesheet} {v w : List Token} {last : Token}

theorem stylesheet_sound (h : stylesheet .standard file s = .ok sheet s') :
    topStatementsWithin .standard s.budget s = .ok sheet.body s' := by
  unfold stylesheet at h
  rw [bind_of_ok (get_apply s)] at h
  obtain ⟨ss, s₁, hss, h⟩ := bind_eq_ok.1 h
  rw [bind_of_ok (position_apply s₁)] at h
  obtain ⟨rfl, rfl⟩ := EStateM.Result.ok.inj h
  exact hss

theorem stylesheet_of_ok {ss : List Stmt} (h : topStatementsWithin .standard s.budget s = .ok ss s') :
    stylesheet .standard file s = .ok ⟨ss, ⟨0, file⟩, s'.current.span.start⟩ s' := by
  unfold stylesheet
  rw [bind_of_ok (get_apply s), bind_of_ok h, bind_of_ok (position_apply s')]
  rfl

theorem Parse.outcome_eq_ok {α : Type} {p : Parse α} {a : α} :
    (p.outcome s).1 = .ok a ↔ p s = .ok a (p.outcome s).2 := by
  unfold outcome EStateM.run
  cases hp : p s with
  | ok b s' => simp
  | error fault s' => simp

theorem Stream.ofTokens_append_singleton (w : List Token) (last : Token) :
    Stream.ofTokens file (w ++ [last]) = ⟨w ++ [last], last⟩ := by
  rw [ofTokens, List.getLastD_eq_getLast?, List.getLast?_concat]
  rfl

theorem Stream.isSpelled_of_tokens (hlast : last.kind = .endOfInput) (hw : ∀ t ∈ w, t.IsSpelled) :
    IsSpelled ⟨w ++ [last], last⟩ := by
  refine ⟨?_, hlast⟩
  intro t ht hend
  rcases List.mem_append.1 ht with ht | ht
  · exact hw t ht
  · rw [List.mem_singleton.1 ht] at hend
    exact absurd hlast hend

/-- What has been read up to the end of the input is everything before the last token. -/
theorem Stream.Reads.eq_of_endOfInput (h : Reads ⟨w ++ [last], last⟩ v s')
    (hw : ∀ t ∈ w, t.kind ≠ .endOfInput) (hlast : last.kind = .endOfInput)
    (hend : s'.current.kind = .endOfInput) : v = w ∧ s' = ⟨[last], last⟩ := by
  obtain ⟨rest, last'⟩ := s'
  obtain ⟨heq, rfl⟩ := Stream.mk.inj h.eq
  rcases List.append_eq_append_iff.1 heq with ⟨u, rfl, hrest⟩ | ⟨u, rfl, rfl⟩
  · cases u with
    | nil =>
      obtain rfl : [last] = rest := hrest
      exact ⟨List.append_nil w, rfl⟩
    | cons t u =>
      have ht : last = t := (List.cons.inj hrest).1
      exact absurd (ht ▸ hlast) (h.ne_end t (by simp))
  · cases u with
    | nil => exact ⟨(List.append_nil v).symm, rfl⟩
    | cons t u => exact absurd hend (hw t (by simp))

theorem ofTokens_sound (hlast : last.kind = .endOfInput) (hw : ∀ t ∈ w, t.IsSpelled)
    (h : Stylesheet.ofTokens file (w ++ [last]) = .ok sheet) :
    (∀ t ∈ w, t.Fits) ∧ Sheet w (Stmt.allWithoutSpans sheet.body) ∧
      ((stylesheet .standard file).outcome (.ofTokens file (w ++ [last]))).2 = ⟨[last], last⟩ := by
  have hread := stylesheet_sound (outcome_eq_ok.1 h)
  rw [Stream.ofTokens_append_singleton] at hread ⊢
  obtain ⟨v, hread, hv, hend⟩ := topStatementsWithin_sound _ (Stream.isSpelled_of_tokens hlast hw) hread
  obtain ⟨rfl, hrest⟩ := hread.eq_of_endOfInput (fun t ht => (hw t ht).kind_ne_endOfInput) hlast hend
  exact ⟨hread.fits, hv, hrest⟩

theorem ofTokens_complete {tree : List Stmt} (hlast : last.kind = .endOfInput) (hw : ∀ t ∈ w, t.IsSpelled)
    (hfits : ∀ t ∈ w, t.Fits) (h : Sheet w tree) :
    ∃ sheet, Stylesheet.ofTokens file (w ++ [last]) = .ok sheet ∧ Stmt.allWithoutSpans sheet.body = tree := by
  have hread : Stream.Reads ⟨w ++ [last], last⟩ w ⟨[last], last⟩ :=
    ⟨rfl, hfits, fun t ht => (hw t ht).kind_ne_endOfInput⟩
  have hbudget : w.length < Stream.budget ⟨w ++ [last], last⟩ := by
    rw [Stream.budget, List.length_append]
    omega
  obtain ⟨ss, hss, rfl⟩ :=
    topStatementsWithin_complete (Stream.isSpelled_of_tokens hlast hw) hread h hlast hbudget
  refine ⟨⟨ss, ⟨0, file⟩, last.span.start⟩, ?_, rfl⟩
  rw [Stylesheet.ofTokens, Stream.ofTokens_append_singleton, Parse.outcome, EStateM.run, stylesheet_of_ok hss]
  rfl

/-- The tokens of a source are read as a stylesheet if and only if their numbers have 32-bit forms and they
have a derivation. The stylesheet is the tree of every derivation, and only the end of the input is left. -/
theorem stylesheets_read_as_derived {file source : String} {ts : List Token}
    (h : Token.ofSource file source = .ok ts) :
    ∃ w last, ts = w ++ [last] ∧ last.kind = .endOfInput ∧ (∀ t ∈ w, t.kind ≠ .endOfInput) ∧
      ((∃ sheet, Stylesheet.ofTokens file ts = .ok sheet) ↔ (∀ t ∈ w, t.Fits) ∧ ∃ tree, Sheet w tree) ∧
      ∀ sheet, Stylesheet.ofTokens file ts = .ok sheet →
        Sheet w (Stmt.allWithoutSpans sheet.body) ∧
        (∀ tree, Sheet w tree → tree = Stmt.allWithoutSpans sheet.body) ∧
        ((stylesheet .standard file).outcome (.ofTokens file ts)).2 = ⟨[last], last⟩ := by
  obtain ⟨w, last, rfl, hlast, hw⟩ := Token.exists_of_ofSource h
  refine ⟨w, last, rfl, hlast, fun t ht => (hw t ht).kind_ne_endOfInput, ⟨?_, ?_⟩, ?_⟩
  · rintro ⟨sheet, hsheet⟩
    obtain ⟨hfits, hderived, -⟩ := ofTokens_sound hlast hw hsheet
    exact ⟨hfits, _, hderived⟩
  · rintro ⟨hfits, tree, htree⟩
    obtain ⟨sheet, hsheet, -⟩ := ofTokens_complete hlast hw hfits htree
    exact ⟨sheet, hsheet⟩
  · intro sheet hsheet
    obtain ⟨hfits, hderived, hstop⟩ := ofTokens_sound hlast hw hsheet
    refine ⟨hderived, ?_, hstop⟩
    intro tree htree
    obtain ⟨sheet', hsheet', rfl⟩ := ofTokens_complete hlast hw hfits htree
    rw [hsheet] at hsheet'
    obtain rfl := Except.ok.inj hsheet'
    rfl

/-- Differences associate to the left, a product binds more tightly, and parentheses leave no node. -/
theorem stylesheets_read_as_derived_difference :
    let source := "X := 1px - 2 * (3px - 4px) - 5px; .a \x7b if [TRUE] \x7b #ffffff \x7b \x7d \x7d width: X; \x7d"
    let px (n : Int32) : Expr := .literal (.number .pixel n) .plain
    let product : Expr := .operation .multiply (.literal (.number .scalar 2) .plain)
      (.operation .subtract (px 3) (px 4) .plain) .plain
    let value : Expr := .operation .subtract (.operation .subtract (px 1) product .plain) (px 5) .plain
    ∃ ts w last sheet, Token.ofSource "a.icss" source = .ok ts ∧ ts = w ++ [last] ∧
      Stylesheet.ofTokens "a.icss" ts = .ok sheet ∧
      (Stmt.allExpressions sheet.body).map Expr.withoutSpans =
        [value, .literal (.flag true) .plain, .reference "X" .plain] ∧
      (∀ t ∈ w, t.Fits) ∧ Sheet w (Stmt.allWithoutSpans sheet.body) ∧
      ∀ tree, Sheet w tree → tree = Stmt.allWithoutSpans sheet.body := by
  intro source px product value
  have hread : (Stylesheet.ofSource "a.icss" source).toOption.map
      (fun sheet => (Stmt.allExpressions sheet.body).map Expr.withoutSpans) =
        some [value, .literal (.flag true) .plain, .reference "X" .plain] := by decide +kernel
  rw [Stylesheet.ofSource] at hread
  cases hts : Token.ofSource "a.icss" source with
  | error fault =>
    rw [hts] at hread
    cases hread
  | ok ts =>
    rw [hts] at hread
    cases hsheet : Stylesheet.ofTokens "a.icss" ts with
    | error fault =>
      simp only [bind, Except.bind, hsheet] at hread
      cases hread
    | ok sheet =>
      simp only [bind, Except.bind, hsheet] at hread
      obtain ⟨w, last, hw, -, -, hiff, hall⟩ := stylesheets_read_as_derived hts
      obtain ⟨hderived, hunique, -⟩ := hall sheet hsheet
      exact ⟨ts, w, last, sheet, rfl, hw, hsheet, Option.some.inj hread, (hiff.1 ⟨sheet, hsheet⟩).1,
        hderived, hunique⟩

end TypedCss.Grammar
