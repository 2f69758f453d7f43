import TypedCss.Proofs.Recognition

/-!
# The tokens that a node spans

A tree that has been read keeps of its tokens only the spans of its nodes. Each span is made from two tokens: an
operand has that of its own token, an operation begins and ends with its operands, an assignment and a declaration end
with a semicolon, and a rule and an if clause end where the token after their closing bracket begins.
-/

namespace TypedCss.Grammar

open Parse

/-- The tokens of an expression. Parentheses around it leave its span as it is. -/
inductive SpansExpr : List Token → Expr → Prop
  | operand {t : Token} {e : Expr} (h : operandOf t = .ok e) : SpansExpr [t] e
  | group {start stop : Token} {w : List Token} {e : Expr} (hstart : start.kind = .openParen) (h : SpansExpr w e)
    (hstop : stop.kind = .closeParen) : SpansExpr (start :: w ++ [stop]) e
  | operation {t : Token} {op : Operator} {v w : List Token} {l r : Expr} (hl : SpansExpr v l)
    (ht : t.kind = .operator op) (hr : SpansExpr w r) :
    SpansExpr (v ++ t :: w) (.operation op l r (.clear ⟨l.span.start, r.span.stop⟩))

mutual

/-- The tokens of statements in curly brackets. -/
inductive SpansBody : List Token → List Stmt → Prop
  | mk {start stop : Token} {w : List Token} {ss : List Stmt} (hstart : start.kind = .openCurly)
    (h : SpansAll stop w ss) (hstop : stop.kind = .closeCurly) : SpansBody (start :: w ++ [stop]) ss

/-- The tokens of statements, where `next` comes after the last one. -/
inductive SpansAll : Token → List Token → List Stmt → Prop
  | nil (next : Token) : SpansAll next [] []
  | cons {next : Token} {v w : List Token} {st : Stmt} {ss : List Stmt}
    (h : Statement SpansExpr SpansBody (w.headD next) v st) (hs : SpansAll next w ss) :
    SpansAll next (v ++ w) (st :: ss)

end

mutual

theorem expressionWithin_spans : (n : Nat) → {p : Power} → {s s' : Stream} → {e : Expr} → s.IsSpelled →
    expressionWithin .standard n p s = .ok e s' → ∃ w, s.Reads w s' ∧ SpansExpr w e
  | 0, _, _, _, _, _, h => by cases h
  | n + 1, p, s, s', e, hs, h => by
    rw [expressionWithin] at h
    obtain ⟨left, s₁, hleft, h⟩ := bind_eq_ok.1 h
    have hinner : ReadsAs SpansExpr (expressionWithin .standard n .default) :=
      fun hs h => expressionWithin_spans n hs h
    obtain ⟨v, hreadv, hv⟩ : ∃ v, s.Reads v s₁ ∧ SpansExpr v left := by
      rcases operand_reads hinner hs hleft with ⟨t, hread, ht, -⟩ | ⟨start, w, stop, hread, hstart, hw, hstop⟩
      · exact ⟨_, hread, .operand ht⟩
      · exact ⟨_, hread, .group hstart hw hstop⟩
    obtain ⟨w, hreadw, hw⟩ := extendWithin_spans n (hreadv.isSpelled hs) hv h
    exact ⟨v ++ w, hreadv.append hreadw, hw⟩

/-- What is read after a left operand makes one expression with it. -/
theorem extendWithin_spans : (n : Nat) → {p : Power} → {s s' : Stream} → {l e : Expr} → {u : List Token} →
    s.IsSpelled → SpansExpr u l → extendWithin .standard n p l s = .ok e s' →
    ∃ w, s.Reads w s' ∧ SpansExpr (u ++ w) e
  | 0, _, _, _, _, _, _, _, _, h => by cases h
  | n + 1, p, s, s', l, e, u, hs, hu, h => by
    rcases p.ends_or_operator s.current.kind with hends | ⟨op, hkind, hp⟩
    · rw [extendWithin_of_ends l hends] at h
      obtain ⟨rfl, rfl⟩ := EStateM.Result.ok.inj h
      exact ⟨[], .nil s, by rwa [List.append_nil]⟩
    · rw [extendWithin_of_operator l hkind hp] at h
      obtain ⟨e₁, s₁, hbinary, h⟩ := bind_eq_ok.1 h
      obtain ⟨r, hr, rfl⟩ := binary_eq_ok hkind hbinary
      have hmark := Stream.Reads.current_of_kind hs hkind rfl
      have hs₀ := hmark.isSpelled hs
      obtain ⟨v, hreadv, hv⟩ := expressionWithin_spans n hs₀ hr
      obtain ⟨w, hreadw, hw⟩ := extendWithin_spans n (hreadv.isSpelled hs₀) (.operation hu hkind hv) h
      refine ⟨_, hmark.cons (hreadv.append hreadw), ?_⟩
      rwa [List.append_assoc, List.cons_append] at hw

end

mutual

theorem statementWithin_spans : (n : Nat) → {s s' : Stream} → {st : Stmt} → s.IsSpelled →
    statementWithin .standard n s = .ok st s' →
    ∃ w, s.Reads w s' ∧ Statement SpansExpr SpansBody s'.current w st
  | 0, _, _, _, _, h => by cases h
  | n + 1, s, s', st, hs, h => by
    rw [statementWithin, bind_of_ok (currentKind_apply s)] at h
    cases hform : Table.standard.stmt? s.current.kind with
    | none =>
      rw [hform] at h
      cases h
    | some form =>
      rw [hform] at h
      have hvalue : ReadsAs SpansExpr (expressionWithin .standard n .default) :=
        fun hs h => expressionWithin_spans n hs h
      have hbody : ReadsAs SpansBody (bodyWithin .standard n) := fun hs h => bodyWithin_spans n hs h
      exact statementOf_reads hvalue hbody hs hform h

theorem bodyWithin_spans : (n : Nat) → {s s' : Stream} → {ss : List Stmt} → s.IsSpelled →
    bodyWithin .standard n s = .ok ss s' → ∃ w, s.Reads w s' ∧ SpansBody w ss
  | 0, _, _, _, _, h => by cases h
  | n + 1, s, s', ss, hs, h => by
    obtain ⟨start, w, stop, hread, hstart, hw, hstop⟩ :=
      bodyWithin_reads (fun hs h => statementsWithin_spans n hs h) hs h
    exact ⟨_, hread, .mk hstart hw hstop⟩

theorem statementsWithin_spans : (n : Nat) → {s s' : Stream} → {ss : List Stmt} → s.IsSpelled →
    statementsWithin .standard n s = .ok ss s' → ∃ w, s.Reads w s' ∧ SpansAll s'.current w ss
  | 0, _, _, _, _, h => by cases h
  | n + 1, s, s', ss, hs, h => by
    rcases statementsWithin_eq_ok h with ⟨rfl, rfl⟩ | ⟨st, ss, s₁, rfl, hst, hss⟩
    · exact ⟨[], .nil s, .nil _⟩
    · obtain ⟨v, hreadv, hv⟩ := statementWithin_spans n hs hst
      obtain ⟨w, hreadw, hw⟩ := statementsWithin_spans n (hreadv.isSpelled hs) hss
      rw [hreadw.current_eq_headD] at hv
      exact ⟨v ++ w, hreadv.append hreadw, .cons hv hw⟩

end

theorem topStatementsWithin_spans (n : Nat) {s s' : Stream} {ss : List Stmt} (hs : s.IsSpelled)
    (h : topStatementsWithin .standard n s = .ok ss s') :
    ∃ w, s.Reads w s' ∧ SpansAll s'.current w ss ∧ s'.current.kind = .endOfInput := by
  induction n generalizing s ss with
  | zero => cases h
  | succ n ih =>
    rcases topStatementsWithin_eq_ok h with ⟨rfl, rfl, hend⟩ | ⟨st, ss, s₁, rfl, hst, -, hss⟩
    · exact ⟨[], .nil s, .nil _, hend⟩
    · obtain ⟨v, hreadv, hv⟩ := statementWithin_spans n hs hst
      obtain ⟨w, hreadw, hw, hend⟩ := ih (hreadv.isSpelled hs) hss
      rw [hreadw.current_eq_headD] at hv
      exact ⟨v ++ w, hreadv.append hreadw, .cons hv hw, hend⟩

/-- The statements of a stylesheet span all tokens up to the last one. The stylesheet itself begins with the file, and
not with the first token. -/
theorem ofTokens_spans {file : String} {sheet : Stylesheet} {w : List Token} {last : Token}
    (hlast : last.kind = .endOfInput) (hw : ∀ t ∈ w, t.IsSpelled)
    (h : Stylesheet.ofTokens file (w ++ [last]) = .ok sheet) :
    SpansAll last w sheet.body ∧ sheet.span = ⟨⟨0, file⟩, last.span.start⟩ := by
  have hread := Parse.outcome_eq_ok.1 h
  have hbody := stylesheet_sound hread
  rw [stylesheet_of_ok hbody] at hread
  obtain ⟨hsheet, -⟩ := EStateM.Result.ok.inj hread
  rw [Stream.ofTokens_append_singleton] at hbody
  obtain ⟨v, hreadv, hv, hend⟩ := topStatementsWithin_spans _ (Stream.isSpelled_of_tokens hlast hw) hbody
  obtain ⟨rfl, hrest⟩ := hreadv.eq_of_endOfInput (fun t ht => (hw t ht).kind_ne_endOfInput) hlast hend
  rw [Stream.ofTokens_append_singleton, hrest] at hsheet
  rw [hrest] at hv
  exact ⟨hv, by rw [← hsheet]; rfl⟩

end TypedCss.Grammar
