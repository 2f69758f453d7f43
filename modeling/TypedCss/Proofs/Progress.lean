import TypedCss.Proofs.Persistence

/-!
# Reading moves on

Whatever the tokens are, as long as the last one ends the input: the parser never reads past it, and each statement,
body and expression takes at least one token. The readers need no more rounds than a linear number of the tokens
that are left.
-/

namespace TypedCss.Grammar

open Parse

namespace Stream

/-- The last token that is left ends the input. -/
def IsTerminated (s : Stream) : Prop := ∃ t, s.rest.getLast? = some t ∧ t.kind = .endOfInput

/-- What is left of `s` after at least `k` tokens. The last token is left. -/
def LeadsTo (k : Nat) (s s' : Stream) : Prop := ∃ u, s = s'.prepend u ∧ k ≤ u.length ∧ s'.rest ≠ []

variable {j k : Nat} {s s' s'' : Stream}

theorem IsTerminated.ne_nil (hs : s.IsTerminated) : s.rest ≠ [] := by
  rintro hnil
  obtain ⟨t, ht, -⟩ := hs
  rw [hnil] at ht
  cases ht

theorem IsTerminated.leadsTo_self (hs : s.IsTerminated) : s.LeadsTo 0 s := ⟨[], rfl, Nat.le_refl 0, hs.ne_nil⟩

/-- Only a token after which others are left can be read over. -/
theorem IsTerminated.leadsTo_advance (hs : s.IsTerminated) (h : s.current.kind ≠ .endOfInput) :
    s.LeadsTo 1 s.advance := by
  obtain ⟨rest, last⟩ := s
  obtain ⟨t, ht, hend⟩ := hs
  match rest with
  | [] => cases ht
  | [u] =>
    obtain rfl := Option.some.inj ht
    exact absurd hend h
  | u :: v :: rest => exact ⟨[u], rfl, Nat.le_refl 1, List.cons_ne_nil v rest⟩

theorem LeadsTo.trans (h : s.LeadsTo j s') (h' : s'.LeadsTo k s'') : s.LeadsTo (j + k) s'' := by
  obtain ⟨u, rfl, hu, -⟩ := h
  obtain ⟨v, rfl, hv, hne⟩ := h'
  refine ⟨u ++ v, prepend_prepend u v s'', ?_, hne⟩
  rw [List.length_append]
  omega

theorem LeadsTo.mono (h : s.LeadsTo k s') (hjk : j ≤ k) : s.LeadsTo j s' := by
  obtain ⟨u, hu, hk, hne⟩ := h
  exact ⟨u, hu, Nat.le_trans hjk hk, hne⟩

theorem LeadsTo.length_le (h : s.LeadsTo k s') : s'.rest.length + k ≤ s.rest.length := by
  obtain ⟨u, rfl, hk, -⟩ := h
  rw [prepend, List.length_append]
  omega

theorem LeadsTo.isTerminated (h : s.LeadsTo k s') (hs : s.IsTerminated) : s'.IsTerminated := by
  obtain ⟨u, rfl, -, hne⟩ := h
  obtain ⟨t, ht, hend⟩ := hs
  have hsame := List.getLast?_eq_some_getLast hne
  rw [prepend, List.getLast?_append, hsame, Option.some_or] at ht
  exact ⟨t, hsame.trans ht, hend⟩

end Stream

variable {α β : Type}

/-- From `s` on, `p` takes at least `k` tokens to make something, and the last token is left in any case. -/
structure ProgressesAt (k : Nat) (p : Parse α) (s : Stream) : Prop where
  ok : ∀ {a s'}, p s = .ok a s' → s.LeadsTo k s'
  error : ∀ {fault s'}, p s = .error fault s' → s.LeadsTo 0 s'

/-- Wherever fewer than `n` tokens are left, `p` takes at least one. -/
def Progresses (p : Parse α) (n : Nat) : Prop :=
  ∀ ⦃s : Stream⦄, s.IsTerminated → s.rest.length < n → ProgressesAt 1 p s

theorem Progresses.mono {p : Parse α} {m n : Nat} (h : Progresses p n) (hmn : m ≤ n) : Progresses p m :=
  fun _ hs hm => h hs (Nat.lt_of_lt_of_le hm hmn)

namespace ProgressesAt

variable {j k : Nat} {p : Parse α} {f : α → Parse β} {s : Stream}

theorem weaken (h : ProgressesAt k p s) : ProgressesAt 0 p s := ⟨fun hok => (h.ok hok).mono (Nat.zero_le k), h.error⟩

/-- What comes first takes the tokens that are asked for. -/
theorem bind (hs : s.IsTerminated) (hp : ProgressesAt k p s)
    (hf : ∀ {a s'}, s'.IsTerminated → s.LeadsTo k s' → ProgressesAt 0 (f a) s') : ProgressesAt k (p >>= f) s := by
  constructor
  · intro b s'' h
    obtain ⟨a, s', hfirst, hsecond⟩ := bind_eq_ok.1 h
    have hread := hp.ok hfirst
    exact hread.trans ((hf (hread.isTerminated hs) hread).ok hsecond)
  · intro fault s'' h
    rcases bind_eq_error.1 h with hfirst | ⟨a, s', hfirst, hsecond⟩
    · exact hp.error hfirst
    · have hread := hp.ok hfirst
      exact (hread.mono (Nat.zero_le k)).trans ((hf (hread.isTerminated hs) hread).error hsecond)

theorem pure (hs : s.IsTerminated) (a : α) : ProgressesAt 0 (pure a) s where
  ok h := by
    cases h
    exact hs.leadsTo_self
  error h := nomatch h

theorem throw (hs : s.IsTerminated) (fault : Fault) : ProgressesAt k (throw fault : Parse α) s where
  ok h := nomatch h
  error h := by
    cases h
    exact hs.leadsTo_self

theorem of_eq {p q : Parse α} (hpq : p s = q s) (h : ProgressesAt k q s) : ProgressesAt k p s :=
  ⟨fun hok => h.ok (hpq.symm.trans hok), fun hfault => h.error (hpq.symm.trans hfault)⟩

/-- A look at what is left reads nothing. -/
theorem peek {look : Parse α} {a : α} (hlook : look s = .ok a s) (h : ProgressesAt k (f a) s) :
    ProgressesAt k (look >>= f) s :=
  of_eq (bind_of_ok hlook) h

theorem failWith (hs : s.IsTerminated) (message : String) : ProgressesAt k (failWith message : Parse α) s :=
  peek (get_apply s) (throw hs _)

theorem advance (hs : s.IsTerminated) (h : s.current.kind ≠ .endOfInput) : ProgressesAt 1 advance s where
  ok hok := by
    cases hok
    exact hs.leadsTo_advance h
  error hfault := nomatch hfault

theorem expectation {p : Parse Token} {kind : Kind} {fault : Fault} (hs : s.IsTerminated) (hkind : kind ≠ .endOfInput)
    (hp : p s = if s.current.kind = kind then .ok s.current s.advance else .error fault s) : ProgressesAt 1 p s := by
  by_cases h : s.current.kind = kind
  · rw [if_pos h] at hp
    exact of_eq hp (advance hs (h ▸ hkind))
  · rw [if_neg h] at hp
    exact of_eq hp (throw hs fault)

theorem expect {kind : Kind} (hs : s.IsTerminated) (hkind : kind ≠ .endOfInput) : ProgressesAt 1 (expect kind) s :=
  expectation hs hkind (expect_apply kind s)

theorem expectWith {kind : Kind} (hs : s.IsTerminated) (hkind : kind ≠ .endOfInput) (message : String) :
    ProgressesAt 1 (expectWith kind message) s :=
  expectation hs hkind (expectWith_apply kind message s)

end ProgressesAt

section Expressions

variable {inner : Parse Expr} {s : Stream}

theorem primary_progresses (hs : s.IsTerminated) : ProgressesAt 1 primary s := by
  refine .peek (current_apply s) ?_
  cases h : operandOf s.current with
  | ok e =>
    have hne : s.current.kind ≠ .endOfInput := by
      intro hend
      rw [operandOf, hend] at h
      cases h
    exact .bind hs (.advance hs hne) fun hs _ => .pure hs e
  | error fault => exact .throw hs fault

theorem grouping_progresses (hinner : Progresses inner s.rest.length) (hs : s.IsTerminated)
    (hne : s.current.kind ≠ .endOfInput) : ProgressesAt 1 (grouping inner) s := by
  refine .bind hs (.advance hs hne) fun {_ s'} hs' hread => ?_
  have hlength := hread.length_le
  refine .bind hs' (hinner hs' (by omega)).weaken fun hs _ => ?_
  exact .bind hs (ProgressesAt.expect hs (by simp)).weaken fun hs _ => .pure hs _

theorem operand_progresses (hinner : Progresses inner s.rest.length) (hs : s.IsTerminated) :
    ProgressesAt 1 (operand .standard inner) s := by
  refine .peek (currentKind_apply s) ?_
  cases h : Table.standard.operand? s.current.kind with
  | none => exact .failWith hs _
  | some form =>
    cases form with
    | primary => exact primary_progresses hs
    | grouping => exact grouping_progresses hinner hs (by rw [operand?_eq_grouping.1 h]; simp)

theorem binary_progresses (left : Expr) (hinner : Progresses inner s.rest.length) (hs : s.IsTerminated)
    (hne : s.current.kind ≠ .endOfInput) : ProgressesAt 1 (binary left inner) s := by
  refine .bind hs (.advance hs hne) fun {t s'} hs' hread => ?_
  have hlength := hread.length_le
  cases t.kind with
  | operator op => exact .bind hs' (hinner hs' (by omega)).weaken fun hs _ => .pure hs _
  | _ => exact .throw hs' _

mutual

theorem expressionWithin_progresses : (n : Nat) → (p : Power) → Progresses (expressionWithin .standard n p) n
  | 0, _ => fun _ _ hn => absurd hn (Nat.not_lt_zero _)
  | n + 1, p => by
    intro s hs hn
    rw [expressionWithin]
    have hinner := (expressionWithin_progresses n .default).mono (Nat.le_of_lt_succ hn)
    refine .bind hs (operand_progresses hinner hs) fun {left s'} hs' hread => ?_
    have hlength := hread.length_le
    exact extendWithin_progresses n p left hs' (by omega)

theorem extendWithin_progresses : (n : Nat) → (p : Power) → (left : Expr) → ⦃s : Stream⦄ → s.IsTerminated →
    s.rest.length < n → ProgressesAt 0 (extendWithin .standard n p left) s
  | 0, _, _, _, _, hn => absurd hn (Nat.not_lt_zero _)
  | n + 1, p, left, s, hs, hn => by
    rcases p.ends_or_operator s.current.kind with hends | ⟨op, hkind, hp⟩
    · exact .of_eq (extendWithin_of_ends left hends) (.pure hs left)
    · refine .of_eq (extendWithin_of_operator left hkind hp) ?_
      have hinner := (expressionWithin_progresses n (powerOf op)).mono (Nat.le_of_lt_succ hn)
      have hbinary := binary_progresses left hinner hs (by rw [hkind]; simp)
      refine .weaken (.bind hs hbinary fun {e s'} hs' hread => ?_)
      have hlength := hread.length_le
      exact extendWithin_progresses n p e hs' (by omega)

end

end Expressions

section Statements

variable {value : Parse Expr} {body : Parse (List Stmt)} {s : Stream}

/-- A token, a mark, an expression and another mark in front of the rest. -/
theorem marked_progresses {mark : Parse Token} {right : Kind} {rest : Token → Expr → Token → Parse α}
    (hvalue : Progresses value s.rest.length) (hs : s.IsTerminated) (hne : s.current.kind ≠ .endOfInput)
    (hmark : ∀ {s : Stream}, s.IsTerminated → ProgressesAt 1 mark s) (hright : right ≠ .endOfInput)
    (hrest : ∀ {t e stop s'}, s'.IsTerminated → s.LeadsTo 1 s' → ProgressesAt 0 (rest t e stop) s') :
    ProgressesAt 1 (do
      let t ← advance
      let _ ← mark
      let e ← value
      let stop ← expect right
      rest t e stop) s := by
  refine .bind hs (.advance hs hne) fun {_ s₁} hs₁ hread₁ => ?_
  refine .bind hs₁ (hmark hs₁).weaken fun {_ s₂} hs₂ hread₂ => ?_
  have hlength := (hread₁.trans hread₂).length_le
  refine .bind hs₂ (hvalue hs₂ (by omega)).weaken fun {_ s₃} hs₃ hread₃ => ?_
  refine .bind hs₃ (ProgressesAt.expect hs₃ hright).weaken fun hs₄ hread₄ => ?_
  exact hrest hs₄ (((hread₁.trans hread₂).trans hread₃).trans hread₄)

theorem assignment_progresses (hvalue : Progresses value s.rest.length) (hs : s.IsTerminated)
    (hne : s.current.kind ≠ .endOfInput) : ProgressesAt 1 (assignment value) s :=
  marked_progresses hvalue hs hne (fun hs => .expectWith hs (by simp) _) (by simp) fun hs _ => .pure hs _

theorem declaration_progresses (hvalue : Progresses value s.rest.length) (hs : s.IsTerminated)
    (hne : s.current.kind ≠ .endOfInput) : ProgressesAt 1 (declaration value) s :=
  marked_progresses hvalue hs hne (fun hs => .expect hs (by simp)) (by simp) fun hs _ => .pure hs _

theorem ifClause_progresses (hvalue : Progresses value s.rest.length) (hbody : Progresses body s.rest.length)
    (hs : s.IsTerminated) (hne : s.current.kind ≠ .endOfInput) : ProgressesAt 1 (ifClause value body) s := by
  refine marked_progresses hvalue hs hne (fun hs => .expectWith hs (by simp) _) (by simp) fun {t c _ s'} hs' hread => ?_
  have hlength := hread.length_le
  refine .bind hs' (hbody hs' (by omega)).weaken fun {ss s''} hs'' _ => ?_
  exact .peek (position_apply s'') (.pure hs'' _)

theorem rule_progresses (hbody : Progresses body s.rest.length) (hs : s.IsTerminated)
    (hne : s.current.kind ≠ .endOfInput) : ProgressesAt 1 (rule body) s := by
  refine .bind hs (.advance hs hne) fun {t s'} hs' hread => ?_
  have hlength := hread.length_le
  cases selectorOf? t with
  | none => exact .throw hs' _
  | some selector =>
    refine .bind hs' (hbody hs' (by omega)).weaken fun {ss s''} hs'' _ => ?_
    exact .peek (position_apply s'') (.pure hs'' _)

theorem statementOf_progresses (hvalue : Progresses value s.rest.length) (hbody : Progresses body s.rest.length)
    (form : StmtForm) (hs : s.IsTerminated) (hne : s.current.kind ≠ .endOfInput) :
    ProgressesAt 1 (statementOf value body form) s := by
  cases form with
  | assignment => exact assignment_progresses hvalue hs hne
  | word =>
    refine .peek (get_apply s) ?_
    split
    · exact declaration_progresses hvalue hs hne
    · exact rule_progresses hbody hs hne
  | declaration => exact declaration_progresses hvalue hs hne
  | rule => exact rule_progresses hbody hs hne
  | ifClause => exact ifClause_progresses hvalue hbody hs hne

mutual

theorem statementWithin_progresses : (n : Nat) → ⦃s : Stream⦄ → s.IsTerminated → 2 * s.rest.length < n →
    ProgressesAt 1 (statementWithin .standard n) s
  | 0, _, _, hn => absurd hn (Nat.not_lt_zero _)
  | n + 1, s, hs, hn => by
    rw [statementWithin]
    refine .peek (currentKind_apply s) ?_
    cases hform : Table.standard.stmt? s.current.kind with
    | none => exact .failWith hs _
    | some form =>
      have hvalue := (expressionWithin_progresses n .default).mono (m := s.rest.length) (by omega)
      have hbody : Progresses (bodyWithin .standard n) s.rest.length :=
        fun _ hs hlength => bodyWithin_progresses n hs (by omega)
      exact statementOf_progresses hvalue hbody form hs (kind_ne_of_stmt? hform).2

theorem bodyWithin_progresses : (n : Nat) → ⦃s : Stream⦄ → s.IsTerminated → 2 * s.rest.length < n →
    ProgressesAt 1 (bodyWithin .standard n) s
  | 0, _, _, hn => absurd hn (Nat.not_lt_zero _)
  | n + 1, s, hs, hn => by
    rw [bodyWithin]
    refine .bind hs (.expect hs (by simp)) fun {_ s'} hs' hread => ?_
    have hlength := hread.length_le
    refine .bind hs' (statementsWithin_progresses n hs' (by omega)) fun hs'' _ => ?_
    exact .bind hs'' (ProgressesAt.expect hs'' (by simp)).weaken fun hs _ => .pure hs _

theorem statementsWithin_progresses : (n : Nat) → ⦃s : Stream⦄ → s.IsTerminated → 2 * s.rest.length + 1 < n →
    ProgressesAt 0 (statementsWithin .standard n) s
  | 0, _, _, hn => absurd hn (Nat.not_lt_zero _)
  | n + 1, s, hs, hn => by
    by_cases hclose : s.current.kind = .closeCurly
    · exact .of_eq (statementsWithin_of_closeCurly n hclose) (.pure hs [])
    · by_cases hend : s.current.kind = .endOfInput
      · exact .of_eq (statementsWithin_of_endOfInput n hend) (.throw hs _)
      · refine .of_eq (statementsWithin_of_ne n hclose hend) ?_
        have hfirst := statementWithin_progresses n hs (by omega)
        refine .weaken (.bind hs hfirst fun {_ s'} hs' hread => ?_)
        have hlength := hread.length_le
        exact .bind hs' (statementsWithin_progresses n hs' (by omega)) fun hs _ => .pure hs _

end

theorem topStatement_progresses {statement : Parse Stmt} (hs : s.IsTerminated) (h : ProgressesAt 1 statement s) :
    ProgressesAt 1 (topStatement statement) s := by
  refine .peek (current_apply s) (.bind hs h fun {st _} hs' _ => ?_)
  cases st with
  | assignment | rule => exact .pure hs' _
  | declaration | ifClause => exact .throw hs' _

theorem topStatementsWithin_progresses (n : Nat) (hs : s.IsTerminated) (hn : 2 * s.rest.length + 1 < n) :
    ProgressesAt 0 (topStatementsWithin .standard n) s := by
  induction n generalizing s with
  | zero => exact absurd hn (Nat.not_lt_zero _)
  | succ n ih =>
    rw [topStatementsWithin]
    refine .peek (currentKind_apply s) ?_
    split
    · exact .pure hs []
    · have hfirst := topStatement_progresses hs (statementWithin_progresses n hs (by omega))
      refine .weaken (.bind hs hfirst fun {_ s'} hs' hread => ?_)
      have hlength := hread.length_le
      exact .bind hs' (ih hs' (by omega)) fun hs _ => .pure hs _

end Statements

end TypedCss.Grammar
