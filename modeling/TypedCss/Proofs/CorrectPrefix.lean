import TypedCss.Proofs.Recognition
import TypedCss.Proofs.Viability

/-!
# Faults are at the first wrong token

A loose stylesheet may have declarations and if clauses at its top level. Where the parser stops with a fault,
the tokens before that place are the front of a loose stylesheet, and together with the token there they are
not. The one fault that is about the top level comes later than its token, once the whole statement has been
read.
-/

namespace TypedCss.Grammar

open Parse

/-- The tokens of statements of any form, one after the other. -/
def IsLooseSheet (w : List Token) : Prop := (∀ t ∈ w, t.IsReadable) ∧ ∃ ss, Items w ss

/-- The fault that a statement may not stand at the top level. -/
def IsOutside (fault : Fault) : Prop :=
  ∃ t, fault.cause = .misplaced t "declarations and if clauses must be inside a style rule"

variable {s s₁ s₂ s' : Stream} {fault : Fault} {u v w : List Token} {file : String}

theorem error_of_topStatement {statement : Parse Stmt} (h : topStatement statement s = .error fault s₁)
    (houtside : ¬IsOutside fault) : statement s = .error fault s₁ := by
  unfold topStatement at h
  rw [bind_of_ok (current_apply s)] at h
  rcases bind_eq_error.1 h with h | ⟨st, s₂, -, h⟩
  · exact h
  · cases st with
    | assignment | rule => cases h
    | declaration | ifClause =>
      cases h
      exact absurd ⟨_, rfl⟩ houtside

/-- Either the first statement has the fault, or it is read and the fault comes later. -/
theorem topStatementsWithin_eq_error {n : Nat} (h : topStatementsWithin .standard (n + 1) s = .error fault s₁)
    (houtside : ¬IsOutside fault) : s.current.kind ≠ .endOfInput ∧
      (statementWithin .standard n s = .error fault s₁ ∨
        ∃ st s₂, statementWithin .standard n s = .ok st s₂ ∧
          topStatementsWithin .standard n s₂ = .error fault s₁) := by
  rw [topStatementsWithin, bind_of_ok (currentKind_apply s)] at h
  by_cases hend : s.current.kind = .endOfInput
  · rw [if_pos hend] at h
    cases h
  · rw [if_neg hend] at h
    refine ⟨hend, ?_⟩
    rcases bind_eq_error.1 h with h | ⟨st, s₂, hst, h⟩
    · exact .inl (error_of_topStatement h houtside)
    · rcases bind_eq_error.1 h with h | ⟨ss, s₃, -, h⟩
      · exact .inr ⟨st, s₂, (topStatement_sound hst).1, h⟩
      · cases h

theorem topStatementsWithin_stops (n : Nat) (hs : s.IsSpelled) (hn : 2 * s.rest.length + 2 < n)
    (h : topStatementsWithin .standard n s = .error fault s₁) (houtside : ¬IsOutside fault) :
    StopsAt (fun w => ∃ ss, Items w ss) s fault s₁ := by
  induction n generalizing s with
  | zero => exact absurd hn (Nat.not_lt_zero _)
  | succ n ih =>
    obtain ⟨-, h | ⟨st, s₂, hst, h⟩⟩ := topStatementsWithin_eq_error h houtside
    · refine (statementWithin_stops n hs (by omega) h).imp ?_
      rintro w ⟨st, hw⟩
      rw [← List.append_nil w]
      exact ⟨[st], .cons hw .nil⟩
    · obtain ⟨v, hreadv, hv⟩ := statementWithin_sound n hs hst
      have hlength := hreadv.length_eq
      have hpos := hv.length_pos
      refine (ih (hreadv.isSpelled hs) (by omega) h).within [] hreadv (List.forall_mem_nil _) ?_
      rintro w ⟨ss, hw⟩
      rw [List.map_nil, List.append_nil]
      exact ⟨_, .cons hv hw⟩

/-- What can be read from the stream up to the end of the input is no sequence of statements. -/
def IsDead (s : Stream) : Prop := ∀ w ss s', s.Reads w s' → s'.current.kind = .endOfInput → ¬Items w ss

/-- A stream is dead if its first statement is not read, or is read and leaves a dead stream. -/
theorem isDead_of_statement (hs : s.IsSpelled) (hend : s.current.kind ≠ .endOfInput) (n : Nat)
    (h : ∀ m, n ≤ m → ∀ st s', statementWithin .standard m s = .ok st s' → IsDead s') : IsDead s := by
  intro w ss s' hread hend' hitems
  cases hitems with
  | nil =>
    obtain rfl := hread.eq_of_nil
    exact hend hend'
  | @cons v w st ss hitem hitems =>
    obtain ⟨s₁, hreadv, hreadw⟩ := hread.split
    obtain ⟨st', hst, -⟩ := statementWithin_complete (max n v.length) hs hreadv hitem (Nat.le_max_right _ _)
    exact h _ (Nat.le_max_left _ _) _ _ hst w ss s' hreadw hend' hitems

theorem topStatementsWithin_dead (n : Nat) (hs : s.IsSpelled)
    (h : topStatementsWithin .standard n s = .error fault s₁) (hcause : fault.cause ≠ .runaway)
    (houtside : ¬IsOutside fault) : ∃ u, s = s₁.prepend u ∧
      ∀ s' : Stream, s'.Resembles s₁ → (s'.prepend u).IsSpelled → IsDead (s'.prepend u) := by
  induction n generalizing s with
  | zero =>
    cases h
    exact absurd rfl hcause
  | succ n ih =>
    have hpersists := fun m hm => statementWithin_persists n m hm s hs.last
    obtain ⟨hend, h | ⟨st, s₂, hst, h⟩⟩ := topStatementsWithin_eq_error h houtside
    · obtain ⟨u, hu, -⟩ := (hpersists n (Nat.le_refl n)).error h hcause
      refine ⟨u, hu, fun s' hs' hspelled => isDead_of_statement hspelled ?_ n fun m hm st s₃ hst => ?_⟩
      · rwa [(hs'.prepend u).current, ← hu]
      · -- the tokens up to the fault are the same for any number of rounds
        obtain ⟨u', hu', hfault⟩ := (hpersists m hm).error h hcause
        obtain rfl := Stream.prepend_inj (hu.symm.trans hu')
        rw [hfault hs'] at hst
        cases hst
    · obtain ⟨v, hreadv, -⟩ := statementWithin_sound n hs hst
      obtain ⟨u, rfl, hdead⟩ := ih (hreadv.isSpelled hs) h
      refine ⟨v ++ u, ?_, fun s' hs' hspelled => ?_⟩
      · rw [← Stream.prepend_prepend]
        exact hreadv.eq_prepend
      · rw [← Stream.prepend_prepend] at hspelled ⊢
        refine isDead_of_statement hspelled ?_ n fun m hm st' s₃ hst' => ?_
        · rwa [((hs'.prepend u).prepend v).current, ← hreadv.eq_prepend]
        · obtain ⟨v', hv', hok⟩ := (hpersists m hm).ok hst
          obtain rfl := Stream.prepend_inj (hv'.symm.trans hreadv.eq_prepend)
          rw [hok (hs'.prepend u)] at hst'
          cases hst'
          exact hdead s' hs' ⟨fun t ht => hspelled.tokens t (List.mem_append_right _ ht), hspelled.last⟩

theorem Parse.outcome_eq_error {α : Type} {p : Parse α} (h : (p.outcome s).1 = .error fault) :
    p s = .error fault (p.outcome s).2 := by
  unfold outcome EStateM.run at h ⊢
  cases hp : p s with
  | ok a s' => simp [hp] at h
  | error fault' s' => simpa [hp] using h

theorem error_of_stylesheet (h : stylesheet .standard file s = .error fault s₁) :
    topStatementsWithin .standard s.budget s = .error fault s₁ := by
  unfold stylesheet at h
  rw [bind_of_ok (get_apply s)] at h
  rcases bind_eq_error.1 h with h | ⟨ss, s₂, -, h⟩
  · exact h
  · cases h

theorem Stream.IsSpelled.isReadable (hs : s.IsSpelled) (h : s.Reads w s') : ∀ t ∈ w, t.IsReadable := by
  intro t ht
  have hmem : t ∈ s.rest := by
    rw [h.eq]
    exact List.mem_append_left _ ht
  exact ⟨hs.tokens t hmem (h.ne_end t ht), h.fits t ht⟩

theorem not_isLooseSheet {last : Token} (hlast : last.kind = .endOfInput)
    (h : Stream.IsSpelled ⟨w ++ [last], last⟩ → IsDead ⟨w ++ [last], last⟩) : ¬IsLooseSheet w := by
  rintro ⟨hw, ss, hitems⟩
  have hread : Stream.Reads ⟨w ++ [last], last⟩ w ⟨[last], last⟩ :=
    ⟨rfl, fun t ht => (hw t ht).2, fun t ht => (hw t ht).1.kind_ne_endOfInput⟩
  exact h (Stream.isSpelled_of_tokens hlast fun t ht => (hw t ht).1) w ss _ hread hlast hitems

/-- A fault is at the first token that no loose stylesheet has after the tokens before it. At the end of the
input, it is these that are no loose stylesheet. -/
theorem faults_at_first_wrong_token {source : String} {ts : List Token}
    (hts : Token.ofSource file source = .ok ts) (h : Stylesheet.ofTokens file ts = .error fault)
    (houtside : ¬IsOutside fault) :
    ∃ before k after, ts = before ++ k :: after ∧ fault.position = k.span.start ∧
      (∃ rest, IsLooseSheet (before ++ rest)) ∧
      (k.kind ≠ .endOfInput → ∀ rest, ¬IsLooseSheet (before ++ k :: rest)) ∧
      (k.kind = .endOfInput → ¬IsLooseSheet before) := by
  obtain ⟨w, last, rfl, hlast, hw⟩ := Token.exists_of_ofSource hts
  have hs := Stream.isSpelled_of_tokens hlast hw
  have hrun := error_of_stylesheet (Parse.outcome_eq_error h)
  generalize ((stylesheet .standard file).outcome (Stream.ofTokens file (w ++ [last]))).2 = s₁ at hrun
  rw [Stream.ofTokens_append_singleton] at hrun
  have hbudget : 2 * (w ++ [last]).length + 2 < Stream.budget ⟨w ++ [last], last⟩ := by
    exact Nat.add_lt_add_left (by decide) _
  have hstops := topStatementsWithin_stops _ hs hbudget hrun houtside
  obtain ⟨u, v, hread, hv, hitems⟩ := hstops.viable
  obtain ⟨u', hu', hdead⟩ := topStatementsWithin_dead _ hs hrun hstops.fault.cause houtside
  obtain rfl := Stream.prepend_inj (hu'.symm.trans hread.eq_prepend)
  obtain ⟨rest, last'⟩ := s₁
  obtain ⟨htokens, rfl⟩ := Stream.mk.inj hread.eq
  cases rest with
  | nil =>
    rw [List.append_nil] at htokens
    exact absurd hlast (hread.ne_end last (htokens ▸ List.mem_append_right w List.mem_cons_self))
  | cons k after =>
    refine ⟨u', k, after, htokens, hstops.fault.position, ⟨v, ?_, hitems⟩, ?_, ?_⟩
    · exact List.forall_mem_append.2 ⟨hs.isReadable hread, hv⟩
    · intro _ rest
      refine not_isLooseSheet hlast fun hspelled => ?_
      rw [List.append_assoc] at hspelled ⊢
      exact hdead ⟨k :: (rest ++ [last]), last⟩ ⟨hlast, rfl⟩ hspelled
    · intro hk
      have hmem : k ∈ w ++ [last] := htokens ▸ List.mem_append_right u' List.mem_cons_self
      rcases List.mem_append.1 hmem with hmem | hmem
      · exact absurd hk (hw k hmem).kind_ne_endOfInput
      · obtain rfl := List.mem_singleton.1 hmem
        exact not_isLooseSheet hlast (hdead ⟨[k], k⟩ ⟨hlast, rfl⟩)

/-- A number without a 32-bit form in a declaration at the top level, which is not what the fault is about. -/
theorem faults_at_first_wrong_token_number :
    let source := "w: 1px + (2147483648);"
    let fault : Fault := ⟨.badNumber "2147483648", ⟨10, "a"⟩⟩
    ∃ ts, Token.ofSource "a" source = .ok ts ∧ Stylesheet.ofTokens "a" ts = .error fault ∧ ¬IsOutside fault ∧
      ∃ before k after, ts = before ++ k :: after ∧ fault.position = k.span.start ∧
        (∃ rest, IsLooseSheet (before ++ rest)) ∧
        (k.kind ≠ .endOfInput → ∀ rest, ¬IsLooseSheet (before ++ k :: rest)) ∧
        (k.kind = .endOfInput → ¬IsLooseSheet before) := by
  intro source fault
  have hfault : (Token.ofSource "a" source).toOption.map (fun ts => match Stylesheet.ofTokens "a" ts with
      | .ok _ => none
      | .error fault => some fault) = some (some fault) := by decide +kernel
  have houtside : ¬IsOutside fault := by
    rintro ⟨t, ht⟩
    cases ht
  cases hts : Token.ofSource "a" source with
  | error fault' =>
    rw [hts] at hfault
    cases hfault
  | ok ts =>
    rw [hts] at hfault
    cases hsheet : Stylesheet.ofTokens "a" ts with
    | ok sheet => simp [Except.toOption, hsheet] at hfault
    | error fault' =>
      obtain rfl : fault' = fault := by simpa [Except.toOption, hsheet] using hfault
      exact ⟨ts, rfl, hsheet, houtside, faults_at_first_wrong_token hts hsheet houtside⟩

end TypedCss.Grammar
