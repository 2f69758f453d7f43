import TypedCss.Proofs.Expressions

/-!
# Statements and their grammar

What the parser reads as a statement has a derivation, and what has a derivation is read as the tree that
the derivation makes. One token of lookahead is enough to tell a declaration from a rule.
-/

namespace TypedCss.Grammar

open Parse

variable {s s' : Stream}

theorem sigil_append_withoutSigil {sigil text : String} {c : Char} {name : List Char}
    (hsigil : sigil.toList = [c]) (h : text.toList = c :: name) : text = sigil ++ withoutSigil text := by
  apply String.toList_injective
  rw [withoutSigil, String.toList_append, String.toList_ofList, hsigil, h]
  rfl

theorem selectorOf?_sound {t : Token} {selector : Selector} (ht : t.kind ≠ .endOfInput → t.IsSpelled)
    (h : selectorOf? t = some selector) : t.kind.isFixed ∧ Selects t selector := by
  unfold selectorOf? at h
  cases hkind : t.kind with
  | word =>
    rw [hkind] at h
    obtain rfl := Option.some.inj h
    exact ⟨rfl, .tag hkind⟩
  | className =>
    obtain ⟨name, htext⟩ := (ht (by simp [hkind])).className hkind
    rw [hkind] at h
    obtain rfl := Option.some.inj h
    exact ⟨rfl, .className hkind (sigil_append_withoutSigil rfl htext)⟩
  | idName | color =>
    obtain ⟨name, htext⟩ := (ht (by simp [hkind])).hash (by simp [hkind])
    rw [hkind] at h
    obtain rfl := Option.some.inj h
    exact ⟨rfl, .id (by simp [hkind]) (sigil_append_withoutSigil rfl htext)⟩
  | _ =>
    rw [hkind] at h
    cases h

theorem selectorOf?_complete {t : Token} {selector : Selector} (h : Selects t selector) :
    selectorOf? t = some selector := by
  unfold selectorOf?
  cases h with
  | tag hkind => rw [hkind]
  | className hkind htext =>
    rw [hkind]
    simp [withoutSigil, htext]
  | id hkind htext => rcases hkind with hkind | hkind <;> simp [hkind, withoutSigil, htext]

/-- The kind of token that a form of statement begins with. -/
theorem stmt?_eq_some {kind : Kind} {form : StmtForm} (h : Table.standard.stmt? kind = some form) :
    match form with
    | .assignment => kind = .name
    | .word => kind = .word
    | .declaration => False
    | .rule => kind = .className ∨ kind = .idName ∨ kind = .color
    | .ifClause => kind = .ifWord := by
  cases kind <;> cases h <;> simp

theorem kind_ne_of_stmt? {kind : Kind} {form : StmtForm} (h : Table.standard.stmt? kind = some form) :
    kind ≠ .closeCurly ∧ kind ≠ .endOfInput := by
  constructor <;> rintro rfl <;> cases h

theorem statementsWithin_of_closeCurly (n : Nat) (h : s.current.kind = .closeCurly) :
    statementsWithin .standard (n + 1) s = .ok [] s := by
  rw [statementsWithin, bind_of_ok (currentKind_apply s), h]
  rfl

theorem statementsWithin_of_endOfInput (n : Nat) (h : s.current.kind = .endOfInput) :
    statementsWithin .standard (n + 1) s = .error (misplaced s "expected `\x7d` before end of file") s := by
  rw [statementsWithin, bind_of_ok (currentKind_apply s), h]
  rfl

theorem statementsWithin_of_ne (n : Nat) (hclose : s.current.kind ≠ .closeCurly)
    (hend : s.current.kind ≠ .endOfInput) :
    statementsWithin .standard (n + 1) s = (do
      let st ← statementWithin .standard n
      let ss ← statementsWithin .standard n
      return st :: ss) s := by
  rw [statementsWithin, bind_of_ok (currentKind_apply s)]
  cases hkind : s.current.kind with
  | closeCurly => exact absurd hkind hclose
  | endOfInput => exact absurd hkind hend
  | _ => rfl

section Sound

variable {α : Type} {first : Parse Token} {left right : Kind} {value : Parse Expr} {body : Parse (List Stmt)}
  {st : Stmt} {k : Expr → Token → Parse α} {a : α}

theorem enclosed_reads {P : List Token → Expr → Prop}
    (hfirst : ∀ {t s₁}, first s = .ok t s₁ → s.current.kind = left ∧ s.current = t ∧ s.advance = s₁)
    (hleft : left.isFixed) (hright : right.isFixed) (hvalue : ReadsAs P value) (hs : s.IsSpelled)
    (h : (do let _ ← first; let e ← value; let stop ← expect right; k e stop) s = .ok a s') :
    ∃ mark w e stop s₁, s.Reads (mark :: w ++ [stop]) s₁ ∧ mark.kind = left ∧ P w e ∧ stop.kind = right ∧
      k e stop s₁ = .ok a s' := by
  obtain ⟨mark, s₁, hmark, h⟩ := bind_eq_ok.1 h
  obtain ⟨hkind, rfl, rfl⟩ := hfirst hmark
  obtain ⟨e, s₂, he, h⟩ := bind_eq_ok.1 h
  obtain ⟨stop, s₃, hstop, h⟩ := bind_eq_ok.1 h
  obtain ⟨hkind', rfl, rfl⟩ := expect_eq_ok.1 hstop
  have hread := Stream.Reads.current_of_kind hs hkind hleft
  obtain ⟨w, hreadw, hw⟩ := hvalue (hread.isSpelled hs) he
  have hread' := Stream.Reads.current_of_kind (hreadw.isSpelled (hread.isSpelled hs)) hkind' hright
  exact ⟨_, w, e, _, _, hread.cons (hreadw.append hread'), hkind, hw, hkind', h⟩

/-- A statement, its tokens, and the token that comes after them. The expressions in it have the property `P` with
their tokens, and its body has `B`. -/
inductive Statement (P : List Token → Expr → Prop) (B : List Token → List Stmt → Prop) :
    Token → List Token → Stmt → Prop
  | assignment {name mark stop next : Token} {w : List Token} {e : Expr} (hname : name.kind = .name)
    (hmark : mark.kind = .assign) (he : P w e) (hstop : stop.kind = .semicolon) :
    Statement P B next (name :: mark :: w ++ [stop])
      (.assignment name.text e (.clear ⟨name.span.start, stop.span.stop⟩))
  | declaration {property mark stop next : Token} {w : List Token} {e : Expr} (hproperty : property.kind = .word)
    (hmark : mark.kind = .colon) (he : P w e) (hstop : stop.kind = .semicolon) :
    Statement P B next (property :: mark :: w ++ [stop])
      (.declaration property.text e (.clear ⟨property.span.start, stop.span.stop⟩))
  | rule {t next : Token} {selector : Selector} {w : List Token} {body : List Stmt} (ht : Selects t selector)
    (hbody : B w body) : Statement P B next (t :: w) (.rule selector body (.clear ⟨t.span.start, next.span.start⟩))
  | ifClause {start left right next : Token} {v w : List Token} {c : Expr} {body : List Stmt}
    (hstart : start.kind = .ifWord) (hleft : left.kind = .openBracket) (hc : P v c)
    (hright : right.kind = .closeBracket) (hbody : B w body) :
    Statement P B next (start :: left :: v ++ right :: w)
      (.ifClause c body (.clear ⟨start.span.start, next.span.start⟩))

section Reads

variable {P : List Token → Expr → Prop} {B : List Token → List Stmt → Prop}

theorem assignment_reads (hvalue : ReadsAs P value) (hs : s.IsSpelled) (hkind : s.current.kind = .name)
    (h : assignment value s = .ok st s') : ∃ w, s.Reads w s' ∧ Statement P B s'.current w st := by
  unfold assignment at h
  rw [bind_of_ok (advance_apply s)] at h
  have hname := Stream.Reads.current_of_kind hs hkind rfl
  obtain ⟨mark, w, e, stop, s₁, hread, hmark, hw, hstop, h⟩ :=
    enclosed_reads expectWith_eq_ok.1 rfl rfl hvalue (hname.isSpelled hs) h
  obtain ⟨rfl, rfl⟩ := EStateM.Result.ok.inj h
  exact ⟨_, hname.cons hread, .assignment hkind hmark hw hstop⟩

theorem declaration_reads (hvalue : ReadsAs P value) (hs : s.IsSpelled) (hkind : s.current.kind = .word)
    (h : declaration value s = .ok st s') : ∃ w, s.Reads w s' ∧ Statement P B s'.current w st := by
  unfold declaration at h
  rw [bind_of_ok (advance_apply s)] at h
  have hproperty := Stream.Reads.current_of_kind hs hkind rfl
  obtain ⟨mark, w, e, stop, s₁, hread, hmark, hw, hstop, h⟩ :=
    enclosed_reads expect_eq_ok.1 rfl rfl hvalue (hproperty.isSpelled hs) h
  obtain ⟨rfl, rfl⟩ := EStateM.Result.ok.inj h
  exact ⟨_, hproperty.cons hread, .declaration hkind hmark hw hstop⟩

theorem rule_reads (hbody : ReadsAs B body) (hs : s.IsSpelled) (h : rule body s = .ok st s') :
    ∃ w, s.Reads w s' ∧ Statement P B s'.current w st := by
  unfold rule at h
  rw [bind_of_ok (advance_apply s)] at h
  cases hselector : selectorOf? s.current with
  | none =>
    rw [hselector] at h
    cases h
  | some selector =>
    rw [hselector] at h
    obtain ⟨hfixed, hselects⟩ := selectorOf?_sound hs.current hselector
    have hread := Stream.Reads.current_of_kind hs rfl hfixed
    obtain ⟨ss, s₁, hss, h⟩ := bind_eq_ok.1 h
    rw [bind_of_ok (position_apply s₁)] at h
    obtain ⟨rfl, rfl⟩ := EStateM.Result.ok.inj h
    obtain ⟨w, hread', hw⟩ := hbody (hread.isSpelled hs) hss
    exact ⟨_, hread.cons hread', .rule hselects hw⟩

theorem ifClause_reads (hvalue : ReadsAs P value) (hbody : ReadsAs B body) (hs : s.IsSpelled)
    (hkind : s.current.kind = .ifWord) (h : ifClause value body s = .ok st s') :
    ∃ w, s.Reads w s' ∧ Statement P B s'.current w st := by
  unfold ifClause at h
  rw [bind_of_ok (advance_apply s)] at h
  have hstart := Stream.Reads.current_of_kind hs hkind rfl
  have hs₀ := hstart.isSpelled hs
  obtain ⟨left, v, c, right, s₁, hread, hleft, hc, hright, h⟩ :=
    enclosed_reads expectWith_eq_ok.1 rfl rfl hvalue hs₀ h
  obtain ⟨ss, s₂, hss, h⟩ := bind_eq_ok.1 h
  rw [bind_of_ok (position_apply s₂)] at h
  obtain ⟨rfl, rfl⟩ := EStateM.Result.ok.inj h
  obtain ⟨w, hread', hw⟩ := hbody (hread.isSpelled hs₀) hss
  refine ⟨_, ?_, .ifClause hkind hleft hc hright hw⟩
  have hall := hstart.cons (hread.append hread')
  rwa [List.append_assoc, List.singleton_append] at hall

theorem wordStatement_reads (hvalue : ReadsAs P value) (hbody : ReadsAs B body) (hs : s.IsSpelled)
    (hkind : s.current.kind = .word) (h : wordStatement value body s = .ok st s') :
    ∃ w, s.Reads w s' ∧ Statement P B s'.current w st := by
  unfold wordStatement at h
  rw [bind_of_ok (get_apply s)] at h
  by_cases hcolon : s.nextKind = .colon
  · rw [if_pos hcolon] at h
    exact declaration_reads hvalue hs hkind h
  · rw [if_neg hcolon] at h
    exact rule_reads hbody hs h

theorem statementOf_reads {form : StmtForm} (hvalue : ReadsAs P value) (hbody : ReadsAs B body)
    (hs : s.IsSpelled) (hform : Table.standard.stmt? s.current.kind = some form)
    (h : statementOf value body form s = .ok st s') : ∃ w, s.Reads w s' ∧ Statement P B s'.current w st := by
  have hkind := stmt?_eq_some hform
  cases form with
  | assignment => exact assignment_reads hvalue hs hkind h
  | word => exact wordStatement_reads hvalue hbody hs hkind h
  | declaration => exact hkind.elim
  | rule => exact rule_reads hbody hs h
  | ifClause => exact ifClause_reads hvalue hbody hs hkind h

end Reads

/-- What is read by `body` is the body of a rule or an if clause. -/
def ReadsBody (body : Parse (List Stmt)) : Prop :=
  ∀ {s s' : Stream} {ss : List Stmt}, s.IsSpelled → body s = .ok ss s' →
    ∃ w, s.Reads w s' ∧ Body w (Stmt.allWithoutSpans ss)

theorem statementOf_sound {form : StmtForm} (hvalue : ReadsExpression value) (hbody : ReadsBody body)
    (hs : s.IsSpelled) (hform : Table.standard.stmt? s.current.kind = some form)
    (h : statementOf value body form s = .ok st s') : ∃ w, s.Reads w s' ∧ Item w st.withoutSpans := by
  have hvalue' : ReadsAs (fun w e => Expression w e.withoutSpans) value := hvalue
  have hbody' : ReadsAs (fun w ss => Body w (Stmt.allWithoutSpans ss)) body := hbody
  obtain ⟨w, hread, hst⟩ := statementOf_reads hvalue' hbody' hs hform h
  refine ⟨w, hread, ?_⟩
  cases hst with
  | assignment hname hmark he hstop => exact .assignment (.mk hname hmark he hstop)
  | declaration hproperty hmark he hstop => exact .declaration (.mk hproperty hmark he hstop)
  | rule ht hbody => exact .rule (.mk ht hbody)
  | ifClause hstart hleft hc hright hbody => exact .clause (.mk hstart hleft hc hright hbody)

theorem bodyWithin_reads {n : Nat} {ss : List Stmt} {C : Token → List Token → List Stmt → Prop}
    (hitems : ∀ {s s' : Stream} {ss : List Stmt}, s.IsSpelled → statementsWithin .standard n s = .ok ss s' →
      ∃ w, s.Reads w s' ∧ C s'.current w ss)
    (hs : s.IsSpelled) (h : bodyWithin .standard (n + 1) s = .ok ss s') :
    ∃ start w stop, s.Reads (start :: w ++ [stop]) s' ∧ start.kind = .openCurly ∧ C stop w ss ∧
      stop.kind = .closeCurly := by
  rw [bodyWithin] at h
  obtain ⟨start, s₁, hstart, h⟩ := bind_eq_ok.1 h
  obtain ⟨hkind, rfl, rfl⟩ := expect_eq_ok.1 hstart
  obtain ⟨ss', s₂, hss, h⟩ := bind_eq_ok.1 h
  obtain ⟨stop, s₃, hstop, h⟩ := bind_eq_ok.1 h
  obtain ⟨hkind', rfl, rfl⟩ := expect_eq_ok.1 hstop
  obtain ⟨rfl, rfl⟩ := EStateM.Result.ok.inj h
  have hread := Stream.Reads.current_of_kind hs hkind rfl
  have hs₀ := hread.isSpelled hs
  obtain ⟨w, hreadw, hw⟩ := hitems hs₀ hss
  have hread' := Stream.Reads.current_of_kind (hreadw.isSpelled hs₀) hkind' rfl
  exact ⟨_, w, _, hread.cons (hreadw.append hread'), hkind, hw, hkind'⟩

theorem statementsWithin_eq_ok {n : Nat} {ss : List Stmt}
    (h : statementsWithin .standard (n + 1) s = .ok ss s') :
    (ss = [] ∧ s = s') ∨ ∃ st ss' s₁, ss = st :: ss' ∧ statementWithin .standard n s = .ok st s₁ ∧
      statementsWithin .standard n s₁ = .ok ss' s' := by
  by_cases hclose : s.current.kind = .closeCurly
  · rw [statementsWithin_of_closeCurly n hclose] at h
    obtain ⟨rfl, rfl⟩ := EStateM.Result.ok.inj h
    exact .inl ⟨rfl, rfl⟩
  · by_cases hend : s.current.kind = .endOfInput
    · rw [statementsWithin_of_endOfInput n hend] at h
      cases h
    · rw [statementsWithin_of_ne n hclose hend] at h
      obtain ⟨st, s₁, hst, h⟩ := bind_eq_ok.1 h
      obtain ⟨ss', s₂, hss, h⟩ := bind_eq_ok.1 h
      obtain ⟨rfl, rfl⟩ := EStateM.Result.ok.inj h
      exact .inr ⟨st, ss', s₁, rfl, hst, hss⟩

theorem readsExpression (n : Nat) : ReadsExpression (expressionWithin .standard n .default) := by
  intro s s' e hs h
  obtain ⟨w, hread, hw, -⟩ := expressionWithin_sound n hs h
  exact ⟨w, hread, hw⟩

mutual

theorem statementWithin_sound : (n : Nat) → {s s' : Stream} → {st : Stmt} → s.IsSpelled →
    statementWithin .standard n s = .ok st s' → ∃ w, s.Reads w s' ∧ Item w st.withoutSpans
  | 0, _, _, _, _, h => by cases h
  | n + 1, s, s', st, hs, h => by
    rw [statementWithin, bind_of_ok (currentKind_apply s)] at h
    cases hform : Table.standard.stmt? s.current.kind with
    | none =>
      rw [hform] at h
      cases h
    | some form =>
      rw [hform] at h
      have hbody : ReadsBody (bodyWithin .standard n) := fun hs h => bodyWithin_sound n hs h
      exact statementOf_sound (readsExpression n) hbody hs hform h

theorem bodyWithin_sound : (n : Nat) → {s s' : Stream} → {ss : List Stmt} → s.IsSpelled →
    bodyWithin .standard n s = .ok ss s' → ∃ w, s.Reads w s' ∧ Body w (Stmt.allWithoutSpans ss)
  | 0, _, _, _, _, h => by cases h
  | n + 1, s, s', ss, hs, h => by
    obtain ⟨start, w, stop, hread, hstart, hw, hstop⟩ :=
      bodyWithin_reads (C := fun _ w ss => Items w (Stmt.allWithoutSpans ss))
        (fun hs h => statementsWithin_sound n hs h) hs h
    exact ⟨_, hread, .mk hstart hw hstop⟩

theorem statementsWithin_sound : (n : Nat) → {s s' : Stream} → {ss : List Stmt} → s.IsSpelled →
    statementsWithin .standard n s = .ok ss s' → ∃ w, s.Reads w s' ∧ Items w (Stmt.allWithoutSpans ss)
  | 0, _, _, _, _, h => by cases h
  | n + 1, s, s', ss, hs, h => by
    rcases statementsWithin_eq_ok h with ⟨rfl, rfl⟩ | ⟨st, ss, s₁, rfl, hst, hss⟩
    · exact ⟨[], .nil s, .nil⟩
    · obtain ⟨v, hreadv, hv⟩ := statementWithin_sound n hs hst
      obtain ⟨w, hreadw, hw⟩ := statementsWithin_sound n (hreadv.isSpelled hs) hss
      exact ⟨v ++ w, hreadv.append hreadw, .cons hv hw⟩

end

/-- Whether the statement may stand at the top level. -/
def IsTop : Stmt → Prop
  | .assignment .. | .rule .. => True
  | _ => False

theorem Item.assignment_inv {w : List Token} {x : String} {e : Expr} {n : Note}
    (h : Item w (.assignment x e n)) : Assignment w (.assignment x e n) := by
  cases h with
  | assignment h => exact h
  | declaration h => cases h
  | clause h => cases h
  | rule h => cases h

theorem Item.rule_inv {w : List Token} {selector : Selector} {ss : List Stmt} {n : Note}
    (h : Item w (.rule selector ss n)) : Rule w (.rule selector ss n) := by
  cases h with
  | assignment h => cases h
  | declaration h => cases h
  | clause h => cases h
  | rule h => exact h

theorem topStatement_sound {statement : Parse Stmt} (h : topStatement statement s = .ok st s') :
    statement s = .ok st s' ∧ IsTop st := by
  unfold topStatement at h
  rw [bind_of_ok (current_apply s)] at h
  obtain ⟨st', s₁, hst, h⟩ := bind_eq_ok.1 h
  cases st' with
  | assignment | rule =>
    obtain ⟨rfl, rfl⟩ := EStateM.Result.ok.inj h
    exact ⟨hst, trivial⟩
  | declaration | ifClause => cases h

theorem topStatementsWithin_eq_ok {n : Nat} {ss : List Stmt}
    (h : topStatementsWithin .standard (n + 1) s = .ok ss s') :
    (ss = [] ∧ s = s' ∧ s.current.kind = .endOfInput) ∨ ∃ st ss' s₁, ss = st :: ss' ∧
      statementWithin .standard n s = .ok st s₁ ∧ IsTop st ∧ topStatementsWithin .standard n s₁ = .ok ss' s' := by
  rw [topStatementsWithin, bind_of_ok (currentKind_apply s)] at h
  by_cases hend : s.current.kind = .endOfInput
  · rw [if_pos hend] at h
    obtain ⟨rfl, rfl⟩ := EStateM.Result.ok.inj h
    exact .inl ⟨rfl, rfl, hend⟩
  · rw [if_neg hend] at h
    obtain ⟨st, s₁, hst, h⟩ := bind_eq_ok.1 h
    obtain ⟨ss', s₂, hss, h⟩ := bind_eq_ok.1 h
    obtain ⟨rfl, rfl⟩ := EStateM.Result.ok.inj h
    obtain ⟨hst, htop⟩ := topStatement_sound hst
    exact .inr ⟨st, ss', s₁, rfl, hst, htop, hss⟩

theorem topStatementsWithin_sound (n : Nat) {ss : List Stmt} (hs : s.IsSpelled)
    (h : topStatementsWithin .standard n s = .ok ss s') :
    ∃ w, s.Reads w s' ∧ Sheet w (Stmt.allWithoutSpans ss) ∧ s'.current.kind = .endOfInput := by
  induction n generalizing s ss with
  | zero => cases h
  | succ n ih =>
    rcases topStatementsWithin_eq_ok h with ⟨rfl, rfl, hend⟩ | ⟨st, ss, s₁, rfl, hst, htop, hss⟩
    · exact ⟨[], .nil s, .nil, hend⟩
    · obtain ⟨v, hreadv, hv⟩ := statementWithin_sound n hs hst
      obtain ⟨w, hreadw, hw, hend⟩ := ih (hreadv.isSpelled hs) hss
      refine ⟨v ++ w, hreadv.append hreadw, ?_, hend⟩
      cases st with
      | assignment => exact .assignment hv.assignment_inv hw
      | rule => exact .rule hv.rule_inv hw
      | declaration | ifClause => exact htop.elim

end Sound

section Complete

variable {left right : Kind} {value : Parse Expr} {body : Parse (List Stmt)} {st : Stmt} {w : List Token}
  {n : Nat}

theorem enclosed_complete {mark stop : Token} {v : List Token} {e : Expr}
    (hright : ∀ op, right ≠ .operator op) (hvalue : CoversExpression value n) (hs : s.IsSpelled)
    (hread : s.Reads (mark :: w ++ stop :: v) s') (hmark : mark.kind = left) (hw : Expression w e)
    (hstop : stop.kind = right) (hn : w.length < n) :
    ∃ e' s₁, e'.withoutSpans = e ∧ s₁.IsSpelled ∧ s₁.Reads v s' ∧
      ∀ {α : Type} {first : Parse Token} {k : Expr → Token → Parse α},
        (s.current.kind = left → first s = .ok s.current s.advance) →
        (do let _ ← first; let e ← value; let stop ← expect right; k e stop) s = k e' stop s₁ := by
  obtain ⟨s₁, hreadw, hreadv⟩ := hread.split
  obtain rfl := hreadw.current_eq
  have hs₀ := hreadw.isSpelled_advance hs
  have hs₁ := hreadw.isSpelled hs
  have hends : Power.default.Ends s₁.current.kind := by
    rw [hreadv.current_eq, hstop]
    exact Power.ends_of_ne hright
  obtain ⟨e', he', hspans⟩ := hvalue hs₀ hreadw.advance hw hends hn
  have hexpect : expect right s₁ = .ok stop s₁.advance :=
    expect_eq_ok.2 ⟨by rw [hreadv.current_eq, hstop], hreadv.current_eq, rfl⟩
  refine ⟨e', s₁.advance, hspans, hreadv.isSpelled_advance hs₁, hreadv.advance, ?_⟩
  intro α first k hfirst
  rw [bind_of_ok (hfirst hmark), bind_of_ok he', bind_of_ok hexpect]

theorem assignment_complete (hvalue : CoversExpression value n) (hs : s.IsSpelled) (hread : s.Reads w s')
    (h : Assignment w st) (hn : w.length ≤ n + 1) : ∃ st', assignment value s = .ok st' s' ∧ st'.withoutSpans = st := by
  obtain ⟨hname, hmark, hw, hstop⟩ := h
  rw [List.length_append, List.length_cons, List.length_cons] at hn
  rw [List.cons_append] at hread
  obtain rfl := hread.current_eq
  have hs₀ := hread.isSpelled_advance hs
  unfold assignment
  rw [bind_of_ok (advance_apply s)]
  obtain ⟨e', s₁, rfl, hs₁, hrest, happly⟩ :=
    enclosed_complete (by simp) hvalue hs₀ hread.advance hmark hw hstop (by omega)
  obtain rfl := hrest.eq_of_nil
  refine ⟨_, happly fun h => expectWith_eq_ok.2 ⟨h, rfl, rfl⟩, ?_⟩
  rfl

theorem declaration_complete (hvalue : CoversExpression value n) (hs : s.IsSpelled) (hread : s.Reads w s')
    (h : Declaration w st) (hn : w.length ≤ n + 1) :
    ∃ st', declaration value s = .ok st' s' ∧ st'.withoutSpans = st := by
  obtain ⟨hproperty, hmark, hw, hstop⟩ := h
  rw [List.length_append, List.length_cons, List.length_cons] at hn
  rw [List.cons_append] at hread
  obtain rfl := hread.current_eq
  have hs₀ := hread.isSpelled_advance hs
  unfold declaration
  rw [bind_of_ok (advance_apply s)]
  obtain ⟨e', s₁, rfl, hs₁, hrest, happly⟩ :=
    enclosed_complete (by simp) hvalue hs₀ hread.advance hmark hw hstop (by omega)
  obtain rfl := hrest.eq_of_nil
  refine ⟨_, happly fun h => expect_eq_ok.2 ⟨h, rfl, rfl⟩, ?_⟩
  rfl

/-- Every body of at most `n` tokens is read by `body`. -/
def CoversBody (body : Parse (List Stmt)) (n : Nat) : Prop :=
  ∀ {s s' : Stream} {w : List Token} {ss : List Stmt}, s.IsSpelled → s.Reads w s' → Body w ss →
    w.length ≤ n → ∃ ss', body s = .ok ss' s' ∧ Stmt.allWithoutSpans ss' = ss

theorem rule_complete (hbody : CoversBody body n) (hs : s.IsSpelled) (hread : s.Reads w s') (h : Rule w st)
    (hn : w.length ≤ n + 1) : ∃ st', rule body s = .ok st' s' ∧ st'.withoutSpans = st := by
  obtain ⟨hselects, hw⟩ := h
  rw [List.length_cons] at hn
  obtain rfl := hread.current_eq
  obtain ⟨ss, hss, rfl⟩ := hbody (hread.isSpelled_advance hs) hread.advance hw (by omega)
  refine ⟨.rule _ ss (.clear ⟨s.current.span.start, s'.current.span.start⟩), ?_, rfl⟩
  unfold rule
  rw [bind_of_ok (advance_apply s), selectorOf?_complete hselects]
  simp only
  rw [bind_of_ok hss]
  rfl

theorem ifClause_complete (hvalue : CoversExpression value n) (hbody : CoversBody body n) (hs : s.IsSpelled)
    (hread : s.Reads w s') (h : Clause w st) (hn : w.length ≤ n + 1) :
    ∃ st', ifClause value body s = .ok st' s' ∧ st'.withoutSpans = st := by
  obtain ⟨hstart, hleft, hc, hright, hw⟩ := h
  rw [List.length_append, List.length_cons, List.length_cons, List.length_cons] at hn
  rw [List.cons_append] at hread
  obtain rfl := hread.current_eq
  have hs₀ := hread.isSpelled_advance hs
  unfold ifClause
  rw [bind_of_ok (advance_apply s)]
  obtain ⟨c', s₁, rfl, hs₁, hrest, happly⟩ :=
    enclosed_complete (by simp) hvalue hs₀ hread.advance hleft hc hright (by omega)
  obtain ⟨ss, hss, rfl⟩ := hbody hs₁ hrest hw (by omega)
  refine ⟨.ifClause c' ss (.clear ⟨s.current.span.start, s'.current.span.start⟩), ?_, rfl⟩
  refine (happly fun h => expectWith_eq_ok.2 ⟨h, rfl, rfl⟩).trans ?_
  rw [bind_of_ok hss]
  rfl

theorem Assignment.current_kind (h : Assignment w st) (hread : s.Reads w s') : s.current.kind = .name := by
  obtain ⟨hname, -, -, -⟩ := h
  rw [List.cons_append] at hread
  rw [hread.current_eq, hname]

theorem Declaration.current_kind (h : Declaration w st) (hread : s.Reads w s') :
    s.current.kind = .word ∧ s.nextKind = .colon := by
  obtain ⟨hproperty, hmark, -, -⟩ := h
  rw [List.cons_append, List.cons_append] at hread
  exact ⟨by rw [hread.current_eq, hproperty], by rw [hread.nextKind_eq, hmark]⟩

theorem Clause.current_kind (h : Clause w st) (hread : s.Reads w s') : s.current.kind = .ifWord := by
  obtain ⟨hstart, -, -, -, -⟩ := h
  rw [List.cons_append] at hread
  rw [hread.current_eq, hstart]

theorem Rule.current_selects (h : Rule w st) (hread : s.Reads w s') :
    (∃ selector, Selects s.current selector) ∧ s.nextKind = .openCurly := by
  obtain ⟨hselects, hbody⟩ := h
  obtain ⟨hstart, -, -⟩ := hbody
  have hcurrent := hread.current_eq
  rw [List.cons_append] at hread
  exact ⟨⟨_, hcurrent ▸ hselects⟩, by rw [hread.nextKind_eq, hstart]⟩

theorem Selects.stmt?_eq {t : Token} {selector : Selector} (h : Selects t selector) :
    Table.standard.stmt? t.kind = some .word ∨ Table.standard.stmt? t.kind = some .rule := by
  cases h with
  | tag hkind => exact .inl (by rw [hkind]; rfl)
  | className hkind => exact .inr (by rw [hkind]; rfl)
  | id hkind => rcases hkind with hkind | hkind <;> exact .inr (by rw [hkind]; rfl)

theorem Item.exists_form (h : Item w st) (hread : s.Reads w s') :
    ∃ form, Table.standard.stmt? s.current.kind = some form := by
  cases h with
  | assignment h => exact ⟨.assignment, by rw [h.current_kind hread]; rfl⟩
  | declaration h => exact ⟨.word, by rw [(h.current_kind hread).1]; rfl⟩
  | clause h => exact ⟨.ifClause, by rw [h.current_kind hread]; rfl⟩
  | rule h =>
    obtain ⟨⟨selector, hselects⟩, -⟩ := h.current_selects hread
    rcases hselects.stmt?_eq with hform | hform
    · exact ⟨_, hform⟩
    · exact ⟨_, hform⟩

theorem Item.length_pos (h : Item w st) : 0 < w.length := by
  cases h with
  | assignment h => cases h; simp
  | declaration h => cases h; simp
  | clause h => cases h; simp
  | rule h => cases h; simp

theorem wordStatement_eq_declaration (h : s.nextKind = .colon) :
    wordStatement value body s = declaration value s := by
  unfold wordStatement
  rw [bind_of_ok (get_apply s), if_pos h]

theorem wordStatement_eq_rule (h : s.nextKind = .openCurly) : wordStatement value body s = rule body s := by
  unfold wordStatement
  rw [bind_of_ok (get_apply s), if_neg (by simp [h])]

theorem statementWithin_eq {form : StmtForm} (n : Nat)
    (hform : Table.standard.stmt? s.current.kind = some form) :
    statementWithin .standard (n + 1) s =
      statementOf (expressionWithin .standard n .default) (bodyWithin .standard n) form s := by
  rw [statementWithin, bind_of_ok (currentKind_apply s), hform]

theorem item_complete (hvalue : CoversExpression (expressionWithin .standard n .default) n)
    (hbody : CoversBody (bodyWithin .standard n) n) (hs : s.IsSpelled) (hread : s.Reads w s') (h : Item w st)
    (hn : w.length ≤ n + 1) :
    ∃ st', statementWithin .standard (n + 1) s = .ok st' s' ∧ st'.withoutSpans = st := by
  cases h with
  | assignment h =>
    have hform : Table.standard.stmt? s.current.kind = some .assignment := by
      rw [h.current_kind hread]
      rfl
    rw [statementWithin_eq n hform]
    exact assignment_complete hvalue hs hread h hn
  | declaration h =>
    obtain ⟨hkind, hnext⟩ := h.current_kind hread
    have hform : Table.standard.stmt? s.current.kind = some .word := by
      rw [hkind]
      rfl
    rw [statementWithin_eq n hform, statementOf, wordStatement_eq_declaration hnext]
    exact declaration_complete hvalue hs hread h hn
  | clause h =>
    have hform : Table.standard.stmt? s.current.kind = some .ifClause := by
      rw [h.current_kind hread]
      rfl
    rw [statementWithin_eq n hform]
    exact ifClause_complete hvalue hbody hs hread h hn
  | rule h =>
    obtain ⟨⟨selector, hselects⟩, hnext⟩ := h.current_selects hread
    rcases hselects.stmt?_eq with hform | hform
    · rw [statementWithin_eq n hform, statementOf, wordStatement_eq_rule hnext]
      exact rule_complete hbody hs hread h hn
    · rw [statementWithin_eq n hform]
      exact rule_complete hbody hs hread h hn

theorem coversExpression (n : Nat) : CoversExpression (expressionWithin .standard n .default) n :=
  fun hs hread h hends hn => expressionWithin_complete n hs hread h hends hn

mutual

theorem statementWithin_complete : (n : Nat) → {s s' : Stream} → {w : List Token} → {st : Stmt} →
    s.IsSpelled → s.Reads w s' → Item w st → w.length ≤ n →
    ∃ st', statementWithin .standard n s = .ok st' s' ∧ st'.withoutSpans = st
  | 0, _, _, _, _, _, _, h, hn => absurd h.length_pos (Nat.not_lt.2 hn)
  | n + 1, _, _, _, _, hs, hread, h, hn => by
    have hbody : CoversBody (bodyWithin .standard n) n := fun hs hread h hn => bodyWithin_complete n hs hread h hn
    exact item_complete (coversExpression n) hbody hs hread h hn

theorem bodyWithin_complete : (n : Nat) → {s s' : Stream} → {w : List Token} → {ss : List Stmt} →
    s.IsSpelled → s.Reads w s' → Body w ss → w.length ≤ n →
    ∃ ss', bodyWithin .standard n s = .ok ss' s' ∧ Stmt.allWithoutSpans ss' = ss
  | 0, _, _, _, _, _, _, h, hn => by
    obtain ⟨-, -, -⟩ := h
    simp at hn
  | n + 1, s, s', w, ss, hs, hread, h, hn => by
    obtain ⟨hstart, hitems, hstop⟩ := h
    rw [List.length_append, List.length_cons, List.length_singleton] at hn
    obtain ⟨s₁, hreadw, hclose⟩ := hread.split
    obtain rfl := hreadw.current_eq
    have hclosed : s₁.current.kind = .closeCurly := by rw [hclose.current_eq, hstop]
    obtain ⟨ss', hss, hspans⟩ :=
      statementsWithin_complete n (hreadw.isSpelled_advance hs) hreadw.advance hitems hclosed (by omega)
    have hexpect := expect_eq_ok.2 ⟨hstart, rfl, rfl⟩
    have hexpect' := expect_eq_ok.2 ⟨hclosed, rfl, hclose.advance_eq⟩
    refine ⟨ss', ?_, hspans⟩
    rw [bodyWithin, bind_of_ok hexpect, bind_of_ok hss, bind_of_ok hexpect']
    rfl

theorem statementsWithin_complete : (n : Nat) → {s s' : Stream} → {w : List Token} → {ss : List Stmt} →
    s.IsSpelled → s.Reads w s' → Items w ss → s'.current.kind = .closeCurly → w.length < n →
    ∃ ss', statementsWithin .standard n s = .ok ss' s' ∧ Stmt.allWithoutSpans ss' = ss
  | 0, _, _, _, _, _, _, _, _, hn => absurd hn (Nat.not_lt_zero _)
  | n + 1, s, s', w, ss, hs, hread, h, hclose, hn => by
    cases h with
    | nil =>
      obtain rfl := hread.eq_of_nil
      exact ⟨[], statementsWithin_of_closeCurly n hclose, rfl⟩
    | cons hitem hitems =>
      rw [List.length_append] at hn
      have hpos := hitem.length_pos
      obtain ⟨s₁, hreadv, hreadw⟩ := hread.split
      obtain ⟨form, hform⟩ := hitem.exists_form hreadv
      obtain ⟨hne, hend⟩ := kind_ne_of_stmt? hform
      obtain ⟨st', hst, rfl⟩ := statementWithin_complete n hs hreadv hitem (by omega)
      obtain ⟨ss', hss, rfl⟩ :=
        statementsWithin_complete n (hreadv.isSpelled hs) hreadw hitems hclose (by omega)
      refine ⟨st' :: ss', ?_, rfl⟩
      rw [statementsWithin_of_ne n hne hend, bind_of_ok hst, bind_of_ok hss]
      rfl

end

theorem Assignment.isTop {st : Stmt} (h : Assignment w st.withoutSpans) : IsTop st := by
  cases st with
  | assignment | rule => trivial
  | declaration | ifClause => cases h

theorem Rule.isTop {st : Stmt} (h : Rule w st.withoutSpans) : IsTop st := by
  cases st with
  | assignment | rule => trivial
  | declaration | ifClause => cases h

theorem topStatement_of_ok {statement : Parse Stmt} {st : Stmt} (h : statement s = .ok st s')
    (htop : IsTop st) : topStatement statement s = .ok st s' := by
  unfold topStatement
  rw [bind_of_ok (current_apply s), bind_of_ok h]
  cases st with
  | assignment | rule => rfl
  | declaration | ifClause => exact htop.elim

theorem Sheet.eq_nil_or_cons {ss : List Stmt} (h : Sheet w ss) :
    (w = [] ∧ ss = []) ∨ ∃ v w' st ss', w = v ++ w' ∧ ss = st :: ss' ∧ Item v st ∧
      (∀ st' : Stmt, st'.withoutSpans = st → IsTop st') ∧ Sheet w' ss' := by
  cases h with
  | nil => exact .inl ⟨rfl, rfl⟩
  | assignment h hs =>
    refine .inr ⟨_, _, _, _, rfl, rfl, .assignment h, ?_, hs⟩
    rintro st' rfl
    exact h.isTop
  | rule h hs =>
    refine .inr ⟨_, _, _, _, rfl, rfl, .rule h, ?_, hs⟩
    rintro st' rfl
    exact h.isTop

theorem topStatementsWithin_complete {ss : List Stmt} (hs : s.IsSpelled) (hread : s.Reads w s')
    (h : Sheet w ss) (hend : s'.current.kind = .endOfInput) (hn : w.length < n) :
    ∃ ss', topStatementsWithin .standard n s = .ok ss' s' ∧ Stmt.allWithoutSpans ss' = ss := by
  induction n generalizing s w ss with
  | zero => exact absurd hn (Nat.not_lt_zero _)
  | succ n ih =>
    rw [topStatementsWithin, bind_of_ok (currentKind_apply s)]
    rcases h.eq_nil_or_cons with ⟨rfl, rfl⟩ | ⟨v, w', st, ss, rfl, rfl, hitem, htop, hsheet⟩
    · obtain rfl := hread.eq_of_nil
      rw [if_pos hend]
      exact ⟨[], rfl, rfl⟩
    · rw [List.length_append] at hn
      have hpos := hitem.length_pos
      obtain ⟨s₁, hreadv, hreadw⟩ := hread.split
      obtain ⟨form, hform⟩ := hitem.exists_form hreadv
      obtain ⟨st', hst, hspans⟩ := statementWithin_complete n hs hreadv hitem (by omega)
      obtain ⟨ss', hss, rfl⟩ := ih (hreadv.isSpelled hs) hreadw hsheet (by omega)
      have hst' := topStatement_of_ok hst (htop st' hspans)
      refine ⟨st' :: ss', ?_, by rw [Stmt.allWithoutSpans, hspans]⟩
      rw [if_neg (kind_ne_of_stmt? hform).2, bind_of_ok hst', bind_of_ok hss]
      rfl

end Complete

end TypedCss.Grammar
