import TypedCss.Proofs.Reading

/-!
# Expressions and their grammar

The parser takes operators by their binding power, and the grammar has one rule for each power. `Phrase p`
is what is read with power `p`, and `Tail p` what follows its first operand. A phrase is read up to a token
before which the power ends.
-/

namespace TypedCss.Grammar

open Parse

def powerOf : Operator → Power
  | .add | .subtract => .additive
  | .multiply => .multiplicative

theorem power?_eq_some {k : Kind} {p : Power} :
    Table.standard.power? k = some p ↔ ∃ op, k = .operator op ∧ powerOf op = p := by
  cases k with
  | operator op => cases op <;> simp [Table.standard, powerOf]
  | _ => simp [Table.standard]

theorem operand?_eq_grouping {k : Kind} : Table.standard.operand? k = some .grouping ↔ k = .openParen := by
  cases k <;> simp [Table.standard]

/-- Whether an expression of the given power ends before a token of the kind. -/
def Power.Ends (p : Power) (k : Kind) : Prop := ∀ op, k = .operator op → (powerOf op).rank ≤ p.rank

theorem Power.ends_multiplicative (k : Kind) : multiplicative.Ends k := by
  intro op _
  cases op <;> decide

theorem Power.Ends.mono {p q : Power} {k : Kind} (h : p.Ends k) (hpq : p.rank ≤ q.rank) : q.Ends k :=
  fun op hop => Nat.le_trans (h op hop) hpq

theorem Power.ends_of_ne {p : Power} {k : Kind} (h : ∀ op, k ≠ .operator op) : p.Ends k :=
  fun op hop => absurd hop (h op)

/-- The tokens and the tree of an expression that is read with the given power. -/
def Phrase : Power → List Token → Expr → Prop
  | .default => Expression
  | .additive => Term
  | .multiplicative | .primary => Factor

/-- What follows the first operand of an expression that is read with the given power. -/
def Tail : Power → Expr → List Token → Expr → Prop
  | .default => fun l w e => ∃ u v m, w = u ++ v ∧ Factors l u m ∧ Terms m v e
  | .additive => Factors
  | .multiplicative | .primary => fun l w e => w = [] ∧ l = e

theorem phrase_iff {p : Power} {w : List Token} {e : Expr} :
    Phrase p w e ↔ ∃ u v l, w = u ++ v ∧ Factor u l ∧ Tail p l v e := by
  cases p with
  | default =>
    constructor
    · rintro ⟨⟨h, hs⟩, hterms⟩
      exact ⟨_, _, _, List.append_assoc .., h, _, _, _, rfl, hs, hterms⟩
    · rintro ⟨u, v, l, rfl, h, v, v', m, rfl, hs, hterms⟩
      rw [← List.append_assoc]
      exact .mk (.mk h hs) hterms
  | additive =>
    constructor
    · rintro ⟨h, hs⟩
      exact ⟨_, _, _, rfl, h, hs⟩
    · rintro ⟨u, v, l, rfl, h, hs⟩
      exact .mk h hs
  | multiplicative | primary =>
    constructor
    · intro h
      exact ⟨w, [], e, (List.append_nil w).symm, h, rfl, rfl⟩
    · rintro ⟨u, v, l, rfl, h, rfl, rfl⟩
      rwa [List.append_nil]

theorem Factor.length_pos {w : List Token} {e : Expr} (h : Factor w e) : 0 < w.length := by
  cases h <;> simp

namespace Tail

variable {p : Power} {op : Operator} {t : Token} {l r e : Expr} {v w : List Token} {s s' : Stream}

theorem nil (p : Power) (l : Expr) : Tail p l [] l := by
  cases p with
  | default => exact ⟨[], [], l, rfl, .nil l, .nil l⟩
  | additive => exact Factors.nil l
  | multiplicative | primary => exact ⟨rfl, rfl⟩

/-- An operator and its right operand in front of a tail. A sum is not extended by a factor. -/
theorem cons (ht : t.kind = .operator op) (hp : p.rank < (powerOf op).rank) (h : Phrase (powerOf op) v r)
    (hread : s.Reads w s') (hends : (powerOf op).Ends s.current.kind)
    (htail : Tail p (.operation op l r .plain) w e) : Tail p l (t :: v ++ w) e := by
  cases p with
  | default =>
    obtain ⟨u, u', m, rfl, hfactors, hterms⟩ := htail
    cases op with
    | multiply => exact ⟨t :: v ++ u, u', m, by simp, .cons ht h hfactors, hterms⟩
    | add | subtract =>
      cases hfactors with
      | nil => exact ⟨[], t :: v ++ u', l, rfl, .nil l, .cons ht (by simp) h hterms⟩
      | cons ht' =>
        -- The term to the right has been read up to a token that is no product sign.
        rw [List.cons_append, List.cons_append] at hread
        rw [hread.current_eq] at hends
        exact absurd (hends .multiply ht') (by decide)
  | additive =>
    cases op with
    | multiply => exact Factors.cons ht h htail
    | add | subtract => exact absurd hp (by decide)
  | multiplicative | primary => cases op <;> exact absurd hp (by decide)

/-- The power of the first operator of a tail ends before the second one. -/
theorem ends_of_terms (hread : s.Reads w s') (h : Terms l w e) (hends : Power.default.Ends s'.current.kind) :
    Power.additive.Ends s.current.kind := by
  cases h with
  | nil =>
    rw [hread.eq_of_nil]
    exact hends.mono (by decide)
  | cons ht hop _ _ =>
    rw [List.cons_append] at hread
    rw [hread.current_eq]
    intro op' hop'
    rw [ht] at hop'
    cases hop'
    rcases hop with rfl | rfl <;> decide

theorem eq_nil_or_cons (h : Tail p l w e) :
    (w = [] ∧ l = e) ∨ ∃ t op v r w', w = t :: v ++ w' ∧ t.kind = .operator op ∧
      p.rank < (powerOf op).rank ∧ Phrase (powerOf op) v r ∧ Tail p (.operation op l r .plain) w' e ∧
      ∀ {s s' : Stream}, s.Reads w' s' → p.Ends s'.current.kind → (powerOf op).Ends s.current.kind := by
  cases p with
  | default =>
    obtain ⟨u, u', m, rfl, hfactors, hterms⟩ := h
    cases hfactors with
    | nil =>
      cases hterms with
      | nil => exact .inl ⟨rfl, rfl⟩
      | @cons t op _ r _ v w' ht hop h hs =>
        have hpower : powerOf op = .additive := by rcases hop with rfl | rfl <;> rfl
        refine .inr ⟨t, op, v, r, w', rfl, ht, ?_, ?_, ⟨[], w', _, rfl, .nil _, hs⟩, ?_⟩
        · rw [hpower]
          decide
        · rw [hpower]
          exact h
        · intro s s' hread hends
          rw [hpower]
          exact ends_of_terms hread hs hends
    | @cons t _ r _ v w' ht h hs =>
      refine .inr ⟨t, .multiply, v, r, w' ++ u', by simp, ht, by decide, h, ⟨w', u', m, rfl, hs, hterms⟩, ?_⟩
      intro s s' _ _
      exact Power.ends_multiplicative _
  | additive =>
    cases h with
    | nil => exact .inl ⟨rfl, rfl⟩
    | @cons t _ r _ v w' ht h hs =>
      refine .inr ⟨t, .multiply, v, r, w', rfl, ht, by decide, h, hs, ?_⟩
      intro s s' _ _
      exact Power.ends_multiplicative _
  | multiplicative | primary => exact .inl h

end Tail

variable {s s' : Stream} {inner : Parse Expr} {e : Expr} {w : List Token}

theorem operandOf_sound {t : Token} (ht : t.kind ≠ .endOfInput → t.IsSpelled) (h : operandOf t = .ok e) :
    t.kind ≠ .endOfInput ∧ t.Fits ∧ Factor [t] e.withoutSpans := by
  unfold operandOf at h
  cases hkind : t.kind with
  | number m =>
    have hspelled := ht (by simp [hkind])
    rw [hkind] at h
    simp only [Token.number?_eq hspelled hkind] at h
    by_cases hfits : t.number < 2147483648
    · rw [if_pos hfits] at h
      obtain rfl := Except.ok.inj h
      exact ⟨by simp, fun _ _ => hfits, .number hkind⟩
    · rw [if_neg hfits] at h
      cases h
  | color =>
    rw [hkind] at h
    obtain rfl := Except.ok.inj h
    exact ⟨by simp, Token.fits_of_isFixed (by rw [hkind]; rfl), .color hkind⟩
  | flag b =>
    rw [hkind] at h
    obtain rfl := Except.ok.inj h
    exact ⟨by simp, Token.fits_of_isFixed (by rw [hkind]; rfl), .flag hkind⟩
  | name =>
    rw [hkind] at h
    obtain rfl := Except.ok.inj h
    exact ⟨by simp, Token.fits_of_isFixed (by rw [hkind]; rfl), .name hkind⟩
  | _ =>
    rw [hkind] at h
    cases h

theorem primary_of_ok (h : operandOf s.current = .ok e) : primary s = .ok e s.advance := by
  unfold primary
  rw [bind_of_ok (current_apply s), h]
  rfl

theorem primary_of_error {fault : Fault} (h : operandOf s.current = .error fault) :
    primary s = .error fault s := by
  unfold primary
  rw [bind_of_ok (current_apply s), h]
  rfl

/-- What `p` reads has the property, with the tokens that it was read from. -/
def ReadsAs {α : Type} (P : List Token → α → Prop) (p : Parse α) : Prop :=
  ∀ {s s' : Stream} {a : α}, s.IsSpelled → p s = .ok a s' → ∃ w, s.Reads w s' ∧ P w a

theorem primary_reads (hs : s.IsSpelled) (h : primary s = .ok e s') :
    ∃ t, s.Reads [t] s' ∧ operandOf t = .ok e ∧ Factor [t] e.withoutSpans := by
  cases hoperand : operandOf s.current with
  | error fault =>
    rw [primary_of_error hoperand] at h
    cases h
  | ok e' =>
    rw [primary_of_ok hoperand] at h
    obtain ⟨rfl, rfl⟩ := EStateM.Result.ok.inj h
    obtain ⟨hend, hfits, hfactor⟩ := operandOf_sound hs.current hoperand
    exact ⟨_, .current hs hend hfits, hoperand, hfactor⟩

/-- What is read by `inner` is an expression. -/
def ReadsExpression (inner : Parse Expr) : Prop :=
  ∀ {s s' : Stream} {e : Expr}, s.IsSpelled → inner s = .ok e s' →
    ∃ w, s.Reads w s' ∧ Expression w e.withoutSpans

theorem grouping_reads {P : List Token → Expr → Prop} (hinner : ReadsAs P inner) (hs : s.IsSpelled)
    (hkind : s.current.kind = .openParen) (h : grouping inner s = .ok e s') :
    ∃ start w stop, s.Reads (start :: w ++ [stop]) s' ∧ start.kind = .openParen ∧ P w e ∧
      stop.kind = .closeParen := by
  unfold grouping at h
  rw [bind_of_ok (advance_apply s)] at h
  obtain ⟨e', s₁, he, h⟩ := bind_eq_ok.1 h
  obtain ⟨t, s₂, hstop, h⟩ := bind_eq_ok.1 h
  obtain ⟨rfl, rfl⟩ := EStateM.Result.ok.inj h
  obtain ⟨hclose, rfl, rfl⟩ := expect_eq_ok.1 hstop
  have hstart := Stream.Reads.current_of_kind hs hkind rfl
  have hs₀ := hstart.isSpelled hs
  obtain ⟨w, hread, hw⟩ := hinner hs₀ he
  have hstop := Stream.Reads.current_of_kind (hread.isSpelled hs₀) hclose rfl
  exact ⟨_, w, _, hstart.cons (hread.append hstop), hkind, hw, hclose⟩

/-- An operand is a single token, or something in parentheses. -/
theorem operand_reads {P : List Token → Expr → Prop} (hinner : ReadsAs P inner) (hs : s.IsSpelled)
    (h : operand .standard inner s = .ok e s') :
    (∃ t, s.Reads [t] s' ∧ operandOf t = .ok e ∧ Factor [t] e.withoutSpans) ∨
      ∃ start w stop, s.Reads (start :: w ++ [stop]) s' ∧ start.kind = .openParen ∧ P w e ∧
        stop.kind = .closeParen := by
  unfold operand at h
  rw [bind_of_ok (currentKind_apply s)] at h
  cases hform : Table.standard.operand? s.current.kind with
  | none =>
    rw [hform] at h
    cases h
  | some form =>
    rw [hform] at h
    cases form with
    | primary => exact .inl (primary_reads hs h)
    | grouping => exact .inr (grouping_reads hinner hs (operand?_eq_grouping.1 hform) h)

theorem operand_sound (hinner : ReadsExpression inner) (hs : s.IsSpelled)
    (h : operand .standard inner s = .ok e s') : ∃ w, s.Reads w s' ∧ Factor w e.withoutSpans := by
  have hreads : ReadsAs (fun w e => Expression w e.withoutSpans) inner := hinner
  rcases operand_reads hreads hs h with ⟨t, hread, -, hfactor⟩ | ⟨start, w, stop, hread, hstart, hw, hstop⟩
  · exact ⟨_, hread, hfactor⟩
  · exact ⟨_, hread, .group hstart hw hstop⟩

theorem binary_eq_ok {left : Expr} {right : Parse Expr} {op : Operator}
    (hkind : s.current.kind = .operator op) (h : binary left right s = .ok e s') :
    ∃ r, right s.advance = .ok r s' ∧ e = .operation op left r (.clear ⟨left.span.start, r.span.stop⟩) := by
  unfold binary at h
  rw [bind_of_ok (advance_apply s), hkind] at h
  obtain ⟨r, s₁, hr, h⟩ := bind_eq_ok.1 h
  obtain ⟨rfl, rfl⟩ := EStateM.Result.ok.inj h
  exact ⟨r, hr, rfl⟩

theorem binary_sound {left : Expr} {right : Parse Expr} {op : Operator}
    (hkind : s.current.kind = .operator op) (h : binary left right s = .ok e s') :
    ∃ r, right s.advance = .ok r s' ∧
      e.withoutSpans = .operation op left.withoutSpans r.withoutSpans .plain := by
  obtain ⟨r, hr, rfl⟩ := binary_eq_ok hkind h
  exact ⟨r, hr, rfl⟩

theorem binary_of_ok (left : Expr) {r : Expr} {right : Parse Expr} {op : Operator}
    (hkind : s.current.kind = .operator op) (h : right s.advance = .ok r s') :
    binary left right s = .ok (.operation op left r (.clear ⟨left.span.start, r.span.stop⟩)) s' := by
  unfold binary
  rw [bind_of_ok (advance_apply s), hkind]
  exact bind_of_ok h

theorem extendWithin_of_ends {n : Nat} {p : Power} (left : Expr) (h : p.Ends s.current.kind) :
    extendWithin .standard (n + 1) p left s = .ok left s := by
  rw [extendWithin, bind_of_ok (currentKind_apply s)]
  cases hpower : Table.standard.power? s.current.kind with
  | none => rfl
  | some next =>
    obtain ⟨op, hop, rfl⟩ := power?_eq_some.1 hpower
    simp only [if_pos (h op hop)]
    rfl

theorem extendWithin_of_operator {n : Nat} {p : Power} {op : Operator} (left : Expr)
    (hkind : s.current.kind = .operator op) (hp : p.rank < (powerOf op).rank) :
    extendWithin .standard (n + 1) p left s =
      (binary left (expressionWithin .standard n (powerOf op)) >>= extendWithin .standard n p) s := by
  rw [extendWithin, bind_of_ok (currentKind_apply s), power?_eq_some.2 ⟨op, hkind, rfl⟩]
  simp only [if_neg (Nat.not_le.2 hp)]

theorem Power.ends_or_operator (p : Power) (k : Kind) :
    p.Ends k ∨ ∃ op, k = .operator op ∧ p.rank < (powerOf op).rank := by
  by_cases h : p.Ends k
  · exact .inl h
  · refine .inr ?_
    unfold Ends at h
    simpa using h

theorem expression_eq (table : Table) (power : Power) (s : Stream) :
    expression table power s = expressionWithin table s.budget power s := by
  unfold expression
  exact bind_of_ok (get_apply s)

mutual

theorem expressionWithin_sound : (n : Nat) → {p : Power} → {s s' : Stream} → {e : Expr} → s.IsSpelled →
    expressionWithin .standard n p s = .ok e s' →
    ∃ w, s.Reads w s' ∧ Phrase p w e.withoutSpans ∧ p.Ends s'.current.kind
  | 0, _, _, _, _, _, h => by cases h
  | n + 1, p, s, s', e, hs, h => by
    rw [expressionWithin] at h
    obtain ⟨left, s₁, hleft, h⟩ := bind_eq_ok.1 h
    have hinner : ReadsExpression (expressionWithin .standard n .default) := by
      intro s s' e hs h
      obtain ⟨w, hread, hw, -⟩ := expressionWithin_sound n hs h
      exact ⟨w, hread, hw⟩
    obtain ⟨v, hread, hfactor⟩ := operand_sound hinner hs hleft
    obtain ⟨w, hread', htail, hends⟩ := extendWithin_sound n (hread.isSpelled hs) h
    exact ⟨v ++ w, hread.append hread', phrase_iff.2 ⟨v, w, _, rfl, hfactor, htail⟩, hends⟩

theorem extendWithin_sound : (n : Nat) → {p : Power} → {s s' : Stream} → {l e : Expr} → s.IsSpelled →
    extendWithin .standard n p l s = .ok e s' →
    ∃ w, s.Reads w s' ∧ Tail p l.withoutSpans w e.withoutSpans ∧ p.Ends s'.current.kind
  | 0, _, _, _, _, _, _, h => by cases h
  | n + 1, p, s, s', l, e, hs, h => by
    rcases p.ends_or_operator s.current.kind with hends | ⟨op, hkind, hp⟩
    · rw [extendWithin_of_ends l hends] at h
      obtain ⟨rfl, rfl⟩ := EStateM.Result.ok.inj h
      exact ⟨[], .nil s, .nil p _, hends⟩
    · rw [extendWithin_of_operator l hkind hp] at h
      obtain ⟨e₁, s₁, hbinary, h⟩ := bind_eq_ok.1 h
      obtain ⟨r, hr, he₁⟩ := binary_sound hkind hbinary
      have hmark := Stream.Reads.current_of_kind hs hkind rfl
      have hs₀ := hmark.isSpelled hs
      obtain ⟨v, hreadv, hv, hends⟩ := expressionWithin_sound n hs₀ hr
      obtain ⟨w, hreadw, hw, hends'⟩ := extendWithin_sound n (hreadv.isSpelled hs₀) h
      rw [he₁] at hw
      exact ⟨_, hmark.cons (hreadv.append hreadw), .cons hkind hp hv hreadw hends hw, hends'⟩

end

/-- Every expression of fewer than `n` tokens is read by `inner`. -/
def CoversExpression (inner : Parse Expr) (n : Nat) : Prop :=
  ∀ {s s' : Stream} {w : List Token} {e : Expr}, s.IsSpelled → s.Reads w s' → Expression w e →
    Power.default.Ends s'.current.kind → w.length < n → ∃ e', inner s = .ok e' s' ∧ e'.withoutSpans = e

theorem primary_complete {t : Token} (hread : s.Reads [t] s')
    (hform : Table.standard.operand? t.kind = some .primary) (h : operandOf t = .ok e) :
    operand .standard inner s = .ok e s' := by
  obtain rfl := hread.current_eq
  obtain rfl := hread.advance_eq
  unfold operand
  rw [bind_of_ok (currentKind_apply s), hform]
  exact primary_of_ok h

theorem grouping_complete {n : Nat} {start stop : Token} (hinner : CoversExpression inner n)
    (hs : s.IsSpelled) (hread : s.Reads (start :: w ++ [stop]) s') (hstart : start.kind = .openParen)
    (h : Expression w e) (hstop : stop.kind = .closeParen) (hn : w.length < n) :
    ∃ e', operand .standard inner s = .ok e' s' ∧ e'.withoutSpans = e := by
  obtain ⟨s₁, hstart', hclose⟩ := hread.split
  obtain rfl := hstart'.current_eq
  have hw := hstart'.advance
  have hs₀ := hstart'.isSpelled_advance hs
  have hends : Power.default.Ends s₁.current.kind := by
    rw [hclose.current_eq, hstop]
    exact Power.ends_of_ne (by simp)
  obtain ⟨e', he', hspans⟩ := hinner hs₀ hw h hends hn
  refine ⟨e', ?_, hspans⟩
  have hexpect : expect .closeParen s₁ = .ok stop s' :=
    expect_eq_ok.2 ⟨by rw [hclose.current_eq, hstop], hclose.current_eq, hclose.advance_eq⟩
  unfold operand grouping
  rw [bind_of_ok (currentKind_apply s), operand?_eq_grouping.2 hstart]
  simp only
  rw [bind_of_ok (advance_apply s), bind_of_ok he', bind_of_ok hexpect]
  rfl

theorem operand_complete {n : Nat} (hinner : CoversExpression inner n) (hs : s.IsSpelled)
    (hread : s.Reads w s') (h : Factor w e) (hn : w.length ≤ n + 1) :
    ∃ e', operand .standard inner s = .ok e' s' ∧ e'.withoutSpans = e := by
  cases h with
  | @number t m hkind =>
    have hspelled : t.IsSpelled := by
      have hcurrent := hread.current_eq
      subst hcurrent
      exact hs.current (hread.ne_end _ List.mem_cons_self)
    have hfits : t.number < 2147483648 := hread.fits t List.mem_cons_self m hkind
    have hnumber := Token.number?_eq hspelled hkind
    rw [if_pos hfits] at hnumber
    refine ⟨.literal (.number m (Int32.ofNat t.number)) (.clear t.span),
      primary_complete hread (by rw [hkind]; rfl) ?_, rfl⟩
    unfold operandOf
    rw [hkind]
    simp only [hnumber]
  | @color t hkind =>
    refine ⟨.literal (.color t.text) (.clear t.span), primary_complete hread (by rw [hkind]; rfl) ?_, rfl⟩
    unfold operandOf
    rw [hkind]
  | @flag t b hkind =>
    refine ⟨.literal (.flag b) (.clear t.span), primary_complete hread (by rw [hkind]; rfl) ?_, rfl⟩
    unfold operandOf
    rw [hkind]
  | @name t hkind =>
    refine ⟨.reference t.text (.clear t.span), primary_complete hread (by rw [hkind]; rfl) ?_, rfl⟩
    unfold operandOf
    rw [hkind]
  | group hstart h hstop =>
    rw [List.length_append, List.length_cons, List.length_singleton] at hn
    exact grouping_complete hinner hs hread hstart h hstop (by omega)

mutual

theorem expressionWithin_complete : (n : Nat) → {p : Power} → {s s' : Stream} → {w : List Token} →
    {e : Expr} → s.IsSpelled → s.Reads w s' → Phrase p w e → p.Ends s'.current.kind → w.length < n →
    ∃ e', expressionWithin .standard n p s = .ok e' s' ∧ e'.withoutSpans = e
  | 0, _, _, _, _, _, _, _, _, _, hn => absurd hn (Nat.not_lt_zero _)
  | n + 1, p, s, s', w, e, hs, hread, h, hends, hn => by
    obtain ⟨u, v, l, rfl, hfactor, htail⟩ := phrase_iff.1 h
    rw [List.length_append] at hn
    obtain ⟨s₁, hu, hv⟩ := hread.split
    have hinner : CoversExpression (expressionWithin .standard n .default) n :=
      fun hs hread h hends hn => expressionWithin_complete n hs hread h hends hn
    obtain ⟨left, hleft, rfl⟩ := operand_complete hinner hs hu hfactor (by omega)
    have hpos := hfactor.length_pos
    obtain ⟨e', he', hspans⟩ := extendWithin_complete n (hu.isSpelled hs) hv htail hends (by omega)
    refine ⟨e', ?_, hspans⟩
    rw [expressionWithin, bind_of_ok hleft]
    exact he'

theorem extendWithin_complete : (n : Nat) → {p : Power} → {s s' : Stream} → {w : List Token} →
    {left e : Expr} → s.IsSpelled → s.Reads w s' → Tail p left.withoutSpans w e →
    p.Ends s'.current.kind → w.length < n →
    ∃ e', extendWithin .standard n p left s = .ok e' s' ∧ e'.withoutSpans = e
  | 0, _, _, _, _, _, _, _, _, _, _, hn => absurd hn (Nat.not_lt_zero _)
  | n + 1, p, s, s', w, left, e, hs, hread, h, hends, hn => by
    rcases h.eq_nil_or_cons with ⟨rfl, rfl⟩ | ⟨t, op, v, r, w', rfl, hkind, hp, hv, hw', hfirst⟩
    · obtain rfl := hread.eq_of_nil
      exact ⟨left, extendWithin_of_ends left hends, rfl⟩
    · rw [List.length_append, List.length_cons] at hn
      rw [List.cons_append] at hread
      obtain rfl := hread.current_eq
      obtain ⟨s₁, hreadv, hreadw⟩ := hread.advance.split
      have hs₀ := hread.isSpelled_advance hs
      have hends₁ := hfirst hreadw hends
      obtain ⟨r', hr', rfl⟩ := expressionWithin_complete n hs₀ hreadv hv hends₁ (by omega)
      have hbinary := binary_of_ok left hkind hr'
      have htail : Tail p (Expr.operation op left r' (.clear ⟨left.span.start, r'.span.stop⟩)).withoutSpans
        w' e := hw'
      obtain ⟨e', he', hspans⟩ := extendWithin_complete n (hreadv.isSpelled hs₀) hreadw htail hends (by omega)
      refine ⟨e', ?_, hspans⟩
      rw [extendWithin_of_operator left hkind hp, bind_of_ok hbinary]
      exact he'

end

end TypedCss.Grammar
