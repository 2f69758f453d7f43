import TypedCss.Proofs.Statements

/-!
# What the parser does with unread tokens

What the parser does up to some token depends on no token after it. It does the same whatever comes there,
and in any number of rounds that is large enough.
-/

namespace TypedCss.Grammar

open Parse

namespace Stream

/-- The stream with more tokens in front. -/
def prepend (u : List Token) (s : Stream) : Stream := ⟨u ++ s.rest, s.last⟩

theorem prepend_prepend (u v : List Token) (s : Stream) : (s.prepend v).prepend u = s.prepend (u ++ v) := by
  rw [prepend, prepend, prepend, List.append_assoc]

theorem prepend_inj {u v : List Token} {s : Stream} (h : s.prepend u = s.prepend v) : u = v :=
  List.append_cancel_right (Stream.mk.inj h).1

theorem Reads.eq_prepend {s s' : Stream} {w : List Token} (h : s.Reads w s') : s = s'.prepend w := h.eq

/-- The last token, which is read for ever, ends the input. -/
def IsClosed (s : Stream) : Prop := s.last.kind = .endOfInput

/-- The streams are closed and have the same current token. -/
structure Resembles (s' s : Stream) : Prop where
  closed : s'.IsClosed
  current : s'.current = s.current

variable {s s' : Stream}

theorem Resembles.prepend (h : s'.Resembles s) (u : List Token) : (s'.prepend u).Resembles (s.prepend u) := by
  refine ⟨h.closed, ?_⟩
  cases u with
  | nil => exact h.current
  | cons t u => rfl

theorem IsClosed.eq_prepend_advance (hs : s.IsClosed) (h : s.current.kind ≠ .endOfInput) :
    s = s.advance.prepend [s.current] := by
  obtain ⟨rest, last⟩ := s
  cases rest with
  | nil => exact absurd hs h
  | cons t ts => rfl

theorem IsClosed.nextKind_eq (hs : s.IsClosed) : s.nextKind = s.advance.current.kind := by
  obtain ⟨rest, last⟩ := s
  match rest with
  | [] | [_] => exact Eq.symm hs
  | _ :: _ :: _ => rfl

end Stream

variable {α β : Type}

/-- From `s` on, `q` does what `p` does, whatever comes after the token at which `p` stops. -/
structure PersistsAt (p q : Parse α) (s : Stream) : Prop where
  ok : ∀ {a s₁}, p s = .ok a s₁ → ∃ u, s = s₁.prepend u ∧
    ∀ {s'}, s'.Resembles s₁ → q (s'.prepend u) = .ok a s'
  error : ∀ {fault s₁}, p s = .error fault s₁ → fault.cause ≠ .runaway → ∃ u, s = s₁.prepend u ∧
    ∀ {s'}, s'.Resembles s₁ → q (s'.prepend u) = .error fault s'

def Persists (p q : Parse α) : Prop := ∀ s : Stream, s.IsClosed → PersistsAt p q s

namespace PersistsAt

variable {p q : Parse α} {f g : α → Parse β} {s : Stream}

theorem bind (hs : s.IsClosed) (hp : PersistsAt p q s)
    (hf : ∀ {a s₁}, p s = .ok a s₁ → s₁.IsClosed → PersistsAt (f a) (g a) s₁) :
    PersistsAt (p >>= f) (q >>= g) s := by
  constructor
  · intro b s₂ h
    obtain ⟨a, s₁, hfirst, hsecond⟩ := bind_eq_ok.1 h
    obtain ⟨u, rfl, hq⟩ := hp.ok hfirst
    obtain ⟨v, rfl, hg⟩ := (hf hfirst hs).ok hsecond
    refine ⟨u ++ v, Stream.prepend_prepend u v s₂, fun hs' => ?_⟩
    rw [← Stream.prepend_prepend, bind_of_ok (hq (hs'.prepend v)), hg hs']
  · intro fault s₂ h hcause
    rcases bind_eq_error.1 h with hfirst | ⟨a, s₁, hfirst, hsecond⟩
    · obtain ⟨u, rfl, hq⟩ := hp.error hfirst hcause
      exact ⟨u, rfl, fun hs' => bind_eq_error.2 (.inl (hq hs'))⟩
    · obtain ⟨u, rfl, hq⟩ := hp.ok hfirst
      obtain ⟨v, rfl, hg⟩ := (hf hfirst hs).error hsecond hcause
      refine ⟨u ++ v, Stream.prepend_prepend u v s₂, fun hs' => ?_⟩
      rw [← Stream.prepend_prepend, bind_of_ok (hq (hs'.prepend v)), hg hs']

theorem pure (a : α) (s : Stream) : PersistsAt (pure a) (pure a) s := by
  constructor
  · intro a' s₁ h
    cases h
    exact ⟨[], rfl, fun _ => rfl⟩
  · intro fault s₁ h
    cases h

theorem throw (fault : Fault) (s : Stream) : PersistsAt (throw fault : Parse α) (throw fault) s := by
  constructor
  · intro a s₁ h
    cases h
  · intro fault' s₁ h _
    cases h
    exact ⟨[], rfl, fun _ => rfl⟩

theorem runaway (q : Parse α) (s : Stream) : PersistsAt runaway q s := by
  constructor
  · intro a s₁ h
    cases h
  · intro fault s₁ h hcause
    cases h
    exact absurd rfl hcause

/-- Only what the parsers do at closed streams with this current token matters. -/
theorem of_eq {p' q' : Parse α} (hp : p s = p' s)
    (hq : ∀ {s'}, s'.Resembles s → q s' = q' s') (h : PersistsAt p' q' s) : PersistsAt p q s := by
  constructor
  · intro a s₁ ha
    rw [hp] at ha
    obtain ⟨u, rfl, hq'⟩ := h.ok ha
    exact ⟨u, rfl, fun hs' => by rw [hq (hs'.prepend u), hq' hs']⟩
  · intro fault s₁ hfault hcause
    rw [hp] at hfault
    obtain ⟨u, rfl, hq'⟩ := h.error hfault hcause
    exact ⟨u, rfl, fun hs' => by rw [hq (hs'.prepend u), hq' hs']⟩

/-- A look at the current token in front. -/
theorem peek {look : Parse α} (value : Token → α) (hlook : ∀ s, look s = .ok (value s.current) s)
    (h : PersistsAt (f (value s.current)) (g (value s.current)) s) : PersistsAt (look >>= f) (look >>= g) s := by
  refine of_eq (bind_of_ok (hlook s)) (fun hs' => ?_) h
  rw [bind_of_ok (hlook _), hs'.current]

theorem peekToken {f g : Token → Parse β} (h : PersistsAt (f s.current) (g s.current) s) : PersistsAt (current >>= f) (current >>= g) s :=
  peek id current_apply h

theorem peekKind {f g : Kind → Parse β} (h : PersistsAt (f s.current.kind) (g s.current.kind) s) :
    PersistsAt (currentKind >>= f) (currentKind >>= g) s :=
  peek Token.kind currentKind_apply h

theorem advance (hs : s.IsClosed) (h : s.current.kind ≠ .endOfInput) : PersistsAt advance advance s := by
  constructor
  · intro t s₁ ht
    cases ht
    exact ⟨[s.current], hs.eq_prepend_advance h, fun _ => rfl⟩
  · intro fault s₁ ht
    cases ht

theorem expectation {p : Parse Token} {kind : Kind} (fault : Token → Fault) (hkind : kind ≠ .endOfInput)
    (hs : s.IsClosed) (hp : ∀ s, p s =
      if s.current.kind = kind then .ok s.current s.advance else .error (fault s.current) s) :
    PersistsAt p p s := by
  by_cases h : s.current.kind = kind
  · refine of_eq ?_ (fun {s'} hs' => ?_) (advance hs (h ▸ hkind))
    · rw [hp, if_pos h, advance_apply]
    · rw [hp, if_pos (hs'.current ▸ h), advance_apply]
  · refine of_eq ?_ (fun {s'} hs' => ?_) (throw (fault s.current) s)
    · rw [hp, if_neg h, throw_apply]
    · rw [hp, if_neg (hs'.current ▸ h), throw_apply, hs'.current]

theorem expect {kind : Kind} (hkind : kind ≠ .endOfInput) (hs : s.IsClosed) :
    PersistsAt (expect kind) (expect kind) s :=
  expectation unexpectedToken hkind hs (expect_apply kind)

theorem expectWith {kind : Kind} (hkind : kind ≠ .endOfInput) (message : String) (hs : s.IsClosed) :
    PersistsAt (expectWith kind message) (expectWith kind message) s :=
  expectation (fun t => ⟨.misplaced t.text message, t.span.start⟩) hkind hs (expectWith_apply kind message)

theorem failWith (message : String) (s : Stream) :
    PersistsAt (failWith message : Parse α) (failWith message) s := by
  refine of_eq (failWith_apply message s) (fun {s'} hs' => ?_) (throw (misplaced s message) s)
  rw [failWith_apply, misplaced, hs'.current, throw_apply, misplaced]

/-- Where the rounds of `p` do not run out, `q` does the same. -/
theorem eq (hs : s.IsClosed) (h : PersistsAt p q s)
    (hp : ∀ {fault s₁}, p s = .error fault s₁ → fault.cause ≠ .runaway) : q s = p s := by
  cases hrun : p s with
  | ok a s₁ =>
    obtain ⟨u, rfl, hq⟩ := h.ok hrun
    exact hq ⟨hs, rfl⟩
  | error fault s₁ =>
    obtain ⟨u, rfl, hq⟩ := h.error hrun (hp hrun)
    exact hq ⟨hs, rfl⟩

end PersistsAt

section Expressions

variable {inner inner' : Parse Expr} {s : Stream}

theorem persistsAt_primary (hs : s.IsClosed) : PersistsAt primary primary s := by
  refine .peekToken ?_
  cases h : operandOf s.current with
  | ok e =>
    have hne : s.current.kind ≠ .endOfInput := by
      intro hend
      rw [operandOf, hend] at h
      cases h
    exact .bind hs (.advance hs hne) fun _ _ => .pure _ _
  | error fault => exact .throw fault s

theorem persistsAt_grouping (hinner : Persists inner inner') (hs : s.IsClosed)
    (hne : s.current.kind ≠ .endOfInput) : PersistsAt (grouping inner) (grouping inner') s := by
  refine .bind hs (.advance hs hne) fun _ hs => ?_
  refine .bind hs (hinner _ hs) fun _ hs => ?_
  exact .bind hs (.expect (by simp) hs) fun _ _ => .pure _ _

theorem persists_operand (hinner : Persists inner inner') :
    Persists (operand .standard inner) (operand .standard inner') := by
  intro s hs
  refine .peekKind ?_
  cases h : Table.standard.operand? s.current.kind with
  | none => exact .failWith _ s
  | some form =>
    cases form with
    | primary => exact persistsAt_primary hs
    | grouping => exact persistsAt_grouping hinner hs (by rw [operand?_eq_grouping.1 h]; simp)

theorem persistsAt_binary (left : Expr) (hinner : Persists inner inner') (hs : s.IsClosed)
    (hne : s.current.kind ≠ .endOfInput) : PersistsAt (binary left inner) (binary left inner') s := by
  refine .bind hs (.advance hs hne) fun {t _} _ hs => ?_
  cases t.kind with
  | operator op => exact .bind hs (hinner _ hs) fun _ _ => .pure _ _
  | _ => exact .throw _ _

mutual

theorem expressionWithin_persists : (n m : Nat) → n ≤ m → (p : Power) →
    Persists (expressionWithin .standard n p) (expressionWithin .standard m p)
  | 0, _, _, p => fun s _ => by
    rw [expressionWithin]
    exact .runaway _ _
  | n + 1, m + 1, h, p => fun s hs => by
    rw [expressionWithin, expressionWithin]
    have hinner := expressionWithin_persists n m (Nat.le_of_succ_le_succ h) .default
    refine .bind hs (persists_operand hinner _ hs) fun _ hs => ?_
    exact extendWithin_persists n m (Nat.le_of_succ_le_succ h) p _ _ hs

theorem extendWithin_persists : (n m : Nat) → n ≤ m → (p : Power) → (left : Expr) →
    Persists (extendWithin .standard n p left) (extendWithin .standard m p left)
  | 0, _, _, p, left => fun s _ => by
    rw [extendWithin]
    exact .runaway _ _
  | n + 1, m + 1, h, p, left => fun s hs => by
    rw [extendWithin, extendWithin]
    refine .peekKind ?_
    cases hpower : Table.standard.power? s.current.kind with
    | none => exact .pure left s
    | some next =>
      obtain ⟨op, hop, -⟩ := power?_eq_some.1 hpower
      have hright := expressionWithin_persists n m (Nat.le_of_succ_le_succ h) next
      have hne : s.current.kind ≠ .endOfInput := by simp [hop]
      by_cases hrank : next.rank ≤ p.rank
      · simp only [if_pos hrank]
        exact .pure left s
      · simp only [if_neg hrank]
        refine .bind hs (persistsAt_binary left hright hs hne) fun _ hs => ?_
        exact extendWithin_persists n m (Nat.le_of_succ_le_succ h) p _ _ hs

end

end Expressions

section Statements

variable {value value' : Parse Expr} {body body' : Parse (List Stmt)} {s : Stream}

theorem persistsAt_assignment (hvalue : Persists value value') (hs : s.IsClosed)
    (hne : s.current.kind ≠ .endOfInput) : PersistsAt (assignment value) (assignment value') s := by
  refine .bind hs (.advance hs hne) fun _ hs => ?_
  refine .bind hs (.expectWith (by simp) _ hs) fun _ hs => ?_
  refine .bind hs (hvalue _ hs) fun _ hs => ?_
  exact .bind hs (.expect (by simp) hs) fun _ _ => .pure _ _

/-- The rest of a declaration. -/
def declarationAfter (value : Parse Expr) (property : Token) : Parse Stmt := do
  let _ ← expect .colon
  let e ← value
  let stop ← expect .semicolon
  return .declaration property.text e (.clear ⟨property.span.start, stop.span.stop⟩)

/-- The rest of a rule. -/
def ruleAfter (body : Parse (List Stmt)) (t : Token) : Parse Stmt := do
  match selectorOf? t with
  | some selector => do
    let ss ← body
    return .rule selector ss (.clear ⟨t.span.start, ← position⟩)
  | none => failAt t

theorem persists_declarationAfter (hvalue : Persists value value') (property : Token) :
    Persists (declarationAfter value property) (declarationAfter value' property) := by
  intro s hs
  refine .bind hs (.expect (by simp) hs) fun _ hs => ?_
  refine .bind hs (hvalue _ hs) fun _ hs => ?_
  exact .bind hs (.expect (by simp) hs) fun _ _ => .pure _ _

theorem persists_ruleAfter (hbody : Persists body body') (t : Token) :
    Persists (ruleAfter body t) (ruleAfter body' t) := by
  intro s hs
  rw [ruleAfter, ruleAfter]
  cases selectorOf? t with
  | none => exact .throw _ _
  | some selector =>
    refine .bind hs (hbody _ hs) fun _ _ => ?_
    exact .peek (fun t => t.span.start) position_apply (.pure _ _)

theorem persistsAt_declaration (hvalue : Persists value value') (hs : s.IsClosed)
    (hne : s.current.kind ≠ .endOfInput) : PersistsAt (declaration value) (declaration value') s :=
  .bind hs (.advance hs hne) fun _ hs => persists_declarationAfter hvalue _ _ hs

theorem persistsAt_rule (hbody : Persists body body') (hs : s.IsClosed)
    (hne : s.current.kind ≠ .endOfInput) : PersistsAt (rule body) (rule body') s :=
  .bind hs (.advance hs hne) fun _ hs => persists_ruleAfter hbody _ _ hs

/-- A word may be read before the token after it is looked at. -/
theorem wordStatement_eq (hs : s.IsClosed) : wordStatement value body s = (do
    let t ← advance
    if (← currentKind) = Kind.colon then declarationAfter value t else ruleAfter body t) s := by
  rw [wordStatement, bind_of_ok (get_apply s), bind_of_ok (advance_apply s),
    bind_of_ok (currentKind_apply s.advance), hs.nextKind_eq]
  split
  · rfl
  · rfl

theorem persistsAt_wordStatement (hvalue : Persists value value') (hbody : Persists body body')
    (hs : s.IsClosed) (hne : s.current.kind ≠ .endOfInput) :
    PersistsAt (wordStatement value body) (wordStatement value' body') s := by
  refine .of_eq (wordStatement_eq hs) (fun hs' => wordStatement_eq hs'.closed) ?_
  refine .bind hs (.advance hs hne) fun {t s₁} _ hs => .peekKind ?_
  by_cases h : s₁.current.kind = .colon
  · simp only [if_pos h]
    exact persists_declarationAfter hvalue t _ hs
  · simp only [if_neg h]
    exact persists_ruleAfter hbody t _ hs

theorem persistsAt_ifClause (hvalue : Persists value value') (hbody : Persists body body') (hs : s.IsClosed)
    (hne : s.current.kind ≠ .endOfInput) : PersistsAt (ifClause value body) (ifClause value' body') s := by
  refine .bind hs (.advance hs hne) fun _ hs => ?_
  refine .bind hs (.expectWith (by simp) _ hs) fun _ hs => ?_
  refine .bind hs (hvalue _ hs) fun _ hs => ?_
  refine .bind hs (.expect (by simp) hs) fun _ hs => ?_
  refine .bind hs (hbody _ hs) fun _ _ => ?_
  exact .peek (fun t => t.span.start) position_apply (.pure _ _)

theorem persistsAt_statementOf (hvalue : Persists value value') (hbody : Persists body body')
    (form : StmtForm) (hs : s.IsClosed) (hne : s.current.kind ≠ .endOfInput) :
    PersistsAt (statementOf value body form) (statementOf value' body' form) s := by
  cases form with
  | assignment => exact persistsAt_assignment hvalue hs hne
  | word => exact persistsAt_wordStatement hvalue hbody hs hne
  | declaration => exact persistsAt_declaration hvalue hs hne
  | rule => exact persistsAt_rule hbody hs hne
  | ifClause => exact persistsAt_ifClause hvalue hbody hs hne

mutual

theorem statementWithin_persists : (n m : Nat) → n ≤ m →
    Persists (statementWithin .standard n) (statementWithin .standard m)
  | 0, _, _ => fun s _ => by
    rw [statementWithin]
    exact .runaway _ _
  | n + 1, m + 1, h => fun s hs => by
    rw [statementWithin, statementWithin]
    refine .peekKind ?_
    cases hform : Table.standard.stmt? s.current.kind with
    | none => exact .failWith _ s
    | some form =>
      have hvalue := expressionWithin_persists n m (Nat.le_of_succ_le_succ h) .default
      have hbody := bodyWithin_persists n m (Nat.le_of_succ_le_succ h)
      exact persistsAt_statementOf hvalue hbody form hs (kind_ne_of_stmt? hform).2

theorem bodyWithin_persists : (n m : Nat) → n ≤ m →
    Persists (bodyWithin .standard n) (bodyWithin .standard m)
  | 0, _, _ => fun s _ => by
    rw [bodyWithin]
    exact .runaway _ _
  | n + 1, m + 1, h => fun s hs => by
    rw [bodyWithin, bodyWithin]
    refine .bind hs (.expect (by simp) hs) fun _ hs => ?_
    refine .bind hs (statementsWithin_persists n m (Nat.le_of_succ_le_succ h) _ hs) fun _ hs => ?_
    exact .bind hs (.expect (by simp) hs) fun _ _ => .pure _ _

theorem statementsWithin_persists : (n m : Nat) → n ≤ m →
    Persists (statementsWithin .standard n) (statementsWithin .standard m)
  | 0, _, _ => fun s _ => by
    rw [statementsWithin]
    exact .runaway _ _
  | n + 1, m + 1, h => fun s hs => by
    have hmore : PersistsAt
        (statementWithin .standard n >>= fun st => statementsWithin .standard n >>= fun ss => pure (st :: ss))
        (statementWithin .standard m >>= fun st => statementsWithin .standard m >>= fun ss => pure (st :: ss)) s := by
      refine .bind hs (statementWithin_persists n m (Nat.le_of_succ_le_succ h) _ hs) fun _ hs => ?_
      exact .bind hs (statementsWithin_persists n m (Nat.le_of_succ_le_succ h) _ hs) fun _ _ => .pure _ _
    rw [statementsWithin, statementsWithin]
    refine .peekKind ?_
    cases s.current.kind with
    | closeCurly => exact .pure [] s
    | endOfInput => exact .failWith _ s
    | _ => exact hmore

end

theorem persists_topStatement {statement statement' : Parse Stmt} (h : Persists statement statement') :
    Persists (topStatement statement) (topStatement statement') := by
  intro s hs
  refine .peekToken (.bind hs (h s hs) fun {st _} _ _ => ?_)
  cases st with
  | assignment | rule => exact .pure _ _
  | declaration | ifClause => exact .throw _ _

theorem topStatementsWithin_persists (n m : Nat) (h : n ≤ m) :
    Persists (topStatementsWithin .standard n) (topStatementsWithin .standard m) := by
  induction n generalizing m with
  | zero => exact fun s _ => .runaway _ s
  | succ n ih =>
    obtain ⟨m, rfl⟩ := Nat.exists_eq_add_of_lt h
    intro s hs
    have hnm : n ≤ n + m := Nat.le_add_right n m
    rw [topStatementsWithin, topStatementsWithin]
    refine .peekKind ?_
    split
    · exact .pure [] s
    · refine .bind hs (persists_topStatement (statementWithin_persists n _ hnm) s hs) fun _ hs => ?_
      exact .bind hs (ih _ hnm _ hs) fun _ _ => .pure _ _

end Statements

end TypedCss.Grammar
