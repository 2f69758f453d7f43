import Mathlib.Logic.Relation
import TypedCss.Proofs.Viability

/-!
# Calls of the readers

The readers call each other, and each call leaves one round less to the calls that it makes. A fault ends every
call in which it comes up. The rounds run out exactly where some call is left without any.
-/

namespace TypedCss.Grammar

open Parse

/-- The readers that call each other. -/
inductive Reader where
  | expression (power : Power)
  /-- The operators after an operand, which is on their left. -/
  | operators (power : Power) (left : Expr)
  | statement
  | body
  | statements
  | topStatements

/-- A reader, the rounds that it is given, and what is left to read when it begins. -/
structure Call where
  reader : Reader
  rounds : Nat
  start : Stream

/-- The step without what it makes. -/
def Parse.only {α : Type} (p : Parse α) : Parse Unit := do
  let _ ← p
  return ()

def Reader.parse (n : Nat) : Reader → Parse Unit
  | expression power => only (expressionWithin .standard n power)
  | operators power left => only (extendWithin .standard n power left)
  | statement => only (statementWithin .standard n)
  | body => only (bodyWithin .standard n)
  | statements => only (statementsWithin .standard n)
  | topStatements => only (topStatementsWithin .standard n)

def Call.run (c : Call) : EStateM.Result Fault Stream Unit := c.reader.parse c.rounds c.start

/-- The form of the statement that begins here. A word begins a declaration or a rule. -/
def Stream.form? (s : Stream) : Option StmtForm :=
  match Table.standard.stmt? s.current.kind with
  | some .word => some (if s.nextKind = .colon then .declaration else .rule)
  | form? => form?

/-- The mark between the first token of a statement and an expression. -/
def StmtForm.mark? : StmtForm → Option Kind
  | assignment => some .assign
  | declaration => some .colon
  | ifClause => some .openBracket
  | word | rule => none

/-- The first call makes the second one. -/
inductive Calls : Call → Call → Prop
  | grouped {n power s} : s.current.kind = .openParen →
      Calls ⟨.expression power, n + 1, s⟩ ⟨.expression .default, n, s.advance⟩
  | operators {n power left s s'} : operand .standard (expressionWithin .standard n .default) s = .ok left s' →
      Calls ⟨.expression power, n + 1, s⟩ ⟨.operators power left, n, s'⟩
  | right {n power left op s} : s.current.kind = .operator op → power.rank < (powerOf op).rank →
      Calls ⟨.operators power left, n + 1, s⟩ ⟨.expression (powerOf op), n, s.advance⟩
  | moreOperators {n power left op e s s'} : s.current.kind = .operator op → power.rank < (powerOf op).rank →
      binary left (expressionWithin .standard n (powerOf op)) s = .ok e s' →
      Calls ⟨.operators power left, n + 1, s⟩ ⟨.operators power e, n, s'⟩
  | value {n form s} : s.form? = some form → form.mark? = some s.advance.current.kind →
      Calls ⟨.statement, n + 1, s⟩ ⟨.expression .default, n, s.advance.advance⟩
  | ruleBody {n selector s} : s.form? = some .rule → selectorOf? s.current = some selector →
      Calls ⟨.statement, n + 1, s⟩ ⟨.body, n, s.advance⟩
  | clauseBody {n c s s'} : s.form? = some .ifClause → s.advance.current.kind = .openBracket →
      expressionWithin .standard n .default s.advance.advance = .ok c s' → s'.current.kind = .closeBracket →
      Calls ⟨.statement, n + 1, s⟩ ⟨.body, n, s'.advance⟩
  | statements {n s} : s.current.kind = .openCurly → Calls ⟨.body, n + 1, s⟩ ⟨.statements, n, s.advance⟩
  | statement {n s} : s.current.kind ≠ .closeCurly → s.current.kind ≠ .endOfInput →
      Calls ⟨.statements, n + 1, s⟩ ⟨.statement, n, s⟩
  | moreStatements {n st s s'} : s.current.kind ≠ .closeCurly → s.current.kind ≠ .endOfInput →
      statementWithin .standard n s = .ok st s' → Calls ⟨.statements, n + 1, s⟩ ⟨.statements, n, s'⟩
  | topStatement {n s} : s.current.kind ≠ .endOfInput → Calls ⟨.topStatements, n + 1, s⟩ ⟨.statement, n, s⟩
  | moreTopStatements {n st s s'} : s.current.kind ≠ .endOfInput →
      Grammar.topStatement (statementWithin .standard n) s = .ok st s' →
      Calls ⟨.topStatements, n + 1, s⟩ ⟨.topStatements, n, s'⟩

section

variable {α : Type} {p : Parse α} {s s' : Stream} {fault : Fault} {form : StmtForm} {n : Nat}

theorem only_eq_error : only p s = .error fault s' ↔ p s = .error fault s' := by
  unfold only
  rw [bind_eq_error]
  constructor
  · rintro (h | ⟨a, s₁, -, h⟩)
    · exact h
    · cases h
  · exact .inl

theorem only_mono {β : Type} {q : Parse β} {s₁ : Stream} (h : p s = .error fault s' → q s₁ = .error fault s') :
    only p s = .error fault s' → only q s₁ = .error fault s' :=
  fun hp => only_eq_error.2 (h (only_eq_error.1 hp))

theorem kind_ne_of_form? (h : s.form? = some form) : s.current.kind ≠ .endOfInput := by
  intro hend
  rw [Stream.form?, hend] at h
  cases h

theorem statementWithin_of_form (h : s.form? = some form) : statementWithin .standard (n + 1) s =
    statementOf (expressionWithin .standard n .default) (bodyWithin .standard n) form s := by
  rw [statementWithin, bind_of_ok (currentKind_apply s)]
  unfold Stream.form? at h
  cases hform : Table.standard.stmt? s.current.kind with
  | none =>
    rw [hform] at h
    cases h
  | some form' =>
    rw [hform] at h
    cases form' with
    | word =>
      obtain rfl := Option.some.inj h
      change wordStatement _ _ s = _
      rw [wordStatement, bind_of_ok (get_apply s)]
      split <;> rfl
    | _ =>
      obtain rfl := Option.some.inj h
      rfl

theorem statementWithin_of_no_form (h : s.form? = none) : statementWithin .standard (n + 1) s =
    .error (misplaced s "expected a variable assignment, declaration, if clause or style rule") s := by
  rw [statementWithin, bind_of_ok (currentKind_apply s)]
  unfold Stream.form? at h
  split at h
  · cases h
  · rw [h]
    rfl

end

/-- A call that is made by another, or by one that is made by it, and so on, or is the same call. -/
def Makes : Call → Call → Prop := Relation.ReflTransGen Calls

/-- The rounds of `p` from `s` on run out only with such a fault, in front of such tokens. -/
def RunsOutAt {α : Type} (Blame : Fault → Stream → Prop) (p : Parse α) (s : Stream) : Prop :=
  ∀ ⦃fault s'⦄, p s = .error fault s' → fault.cause = .runaway → Blame fault s'

namespace RunsOutAt

variable {α β : Type} {Blame : Fault → Stream → Prop} {p : Parse α} {f : α → Parse β} {s : Stream}

theorem bind (hp : RunsOutAt Blame p s) (hf : ∀ {a s'}, p s = .ok a s' → RunsOutAt Blame (f a) s') :
    RunsOutAt Blame (p >>= f) s := by
  intro fault s' h hcause
  rcases bind_eq_error.1 h with h | ⟨a, s₁, ha, h⟩
  · exact hp h hcause
  · exact hf ha h hcause

theorem pure (a : α) : RunsOutAt Blame (pure a) s := fun _ _ h => nomatch h

theorem of_hasFault (h : ∀ {fault s'}, p s = .error fault s' → s' = s ∧ s.HasFault fault) : RunsOutAt Blame p s :=
  fun _ _ hfault hcause => absurd hcause (h hfault).2.cause

theorem expect {kind : Kind} : RunsOutAt Blame (expect kind) s := of_hasFault hasFault_of_expect

theorem expectWith {kind : Kind} {message : String} : RunsOutAt Blame (expectWith kind message) s :=
  of_hasFault hasFault_of_expectWith

theorem failWith {message : String} : RunsOutAt Blame (failWith message : Parse α) s :=
  of_hasFault hasFault_of_failWith

theorem throw {fault : Fault} (h : fault.cause ≠ .runaway) : RunsOutAt Blame (throw fault : Parse α) s := by
  intro fault' s' hfault hcause
  cases hfault
  exact absurd hcause h

theorem failAt (t : Token) : RunsOutAt Blame (failAt t : Parse α) s := throw (by simp [unexpectedToken])

theorem of_eq {q : Parse α} (hpq : p s = q s) (h : RunsOutAt Blame q s) : RunsOutAt Blame p s :=
  fun _ _ hp => h (hpq.symm.trans hp)

/-- A step that makes something has not run out of rounds. -/
theorem after {a : α} {s' : Stream} (hp : p s = .ok a s') (h : RunsOutAt Blame (f a) s') :
    RunsOutAt Blame (p >>= f) s :=
  fun _ _ hfault => h ((bind_of_ok hp).symm.trans hfault)

theorem only (h : RunsOutAt Blame p s) : RunsOutAt Blame (only p) s := fun _ _ hp => h (only_eq_error.1 hp)

end RunsOutAt

section

variable {α : Type} {Blame : Fault → Stream → Prop} {inner right value : Parse Expr} {body : Parse (List Stmt)}
  {left : Expr} {s : Stream} {form : StmtForm}

theorem operand_runsOutAt (hinner : s.current.kind = .openParen → RunsOutAt Blame inner s.advance) :
    RunsOutAt Blame (operand .standard inner) s := by
  refine .after (currentKind_apply s) ?_
  cases hform : Table.standard.operand? s.current.kind with
  | none => exact .failWith
  | some operandForm =>
    cases operandForm with
    | primary =>
      refine .after (current_apply s) ?_
      cases hoperand : operandOf s.current with
      | ok e => exact .after (advance_apply s) (.pure e)
      | error fault => exact .throw (hasFault_of_operandOf hoperand).cause
    | grouping =>
      refine .after (advance_apply s) (.bind ?_ fun _ => .bind .expect fun _ => .pure _)
      exact hinner (operand?_eq_grouping.1 hform)

theorem binary_runsOutAt {op : Operator} (hkind : s.current.kind = .operator op)
    (hright : RunsOutAt Blame right s.advance) : RunsOutAt Blame (binary left right) s := by
  refine .after (advance_apply s) ?_
  rw [hkind]
  exact .bind hright fun _ => .pure _

theorem marked_runsOutAt {mark : Parse Token} {kind stop : Kind} {rest : Token → Expr → Token → Parse α}
    (hmark : RunsOutAt Blame mark s.advance)
    (hok : ∀ {s t s'}, mark s = .ok t s' → s.current.kind = kind ∧ s.current = t ∧ s.advance = s')
    (hvalue : s.advance.current.kind = kind → RunsOutAt Blame value s.advance.advance)
    (hrest : ∀ {e s'}, s.advance.current.kind = kind → value s.advance.advance = .ok e s' → s'.current.kind = stop →
      RunsOutAt Blame (rest s.current e s'.current) s'.advance) :
    RunsOutAt Blame (do
      let t ← Parse.advance
      let _ ← mark
      let e ← value
      let stop ← Parse.expect stop
      rest t e stop) s := by
  refine .after (advance_apply s) (.bind hmark fun ht => ?_)
  obtain ⟨hkind, -, rfl⟩ := hok ht
  refine .bind (hvalue hkind) fun he => .bind .expect fun hstop => ?_
  obtain ⟨hkind', rfl, rfl⟩ := expect_eq_ok.1 hstop
  exact hrest hkind he hkind'

theorem rule_runsOutAt (hbody : ∀ selector, selectorOf? s.current = some selector → RunsOutAt Blame body s.advance) :
    RunsOutAt Blame (rule body) s := by
  refine .after (advance_apply s) ?_
  cases hselector : selectorOf? s.current with
  | none => exact .failAt _
  | some selector => exact .bind (hbody selector hselector) fun {_ s'} _ => .after (position_apply s') (.pure _)

/-- The rounds of a statement are those of its expression and of its body. -/
theorem statementOf_runsOutAt (hword : form ≠ .word)
    (hvalue : form.mark? = some s.advance.current.kind → RunsOutAt Blame value s.advance.advance)
    (hrule : ∀ selector, form = .rule → selectorOf? s.current = some selector → RunsOutAt Blame body s.advance)
    (hclause : ∀ {c s'}, form = .ifClause → s.advance.current.kind = .openBracket →
      value s.advance.advance = .ok c s' → s'.current.kind = .closeBracket → RunsOutAt Blame body s'.advance) :
    RunsOutAt Blame (statementOf value body form) s := by
  cases form with
  | word => exact absurd rfl hword
  | assignment =>
    exact marked_runsOutAt .expectWith expectWith_eq_ok.1 (fun h => hvalue (h ▸ rfl)) fun _ _ _ => .pure _
  | declaration =>
    exact marked_runsOutAt .expect expect_eq_ok.1 (fun h => hvalue (h ▸ rfl)) fun _ _ _ => .pure _
  | rule => exact rule_runsOutAt fun selector => hrule selector rfl
  | ifClause =>
    refine marked_runsOutAt .expectWith expectWith_eq_ok.1 (fun h => hvalue (h ▸ rfl)) fun hopen hc hclose => ?_
    exact .bind (hclause rfl hopen hc hclose) fun {_ s'} _ => .after (position_apply s') (.pure _)

theorem topStatement_runsOutAt {statement : Parse Stmt} (h : RunsOutAt Blame statement s) :
    RunsOutAt Blame (topStatement statement) s := by
  refine .after (current_apply s) (.bind h fun {st _} _ => ?_)
  cases st with
  | assignment | rule => exact .pure _
  | declaration | ifClause => exact .throw (by simp)

end

/-- Some call that `c` makes has the fault. -/
def Call.PassesOn (c : Call) (fault : Fault) (s' : Stream) : Prop := ∃ c', Calls c c' ∧ c'.run = .error fault s'

theorem Calls.passesOn {α : Type} {c : Call} {reader : Reader} {n : Nat} {s : Stream} {p : Parse α}
    (h : Calls c ⟨reader, n, s⟩) (hp : ∀ {fault s'}, p s = .error fault s' → reader.parse n s = .error fault s') :
    RunsOutAt c.PassesOn p s :=
  fun _ _ hfault _ => ⟨_, h, hp hfault⟩

theorem Stream.form?_ne_word (s : Stream) : s.form? ≠ some .word := by
  unfold form?
  split
  · split <;> simp
  · assumption

/-- A call that has a round for itself runs out of rounds only where another one does that it makes. -/
theorem Reader.runsOutAt (reader : Reader) (n : Nat) (s : Stream) :
    RunsOutAt (Call.PassesOn ⟨reader, n + 1, s⟩) (reader.parse (n + 1)) s := by
  -- each step of a reader that takes rounds is a call, and no other step can run out of them
  cases reader with
  | expression power =>
    refine .only ?_
    rw [expressionWithin]
    refine .bind ?_ fun hleft => ?_
    · exact operand_runsOutAt fun hkind => Calls.passesOn (.grouped hkind) only_eq_error.2
    · exact Calls.passesOn (.operators hleft) only_eq_error.2
  | operators power left =>
    refine .only ?_
    rcases power.ends_or_operator s.current.kind with hends | ⟨op, hkind, hp⟩
    · exact .of_eq (extendWithin_of_ends left hends) (.pure left)
    · refine .of_eq (extendWithin_of_operator left hkind hp) (.bind ?_ fun he => ?_)
      · exact binary_runsOutAt hkind (Calls.passesOn (.right hkind hp) only_eq_error.2)
      · exact Calls.passesOn (.moreOperators hkind hp he) only_eq_error.2
  | statement =>
    refine .only ?_
    cases hform : s.form? with
    | none => exact .of_eq (statementWithin_of_no_form hform) (.throw (by simp [misplaced]))
    | some form =>
      refine .of_eq (statementWithin_of_form hform) (statementOf_runsOutAt ?_ ?_ ?_ ?_)
      · rintro rfl
        exact s.form?_ne_word hform
      · exact fun hmark => Calls.passesOn (.value hform hmark) only_eq_error.2
      · rintro selector rfl hselector
        exact Calls.passesOn (.ruleBody hform hselector) only_eq_error.2
      · rintro c s' rfl hopen hc hclose
        exact Calls.passesOn (.clauseBody hform hopen hc hclose) only_eq_error.2
  | body =>
    refine .only ?_
    rw [bodyWithin]
    refine .bind .expect fun hopen => ?_
    obtain ⟨hkind, -, rfl⟩ := expect_eq_ok.1 hopen
    refine .bind ?_ fun _ => .bind .expect fun _ => .pure _
    exact Calls.passesOn (.statements hkind) only_eq_error.2
  | statements =>
    refine .only ?_
    by_cases hclose : s.current.kind = .closeCurly
    · exact .of_eq (statementsWithin_of_closeCurly n hclose) (.pure [])
    · by_cases hend : s.current.kind = .endOfInput
      · exact .of_eq (statementsWithin_of_endOfInput n hend) .failWith
      · refine .of_eq (statementsWithin_of_ne n hclose hend) (.bind ?_ fun hst => .bind ?_ fun _ => .pure _)
        · exact Calls.passesOn (.statement hclose hend) only_eq_error.2
        · exact Calls.passesOn (.moreStatements hclose hend hst) only_eq_error.2
  | topStatements =>
    refine .only ?_
    rw [topStatementsWithin]
    refine .after (currentKind_apply s) ?_
    split
    · exact .pure []
    · rename_i hend
      refine .bind (topStatement_runsOutAt ?_) fun hst => .bind ?_ fun _ => .pure _
      · exact Calls.passesOn (.topStatement hend) only_eq_error.2
      · exact Calls.passesOn (.moreTopStatements hend hst) only_eq_error.2

theorem Calls.rounds_eq {c c' : Call} (h : Calls c c') : c.rounds = c'.rounds + 1 := by
  cases h <;> rfl

/-- Where rounds run out, some call is left without any. -/
theorem Call.exists_exhausted {c : Call} {fault : Fault} {s' : Stream} (h : c.run = .error fault s')
    (hcause : fault.cause = .runaway) : ∃ c', Makes c c' ∧ c'.rounds = 0 := by
  obtain ⟨reader, n, s⟩ := c
  -- the call to blame has one round less
  induction n generalizing reader s with
  | zero => exact ⟨_, .refl, rfl⟩
  | succ n ih =>
    obtain ⟨⟨reader', n', s₁⟩, hcall, hfault⟩ := reader.runsOutAt n s h hcause
    obtain rfl := Nat.succ.inj hcall.rounds_eq
    obtain ⟨c', hmakes, hc'⟩ := ih reader' s₁ hfault
    exact ⟨c', .head hcall hmakes, hc'⟩

/-- A fault of the first step is one of both. -/
theorem bind_of_error {α β : Type} {p : Parse α} {f : α → Parse β} {s s' : Stream} {fault : Fault}
    (h : p s = .error fault s') : (p >>= f) s = .error fault s' :=
  bind_eq_error.2 (.inl h)

section

variable {inner right value : Parse Expr} {body : Parse (List Stmt)} {left : Expr} {s s' s₁ : Stream}
  {fault : Fault} {form : StmtForm}

theorem operand_of_inner_error (hkind : s.current.kind = .openParen)
    (h : inner s.advance = .error fault s') : operand .standard inner s = .error fault s' := by
  rw [operand, bind_of_ok (currentKind_apply s), operand?_eq_grouping.2 hkind]
  exact (bind_of_ok (advance_apply s)).trans (bind_of_error h)

theorem binary_of_right_error {op : Operator} (hkind : s.current.kind = .operator op)
    (h : right s.advance = .error fault s') : binary left right s = .error fault s' := by
  rw [binary, bind_of_ok (advance_apply s), hkind]
  exact bind_of_error h

theorem statementOf_of_value_error (hmark : form.mark? = some s.advance.current.kind)
    (h : value s.advance.advance = .error fault s') : statementOf value body form s = .error fault s' := by
  cases form with
  | word | rule => cases hmark
  | assignment | ifClause =>
    refine (bind_of_ok (advance_apply s)).trans ?_
    rw [bind_of_ok (expectWith_eq_ok.2 ⟨(Option.some.inj hmark).symm, rfl, rfl⟩)]
    exact bind_of_error h
  | declaration =>
    refine (bind_of_ok (advance_apply s)).trans ?_
    rw [bind_of_ok (expect_eq_ok.2 ⟨(Option.some.inj hmark).symm, rfl, rfl⟩)]
    exact bind_of_error h

theorem rule_of_body_error {selector : Selector} (hselector : selectorOf? s.current = some selector)
    (h : body s.advance = .error fault s') : rule body s = .error fault s' := by
  rw [rule, bind_of_ok (advance_apply s), hselector]
  exact bind_of_error h

theorem ifClause_of_body_error {c : Expr} (hopen : s.advance.current.kind = .openBracket)
    (hc : value s.advance.advance = .ok c s₁) (hclose : s₁.current.kind = .closeBracket)
    (h : body s₁.advance = .error fault s') : ifClause value body s = .error fault s' := by
  rw [ifClause, bind_of_ok (advance_apply s), bind_of_ok (expectWith_eq_ok.2 ⟨hopen, rfl, rfl⟩), bind_of_ok hc,
    bind_of_ok (expect_eq_ok.2 ⟨hclose, rfl, rfl⟩)]
  exact bind_of_error h

theorem topStatement_of_error {statement : Parse Stmt} (h : statement s = .error fault s') :
    topStatement statement s = .error fault s' := by
  rw [topStatement, bind_of_ok (current_apply s)]
  exact bind_of_error h

end

/-- A fault ends every call in which it comes up. -/
theorem Calls.run_eq_error {c c' : Call} {fault : Fault} {s' : Stream} (h : Calls c c') :
    c'.run = .error fault s' → c.run = .error fault s' := by
  cases h with
  | grouped hkind =>
    refine only_mono fun h => ?_
    rw [expressionWithin]
    exact bind_of_error (operand_of_inner_error hkind h)
  | operators hoperand =>
    refine only_mono fun h => ?_
    rw [expressionWithin, bind_of_ok hoperand]
    exact h
  | right hkind hp =>
    refine only_mono fun h => ?_
    rw [extendWithin_of_operator _ hkind hp]
    exact bind_of_error (binary_of_right_error hkind h)
  | moreOperators hkind hp he =>
    refine only_mono fun h => ?_
    rw [extendWithin_of_operator _ hkind hp, bind_of_ok he]
    exact h
  | value hform hmark =>
    refine only_mono fun h => ?_
    rw [statementWithin_of_form hform]
    exact statementOf_of_value_error hmark h
  | ruleBody hform hselector =>
    refine only_mono fun h => ?_
    rw [statementWithin_of_form hform]
    exact rule_of_body_error hselector h
  | clauseBody hform hopen hc hclose =>
    refine only_mono fun h => ?_
    rw [statementWithin_of_form hform]
    exact ifClause_of_body_error hopen hc hclose h
  | statements hkind =>
    refine only_mono fun h => ?_
    rw [bodyWithin, bind_of_ok (expect_eq_ok.2 ⟨hkind, rfl, rfl⟩)]
    exact bind_of_error h
  | statement hclose hend =>
    refine only_mono fun h => ?_
    rw [statementsWithin_of_ne _ hclose hend]
    exact bind_of_error h
  | moreStatements hclose hend hst =>
    refine only_mono fun h => ?_
    rw [statementsWithin_of_ne _ hclose hend, bind_of_ok hst]
    exact bind_of_error h
  | topStatement hend =>
    refine only_mono fun h => ?_
    rw [topStatementsWithin, bind_of_ok (currentKind_apply _), if_neg hend]
    exact bind_of_error (topStatement_of_error h)
  | moreTopStatements hend hst =>
    refine only_mono fun h => ?_
    rw [topStatementsWithin, bind_of_ok (currentKind_apply _), if_neg hend, bind_of_ok hst]
    exact bind_of_error h

theorem Makes.run_eq_error {c c' : Call} {fault : Fault} {s' : Stream} (h : Makes c c')
    (h' : c'.run = .error fault s') : c.run = .error fault s' := by
  induction h with
  | refl => exact h'
  | tail _ hcall ih => exact ih (hcall.run_eq_error h')

theorem Call.run_of_exhausted {c : Call} (h : c.rounds = 0) :
    c.run = .error ⟨.runaway, c.start.current.span.start⟩ c.start := by
  obtain ⟨reader, n, s⟩ := c
  obtain rfl : n = 0 := h
  cases reader <;> rfl

/-- The rounds run out exactly where some call is left without any. -/
theorem Call.runs_out_iff {c : Call} :
    (∃ fault s', c.run = .error fault s' ∧ fault.cause = .runaway) ↔ ∃ c', Makes c c' ∧ c'.rounds = 0 := by
  constructor
  · rintro ⟨fault, s', hfault, hcause⟩
    exact exists_exhausted hfault hcause
  · rintro ⟨c', hmakes, hc'⟩
    exact ⟨_, _, hmakes.run_eq_error (run_of_exhausted hc'), rfl⟩

end TypedCss.Grammar
