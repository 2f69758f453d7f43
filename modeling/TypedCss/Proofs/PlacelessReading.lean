import TypedCss.Proofs.Joining
import TypedCss.Proofs.Placeless
import TypedCss.Proofs.Statements

/-!
# Reading without places

The parser looks at the kinds and the texts of tokens, and at their places only to write them down. From tokens
without places it reads the same trees without places, and it stops with the same faults.
-/

namespace TypedCss

def Token.withoutSpan (t : Token) : Token := { t with span := .nowhere }

namespace Grammar

open Parse

namespace Stream

def withoutSpans (s : Stream) : Stream := ⟨s.rest.map Token.withoutSpan, s.last.withoutSpan⟩

variable (s : Stream)

theorem current_withoutSpans : s.withoutSpans.current = s.current.withoutSpan := by
  obtain ⟨rest, last⟩ := s
  cases rest <;> rfl

theorem advance_withoutSpans : s.withoutSpans.advance = s.advance.withoutSpans := by
  obtain ⟨rest, last⟩ := s
  cases rest <;> rfl

theorem nextKind_withoutSpans : s.withoutSpans.nextKind = s.nextKind := by
  obtain ⟨rest, last⟩ := s
  match rest with
  | [] | [_] | _ :: _ :: _ => rfl

theorem budget_withoutSpans : s.withoutSpans.budget = s.budget := by
  rw [budget, budget, withoutSpans, List.length_map]

end Stream

variable {α β : Type}

/-- The outcome of a parser without places. -/
def withoutPlaces (erase : α → α) : EStateM.Result Fault Stream α → EStateM.Result Fault Stream α
  | .ok a s => .ok (erase a) s.withoutSpans
  | .error fault s => .error fault.withoutPlace s.withoutSpans

/-- From tokens without places, `q` does what `p` does from the tokens themselves. -/
def IgnoresPlaces (erase : α → α) (p q : Parse α) : Prop :=
  ∀ s : Stream, q s.withoutSpans = withoutPlaces erase (p s)

namespace IgnoresPlaces

variable {erase : α → α} {erase' : β → β} {p q : Parse α} {f g : α → Parse β}

theorem bind (hp : IgnoresPlaces erase p q) (hf : ∀ a, IgnoresPlaces erase' (f a) (g (erase a))) :
    IgnoresPlaces erase' (p >>= f) (q >>= g) := by
  intro s
  rw [bind_apply, bind_apply, hp s]
  cases p s with
  | ok a s => exact hf a s
  | error fault s => rfl

theorem pure (a : α) : IgnoresPlaces erase (pure a) (pure (erase a)) := fun _ => rfl

theorem throw (fault : Fault) : IgnoresPlaces erase (throw fault) (throw fault.withoutPlace) := fun _ => rfl

theorem current : IgnoresPlaces Token.withoutSpan current current := fun s => by
  rw [current_apply, current_apply, s.current_withoutSpans]
  rfl

theorem currentKind : IgnoresPlaces id currentKind currentKind := fun s => by
  rw [currentKind_apply, currentKind_apply, s.current_withoutSpans]
  rfl

theorem position : IgnoresPlaces (fun _ => .nowhere) position position := fun s => by
  rw [position_apply, position_apply, s.current_withoutSpans]
  rfl

theorem advance : IgnoresPlaces Token.withoutSpan advance advance := fun s => by
  rw [advance_apply, advance_apply, s.current_withoutSpans, s.advance_withoutSpans]
  rfl

theorem runaway : IgnoresPlaces erase runaway runaway := by
  intro s
  unfold Parse.runaway
  rw [bind_of_ok (get_apply s), bind_of_ok (get_apply s.withoutSpans), s.current_withoutSpans]
  rfl

theorem misplaced_withoutSpans (s : Stream) (message : String) :
    misplaced s.withoutSpans message = (misplaced s message).withoutPlace := by
  rw [misplaced, s.current_withoutSpans]
  rfl

theorem failWith (message : String) : IgnoresPlaces erase (failWith message) (failWith message) := fun s => by
  rw [failWith_apply, failWith_apply, misplaced_withoutSpans]
  rfl

theorem failAt (t : Token) : IgnoresPlaces erase (failAt t) (failAt t.withoutSpan) := fun _ => rfl

theorem expectation {p : Parse Token} {kind : Kind} {fault : Stream → Fault}
    (hfault : ∀ s : Stream, fault s.withoutSpans = (fault s).withoutPlace)
    (hp : ∀ s, p s = if s.current.kind = kind then .ok s.current s.advance else .error (fault s) s) :
    IgnoresPlaces Token.withoutSpan p p := by
  intro s
  rw [hp, hp, hfault, s.current_withoutSpans, s.advance_withoutSpans]
  change (if s.current.kind = kind then _ else _) = _
  split <;> rfl

theorem expect (kind : Kind) : IgnoresPlaces Token.withoutSpan (expect kind) (expect kind) := by
  refine expectation (fun s => ?_) (expect_apply kind)
  rw [s.current_withoutSpans]
  rfl

theorem expectWith (kind : Kind) (message : String) :
    IgnoresPlaces Token.withoutSpan (expectWith kind message) (expectWith kind message) :=
  expectation (misplaced_withoutSpans · message) (expectWith_apply kind message)

end IgnoresPlaces

section Expressions

variable {table : Table} {inner inner' : Parse Expr}

theorem operandOf_withoutSpan (t : Token) :
    operandOf t.withoutSpan = ((operandOf t).map Expr.withoutSpans).mapError Fault.withoutPlace := by
  obtain ⟨kind, text, span⟩ := t
  cases kind with
  | number m =>
    simp only [operandOf, Token.withoutSpan]
    cases number? m text <;> rfl
  | _ => rfl

theorem primary_ignoresPlaces : IgnoresPlaces Expr.withoutSpans primary primary := by
  refine .bind .current fun t => ?_
  rw [operandOf_withoutSpan]
  cases operandOf t with
  | error fault => exact .throw fault
  | ok e => exact .bind .advance fun _ => .pure e

theorem grouping_ignoresPlaces (h : IgnoresPlaces Expr.withoutSpans inner inner') :
    IgnoresPlaces Expr.withoutSpans (grouping inner) (grouping inner') := by
  refine .bind .advance fun _ => .bind h fun e => ?_
  exact .bind (.expect _) fun _ => .pure e

theorem operand_ignoresPlaces (h : IgnoresPlaces Expr.withoutSpans inner inner') :
    IgnoresPlaces Expr.withoutSpans (operand table inner) (operand table inner') := by
  refine .bind .currentKind fun kind => ?_
  dsimp only [id]
  cases table.operand? kind with
  | none => exact .failWith _
  | some form =>
    cases form with
    | primary => exact primary_ignoresPlaces
    | grouping => exact grouping_ignoresPlaces h

theorem binary_ignoresPlaces (left : Expr) (h : IgnoresPlaces Expr.withoutSpans inner inner') :
    IgnoresPlaces Expr.withoutSpans (binary left inner) (binary left.withoutSpans inner') := by
  refine .bind .advance fun t => ?_
  obtain ⟨kind, text, span⟩ := t
  cases kind with
  | operator op =>
    refine .bind h fun r => ?_
    rw [Expr.span_withoutSpans, Expr.span_withoutSpans]
    exact .pure _
  | _ => exact .throw _

mutual

theorem expressionWithin_ignoresPlaces : (n : Nat) → (power : Power) →
    IgnoresPlaces Expr.withoutSpans (expressionWithin table n power) (expressionWithin table n power)
  | 0, power => by
    rw [expressionWithin]
    exact .runaway
  | n + 1, power => by
    rw [expressionWithin]
    refine .bind (operand_ignoresPlaces (expressionWithin_ignoresPlaces n .default)) fun left => ?_
    exact extendWithin_ignoresPlaces n power left

theorem extendWithin_ignoresPlaces : (n : Nat) → (power : Power) → (left : Expr) →
    IgnoresPlaces Expr.withoutSpans (extendWithin table n power left) (extendWithin table n power left.withoutSpans)
  | 0, power, left => by
    rw [extendWithin, extendWithin]
    exact .runaway
  | n + 1, power, left => by
    rw [extendWithin, extendWithin]
    refine .bind .currentKind fun kind => ?_
    dsimp only [id]
    cases table.power? kind with
    | none => exact .pure left
    | some next =>
      by_cases hrank : next.rank ≤ power.rank
      · simp only [if_pos hrank]
        exact .pure left
      · simp only [if_neg hrank]
        refine .bind (binary_ignoresPlaces left (expressionWithin_ignoresPlaces n next)) fun e => ?_
        exact extendWithin_ignoresPlaces n power e

end

end Expressions

section Statements

variable {table : Table} {value value' : Parse Expr} {body body' : Parse (List Stmt)}

theorem assignment_ignoresPlaces (h : IgnoresPlaces Expr.withoutSpans value value') :
    IgnoresPlaces Stmt.withoutSpans (assignment value) (assignment value') := by
  refine .bind .advance fun name => .bind (.expectWith _ _) fun _ => ?_
  exact .bind h fun e => .bind (.expect _) fun stop => .pure _

theorem declaration_ignoresPlaces (h : IgnoresPlaces Expr.withoutSpans value value') :
    IgnoresPlaces Stmt.withoutSpans (declaration value) (declaration value') := by
  refine .bind .advance fun property => .bind (.expect _) fun _ => ?_
  exact .bind h fun e => .bind (.expect _) fun stop => .pure _

theorem selectorOf?_withoutSpan (t : Token) : selectorOf? t.withoutSpan = selectorOf? t := rfl

theorem rule_ignoresPlaces (h : IgnoresPlaces Stmt.allWithoutSpans body body') :
    IgnoresPlaces Stmt.withoutSpans (rule body) (rule body') := by
  refine .bind .advance fun t => ?_
  rw [selectorOf?_withoutSpan]
  cases selectorOf? t with
  | none => exact .failAt t
  | some selector => exact .bind h fun ss => .bind .position fun stop => .pure _

theorem ifClause_ignoresPlaces (hvalue : IgnoresPlaces Expr.withoutSpans value value')
    (hbody : IgnoresPlaces Stmt.allWithoutSpans body body') :
    IgnoresPlaces Stmt.withoutSpans (ifClause value body) (ifClause value' body') := by
  refine .bind .advance fun t => .bind (.expectWith _ _) fun _ => .bind hvalue fun c => ?_
  exact .bind (.expect _) fun _ => .bind hbody fun ss => .bind .position fun stop => .pure _

theorem wordStatement_ignoresPlaces (hvalue : IgnoresPlaces Expr.withoutSpans value value')
    (hbody : IgnoresPlaces Stmt.allWithoutSpans body body') :
    IgnoresPlaces Stmt.withoutSpans (wordStatement value body) (wordStatement value' body') := by
  intro s
  unfold wordStatement
  rw [bind_of_ok (get_apply s), bind_of_ok (get_apply s.withoutSpans), s.nextKind_withoutSpans]
  split
  · exact declaration_ignoresPlaces hvalue s
  · exact rule_ignoresPlaces hbody s

theorem statementOf_ignoresPlaces (hvalue : IgnoresPlaces Expr.withoutSpans value value')
    (hbody : IgnoresPlaces Stmt.allWithoutSpans body body') (form : StmtForm) :
    IgnoresPlaces Stmt.withoutSpans (statementOf value body form) (statementOf value' body' form) := by
  cases form with
  | assignment => exact assignment_ignoresPlaces hvalue
  | word => exact wordStatement_ignoresPlaces hvalue hbody
  | declaration => exact declaration_ignoresPlaces hvalue
  | rule => exact rule_ignoresPlaces hbody
  | ifClause => exact ifClause_ignoresPlaces hvalue hbody

mutual

theorem statementWithin_ignoresPlaces : (n : Nat) →
    IgnoresPlaces Stmt.withoutSpans (statementWithin table n) (statementWithin table n)
  | 0 => by
    rw [statementWithin]
    exact .runaway
  | n + 1 => by
    rw [statementWithin]
    refine .bind .currentKind fun kind => ?_
    dsimp only [id]
    cases table.stmt? kind with
    | none => exact .failWith _
    | some form =>
      exact statementOf_ignoresPlaces (expressionWithin_ignoresPlaces n .default) (bodyWithin_ignoresPlaces n) form

theorem bodyWithin_ignoresPlaces : (n : Nat) →
    IgnoresPlaces Stmt.allWithoutSpans (bodyWithin table n) (bodyWithin table n)
  | 0 => by
    rw [bodyWithin]
    exact .runaway
  | n + 1 => by
    rw [bodyWithin]
    refine .bind (.expect _) fun _ => .bind (statementsWithin_ignoresPlaces n) fun ss => ?_
    exact .bind (.expect _) fun _ => .pure ss

theorem statementsWithin_ignoresPlaces : (n : Nat) →
    IgnoresPlaces Stmt.allWithoutSpans (statementsWithin table n) (statementsWithin table n)
  | 0 => by
    rw [statementsWithin]
    exact .runaway
  | n + 1 => by
    have hmore : IgnoresPlaces Stmt.allWithoutSpans
        (statementWithin table n >>= fun s => statementsWithin table n >>= fun ss => pure (s :: ss))
        (statementWithin table n >>= fun s => statementsWithin table n >>= fun ss => pure (s :: ss)) := by
      refine .bind (statementWithin_ignoresPlaces n) fun s => ?_
      exact .bind (statementsWithin_ignoresPlaces n) fun ss => .pure (s :: ss)
    rw [statementsWithin]
    refine .bind .currentKind fun kind => ?_
    cases kind with
    | closeCurly => exact .pure []
    | endOfInput => exact .failWith _
    | _ => exact hmore

end

theorem topStatement_ignoresPlaces {statement statement' : Parse Stmt}
    (h : IgnoresPlaces Stmt.withoutSpans statement statement') :
    IgnoresPlaces Stmt.withoutSpans (topStatement statement) (topStatement statement') := by
  refine .bind .current fun t => .bind h fun s => ?_
  cases s with
  | assignment x e n => exact .pure (Stmt.assignment x e n)
  | rule t body n => exact .pure (Stmt.rule t body n)
  | declaration | ifClause => exact .throw _

theorem topStatementsWithin_ignoresPlaces (n : Nat) :
    IgnoresPlaces Stmt.allWithoutSpans (topStatementsWithin table n) (topStatementsWithin table n) := by
  induction n with
  | zero =>
    rw [topStatementsWithin]
    exact .runaway
  | succ n ih =>
    rw [topStatementsWithin]
    refine .bind .currentKind fun kind => ?_
    dsimp only [id]
    by_cases hend : kind = .endOfInput
    · simp only [if_pos hend]
      exact .pure []
    · simp only [if_neg hend]
      refine .bind (topStatement_ignoresPlaces (statementWithin_ignoresPlaces n)) fun s => ?_
      exact .bind ih fun ss => .pure (s :: ss)

/-- Without places there is no file either. -/
theorem stylesheet_ignoresPlaces (file : String) :
    IgnoresPlaces Stylesheet.withoutSpans (stylesheet table file) (stylesheet table Position.nowhere.file) := by
  intro s
  unfold stylesheet
  rw [bind_of_ok (get_apply s), bind_of_ok (get_apply s.withoutSpans), s.budget_withoutSpans]
  exact IgnoresPlaces.bind (topStatementsWithin_ignoresPlaces _) (fun ss => .bind .position fun stop => .pure _) s

end Statements

theorem Stream.ofTokens_withoutSpan (file : String) (ts : List Token) :
    ofTokens Position.nowhere.file (ts.map Token.withoutSpan) = (ofTokens file ts).withoutSpans := by
  have hend : Token.endOfInput Position.nowhere.file 0 = (Token.endOfInput file 0).withoutSpan := rfl
  rw [ofTokens, hend, List.getLastD_map]
  rfl

end Grammar

open Grammar

theorem Stylesheet.ofTokens_withoutSpan (file : String) (ts : List Token) :
    ofTokens Position.nowhere.file (ts.map Token.withoutSpan) =
      ((ofTokens file ts).map withoutSpans).mapError Fault.withoutPlace := by
  rw [ofTokens, ofTokens, Stream.ofTokens_withoutSpan file ts]
  unfold Parse.outcome EStateM.run
  rw [stylesheet_ignoresPlaces file]
  cases stylesheet .standard file (Stream.ofTokens file ts) <;> rfl

theorem Token.map_withoutSpan (ts : List Token) :
    ts.map withoutSpan = (ts.map word).map fun w => ⟨w.1, w.2, .nowhere⟩ := by
  rw [List.map_map]
  rfl

theorem Stylesheet.ofSource_of_tokens {file source : String} {ts : List Token}
    (h : Token.ofSource file source = .ok ts) : ofSource file source = ofTokens file ts := by
  rw [ofSource, h]
  rfl

/-- From the same words the same stylesheet is read, or reading fails for the same reason. -/
theorem Stylesheet.ofTokens_of_words (file file' : String) {ts ts' : List Token}
    (h : ts.map Token.word = ts'.map Token.word) :
    ((ofTokens file ts).map withoutSpans).mapError Fault.withoutPlace =
      ((ofTokens file' ts').map withoutSpans).mapError Fault.withoutPlace := by
  rw [← ofTokens_withoutSpan, ← ofTokens_withoutSpan, Token.map_withoutSpan, Token.map_withoutSpan, h]

end TypedCss
