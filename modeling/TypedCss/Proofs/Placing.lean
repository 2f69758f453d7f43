import TypedCss.Proofs.Statements
import TypedCss.Proofs.Tiling

/-!
# Places in the source

Each token of a source stands where its span says. The parser takes all places from tokens, so what it reads begins
with the words that it is about, and where it stops, the token that it stops at stands there.
-/

namespace TypedCss

/-- The position is in the file, and the text stands there in the source. -/
structure Position.PointsAt (p : Position) (file source text : String) : Prop where
  file : p.file = file
  stands : ∃ before after, source.toList = before ++ (text.toList ++ after) ∧ p.offset.toNat = Text.size before

/-- The position is where the source ends. -/
structure Position.IsEnd (p : Position) (file source : String) : Prop where
  file : p.file = file
  offset : p.offset.toNat = source.utf8ByteSize

variable {file source : String}

namespace Position

variable {p : Position} {text : String}

theorem PointsAt.front (h : p.PointsAt file source text) : p.PointsAt file source "" := by
  obtain ⟨before, after, hsource, hoffset⟩ := h.stands
  exact ⟨h.file, before, text.toList ++ after, hsource, hoffset⟩

theorem PointsAt.offset_le (h : p.PointsAt file source text) : p.offset.toNat ≤ source.utf8ByteSize := by
  obtain ⟨before, after, hsource, hoffset⟩ := h.stands
  rw [← Text.size_toList, hsource, Text.size_append, hoffset]
  exact Nat.le_add_right _ _

theorem IsEnd.pointsAt (h : p.IsEnd file source) : p.PointsAt file source "" := by
  refine ⟨h.file, source.toList, [], by simp, ?_⟩
  rw [h.offset, Text.size_toList]

end Position

/-- The token stands where its span begins, or it ends the source. -/
structure Token.IsPlaced (file source : String) (t : Token) : Prop where
  word : t.kind ≠ .endOfInput → t.span.start.PointsAt file source t.text
  last : t.kind = .endOfInput → t.text = "EOF" ∧ t.span.start.IsEnd file source
  ifWord : t.kind = .ifWord → t.text = "if"

/-- The text stands at the position, or else reading stopped at the end of the input, which has this position and the
text `EOF`, and the position is where the source ends. -/
def Position.Names (p : Position) (file source text : String) (stop? : Option Token) : Prop :=
  p.PointsAt file source text ∨
    ∃ t ∈ stop?, t.kind = .endOfInput ∧ t.span.start = p ∧ text = "EOF" ∧ p.IsEnd file source

theorem Position.Names.pointsAt {p : Position} {text : String} {stop? : Option Token}
    (h : p.Names file source text stop?) : p.PointsAt file source "" := by
  rcases h with h | ⟨-, -, -, -, -, h⟩
  · exact h.front
  · exact h.pointsAt

namespace Token.IsPlaced

variable {t : Token}

theorem names (h : t.IsPlaced file source) : t.span.start.Names file source t.text (some t) := by
  by_cases hend : t.kind = .endOfInput
  · exact .inr ⟨t, rfl, hend, rfl, h.last hend⟩
  · exact .inl (h.word hend)

theorem start (h : t.IsPlaced file source) : t.span.start.PointsAt file source "" := h.names.pointsAt

end Token.IsPlaced

theorem Kind.text_of_describes_ifWord {text : List Char} (h : Kind.ifWord.Describes text) : text = "if".toList := by
  obtain ⟨p, hp, -, hkind⟩ := h
  cases p with
  | lowerCase =>
    rw [Pattern.kind?] at hkind
    split at hkind
    case isTrue hif => exact hif
    case isFalse => cases hkind
  | mark c kind =>
    obtain rfl : kind = .ifWord := Option.some.inj hkind
    simp [Pattern.inOrder] at hp
  | hash =>
    rw [Pattern.kind?] at hkind
    split at hkind <;> cases hkind
  | capitalised =>
    rw [Pattern.kind?] at hkind
    split at hkind
    · cases hkind
    · split at hkind <;> cases hkind
  | _ => cases hkind

theorem Tiles.file_eq {n : Nat} {cs : List Char} {ts : List Token} (h : Tiles file n cs ts) :
    ∀ t ∈ ts, t.span.start.file = file := by
  induction h with
  | nil => nofun
  | cons hgap htext h ih => exact List.forall_mem_cons.2 ⟨rfl, ih⟩

namespace Token

variable {ts : List Token} {fault : Fault}

theorem isPlaced_of_ofSource (hsize : source.utf8ByteSize < 4294967296) (h : ofSource file source = .ok ts) :
    ∀ t ∈ ts, t.IsPlaced file source := by
  obtain ⟨hrest, rfl⟩ := ofSource_eq_ok.1 h
  have htiles := Tiles.of_lexemes file 0 source.toList hrest
  have hsize' : 0 + Text.size source.toList < 4294967296 := by rwa [Nat.zero_add, Text.size_toList]
  refine List.forall_mem_append.2 ⟨fun t ht => ?_, List.forall_mem_singleton.2 ?_⟩
  · obtain ⟨-, hkind, before, after, hsource, hstart, -⟩ := htiles.stands hsize' t ht
    rw [Nat.zero_add] at hstart
    have hspelled := Lexeme.isSpelled_of_mem_tokens (fun l hl kind => Lexeme.admits_of_mem_all hl) t ht
    refine ⟨fun _ => ⟨htiles.file_eq t ht, before, after, hsource, hstart⟩, fun hend => ?_, fun hif => ?_⟩
    · exact absurd hend hspelled.kind_ne_endOfInput
    · rw [hif] at hkind
      exact String.toList_injective (Kind.text_of_describes_ifWord hkind)
  · obtain ⟨hstart, -⟩ := ends_ofLength .endOfInput "EOF" file (Text.size source.toList) 0 (by omega)
    refine ⟨fun hend => absurd rfl hend, fun _ => ⟨rfl, rfl, ?_⟩, nofun⟩
    rw [← Text.size_toList]
    exact hstart

end Token

/-- What the problem is about, as it stands in the source. -/
def Problem.subject : Problem → String
  | undefinedVariable name => name
  | invalidColor property | invalidDimension property _ => property
  | invalidCondition _ => "if"
  | invalidOperands .. | invalidProduct .. => ""

/-- The text stands where the node begins, and so does what a problem of the node is about. -/
structure Note.StandsAt (file source text : String) (n : Note) : Prop where
  start : n.span.start.PointsAt file source text
  problem : ∀ p ∈ n.problem?, n.span.start.PointsAt file source p.subject

theorem Note.standsAt_clear {p stop : Position} {text : String} (h : p.PointsAt file source text) :
    (Note.clear ⟨p, stop⟩).StandsAt file source text := ⟨h, nofun⟩

def Expr.IsPlaced (file source : String) : Expr → Prop
  | literal _ n => n.StandsAt file source ""
  | reference x n => n.StandsAt file source x
  | operation _ l r n => n.StandsAt file source "" ∧ l.IsPlaced file source ∧ r.IsPlaced file source

theorem Expr.IsPlaced.start {e : Expr} (h : e.IsPlaced file source) : e.span.start.PointsAt file source "" := by
  cases e with
  | literal v n => exact Note.StandsAt.start h
  | reference x n => exact (Note.StandsAt.start h).front
  | operation op l r n => exact h.1.start

namespace Stmt

mutual

/-- All nodes of the statement begin with what they are about. -/
def IsPlaced (file source : String) : Stmt → Prop
  | assignment x e n => n.StandsAt file source x ∧ e.IsPlaced file source
  | declaration p e n => n.StandsAt file source p ∧ e.IsPlaced file source
  | rule _ body n => n.StandsAt file source "" ∧ AllPlaced file source body
  | ifClause c body n => n.StandsAt file source "if" ∧ c.IsPlaced file source ∧ AllPlaced file source body

def AllPlaced (file source : String) : List Stmt → Prop
  | [] => True
  | s :: ss => s.IsPlaced file source ∧ AllPlaced file source ss

end

end Stmt

/-- The fault is one of reading, and it is where the token stands that it names. Reading stopped at the given token, if
it came to tokens. -/
def Fault.IsPlaced (file source : String) (stop? : Option Token) (fault : Fault) : Prop :=
  match fault.cause with
  | .unrecognised c => (∃ first, c = String.singleton first) ∧ fault.position.PointsAt file source c
  | .unexpected t | .misplaced t _ => fault.position.Names file source t stop?
  | .badNumber t => fault.position.PointsAt file source t
  | _ => False

theorem Token.isPlaced_of_unrecognised {fault : Fault} (hsize : source.utf8ByteSize < 4294967296)
    (h : Token.ofSource file source = .error fault) (stop? : Option Token) :
    fault.IsPlaced file source stop? := by
  obtain ⟨c, after, hrest, rfl⟩ := ofSource_eq_error.1 h
  have hall := Lexeme.all_flatMap_append source.toList
  rw [hrest] at hall
  refine ⟨⟨c, rfl⟩, rfl, _, after, by rw [String.toList_singleton]; exact hall.symm, ?_⟩
  rw [← Text.size_toList, ← hall, Text.size_append] at hsize
  rw [Lexeme.size_eq]
  have hbefore : Text.size ((Lexeme.all source.toList).1.flatMap Lexeme.text) < 4294967296 := by omega
  exact UInt32.toNat_ofNat_of_lt' hbefore

namespace Grammar

open Parse

/-- All tokens that are left are placed. -/
structure Stream.IsPlaced (file source : String) (s : Stream) : Prop where
  rest : ∀ t ∈ s.rest, t.IsPlaced file source
  last : s.last.IsPlaced file source

namespace Stream.IsPlaced

variable {s : Stream}

theorem current (hs : s.IsPlaced file source) : s.current.IsPlaced file source := by
  obtain ⟨rest, last⟩ := s
  cases rest with
  | nil => exact hs.last
  | cons t ts => exact hs.rest t List.mem_cons_self

theorem advance (hs : s.IsPlaced file source) : s.advance.IsPlaced file source :=
  ⟨fun t ht => hs.rest t (List.mem_of_mem_tail ht), hs.last⟩

end Stream.IsPlaced

variable {α β : Type}

/-- From `s` the parser makes something with the property and leaves placed tokens, or it stops with a placed
fault at the token that is the current one then. -/
structure YieldsAt (file source : String) (Q : α → Prop) (p : Parse α) (s : Stream) : Prop where
  ok : ∀ {a s'}, p s = .ok a s' → s'.IsPlaced file source ∧ Q a
  error : ∀ {fault s'}, p s = .error fault s' → fault.cause ≠ .runaway →
    fault.IsPlaced file source (some s'.current)

def Yields (file source : String) (Q : α → Prop) (p : Parse α) : Prop :=
  ∀ s : Stream, s.IsPlaced file source → YieldsAt file source Q p s

namespace YieldsAt

variable {Q : α → Prop} {R : β → Prop} {p : Parse α} {f : α → Parse β} {s : Stream}

theorem bind (hp : YieldsAt file source Q p s)
    (hf : ∀ a s', s'.IsPlaced file source → Q a → YieldsAt file source R (f a) s') :
    YieldsAt file source R (p >>= f) s := by
  constructor
  · intro b s'' h
    obtain ⟨a, s', ha, hb⟩ := bind_eq_ok.1 h
    obtain ⟨hs', hQ⟩ := hp.ok ha
    exact (hf a s' hs' hQ).ok hb
  · intro fault s'' h hcause
    rcases bind_eq_error.1 h with h | ⟨a, s', ha, h⟩
    · exact hp.error h hcause
    · obtain ⟨hs', hQ⟩ := hp.ok ha
      exact (hf a s' hs' hQ).error h hcause

theorem pure {a : α} (hs : s.IsPlaced file source) (ha : Q a) : YieldsAt file source Q (pure a) s := by
  constructor
  · intro a' s' h
    cases h
    exact ⟨hs, ha⟩
  · intro fault s' h
    cases h

theorem throw {fault : Fault} (h : fault.cause ≠ .runaway → fault.IsPlaced file source (some s.current)) :
    YieldsAt file source Q (throw fault) s := by
  constructor
  · intro a s' ha
    cases ha
  · intro fault' s' hfault hcause
    cases hfault
    exact h hcause

theorem of_eq {q : Parse α} (h : p s = q s) (hq : YieldsAt file source Q q s) : YieldsAt file source Q p s :=
  ⟨fun ha => hq.ok (h ▸ ha), fun hfault => hq.error (h ▸ hfault)⟩

theorem peek {look : Parse α} {a : α} (hlook : look s = .ok a s) (h : YieldsAt file source R (f a) s) :
    YieldsAt file source R (look >>= f) s := of_eq (bind_of_ok hlook) h

theorem advance (hs : s.IsPlaced file source) : YieldsAt file source (· = s.current) advance s := by
  constructor
  · intro t s' h
    cases h
    exact ⟨hs.advance, rfl⟩
  · intro fault s' h
    cases h

theorem runaway : YieldsAt file source Q (runaway : Parse α) s := of_eq (bind_of_ok (get_apply s)) (throw (absurd rfl))

theorem failWith (hs : s.IsPlaced file source) (message : String) :
    YieldsAt file source Q (failWith message : Parse α) s :=
  of_eq (failWith_apply message s) (throw fun _ => hs.current.names)

theorem expectation {p : Parse Token} {kind : Kind} {fault : Fault} (hs : s.IsPlaced file source)
    (hp : p s = if s.current.kind = kind then .ok s.current s.advance else .error fault s)
    (hfault : fault.IsPlaced file source (some s.current)) :
    YieldsAt file source (Token.IsPlaced file source) p s := by
  by_cases hkind : s.current.kind = kind
  · rw [if_pos hkind] at hp
    constructor
    · intro t s' h
      cases hp.symm.trans h
      exact ⟨hs.advance, hs.current⟩
    · intro fault' s' h
      cases hp.symm.trans h
  · rw [if_neg hkind] at hp
    exact of_eq hp (throw fun _ => hfault)

theorem expect (hs : s.IsPlaced file source) (kind : Kind) :
    YieldsAt file source (Token.IsPlaced file source) (expect kind) s :=
  expectation hs (expect_apply kind s) hs.current.names

theorem expectWith (hs : s.IsPlaced file source) (kind : Kind) (message : String) :
    YieldsAt file source (Token.IsPlaced file source) (expectWith kind message) s :=
  expectation hs (expectWith_apply kind message s) hs.current.names

end YieldsAt

section Expressions

variable {inner : Parse Expr} {s : Stream}

theorem operandOf_isPlaced {t : Token} (ht : t.IsPlaced file source) :
    match operandOf t with
    | .ok e => e.IsPlaced file source
    | .error fault => fault.IsPlaced file source (some t) := by
  have hword : t.kind ≠ .endOfInput → t.span.start.PointsAt file source t.text := ht.word
  unfold operandOf
  cases hkind : t.kind with
  | number m =>
    dsimp only
    cases number? m t.text with
    | none => exact hword (by simp [hkind])
    | some n => exact Note.standsAt_clear ht.start
  | color | flag b => exact Note.standsAt_clear ht.start
  | name => exact Note.standsAt_clear (hword (by simp [hkind]))
  | _ => exact ht.names

theorem primary_yields : Yields file source (Expr.IsPlaced file source) primary := by
  intro s hs
  refine .peek (current_apply s) ?_
  have ht := operandOf_isPlaced hs.current
  cases hoperand : operandOf s.current with
  | error fault =>
    rw [hoperand] at ht
    exact .throw fun _ => ht
  | ok e =>
    rw [hoperand] at ht
    exact .bind (.advance hs) fun _ _ hs _ => .pure hs ht

theorem grouping_yields (hinner : Yields file source (Expr.IsPlaced file source) inner) :
    Yields file source (Expr.IsPlaced file source) (grouping inner) := by
  intro s hs
  refine .bind (.advance hs) fun _ s₁ hs₁ _ => .bind (hinner s₁ hs₁) fun e s₂ hs₂ he => ?_
  exact .bind (.expect hs₂ _) fun _ _ hs₃ _ => .pure hs₃ he

theorem operand_yields (hinner : Yields file source (Expr.IsPlaced file source) inner) :
    Yields file source (Expr.IsPlaced file source) (operand .standard inner) := by
  intro s hs
  refine .peek (currentKind_apply s) ?_
  cases Table.standard.operand? s.current.kind with
  | none => exact .failWith hs _
  | some form =>
    cases form with
    | primary => exact primary_yields s hs
    | grouping => exact grouping_yields hinner s hs

theorem binary_yieldsAt {left : Expr} (hleft : left.IsPlaced file source)
    (hinner : Yields file source (Expr.IsPlaced file source) inner) (hs : s.IsPlaced file source)
    (hend : s.current.kind ≠ .endOfInput) :
    YieldsAt file source (Expr.IsPlaced file source) (binary left inner) s := by
  refine .bind (.advance hs) fun t s₁ hs₁ ht => ?_
  subst ht
  cases s.current.kind with
  | operator op =>
    exact .bind (hinner s₁ hs₁) fun r s₂ hs₂ hr => .pure hs₂ ⟨Note.standsAt_clear hleft.start, hleft, hr⟩
  | _ => exact .throw fun _ => .inl (hs.current.word hend)

mutual

theorem expressionWithin_yields : (n : Nat) → (power : Power) →
    Yields file source (Expr.IsPlaced file source) (expressionWithin .standard n power)
  | 0, power => fun s _ => by
    rw [expressionWithin]
    exact .runaway
  | n + 1, power => fun s hs => by
    rw [expressionWithin]
    have hinner := expressionWithin_yields n .default
    exact .bind (operand_yields hinner s hs) fun left s₁ hs₁ hleft => extendWithin_yields n power hleft s₁ hs₁

theorem extendWithin_yields : (n : Nat) → (power : Power) → {left : Expr} → left.IsPlaced file source →
    Yields file source (Expr.IsPlaced file source) (extendWithin .standard n power left)
  | 0, power, left, _ => fun s _ => by
    rw [extendWithin]
    exact .runaway
  | n + 1, power, left, hleft => fun s hs => by
    rw [extendWithin]
    refine .peek (currentKind_apply s) ?_
    cases hpower : Table.standard.power? s.current.kind with
    | none => exact .pure hs hleft
    | some next =>
      obtain ⟨op, hop, -⟩ := power?_eq_some.1 hpower
      have hend : s.current.kind ≠ .endOfInput := by simp [hop]
      dsimp only
      by_cases hrank : next.rank ≤ power.rank
      · rw [if_pos hrank]
        exact .pure hs hleft
      · rw [if_neg hrank]
        have hinner := expressionWithin_yields n next
        exact .bind (binary_yieldsAt hleft hinner hs hend) fun e s₁ hs₁ he => extendWithin_yields n power he s₁ hs₁

end

end Expressions

section Statements

variable {value : Parse Expr} {body : Parse (List Stmt)} {s : Stream}

theorem assignment_yieldsAt (hvalue : Yields file source (Expr.IsPlaced file source) value)
    (hs : s.IsPlaced file source) (hkind : s.current.kind = .name) :
    YieldsAt file source (Stmt.IsPlaced file source) (assignment value) s := by
  have hname := hs.current.word (by simp [hkind])
  refine .bind (.advance hs) fun name s₁ hs₁ heq => .bind (.expectWith hs₁ _ _) fun _ s₂ hs₂ _ => ?_
  subst heq
  refine .bind (hvalue s₂ hs₂) fun e s₃ hs₃ he => .bind (.expect hs₃ _) fun stop s₄ hs₄ _ => ?_
  exact .pure hs₄ ⟨Note.standsAt_clear hname, he⟩

theorem declaration_yieldsAt (hvalue : Yields file source (Expr.IsPlaced file source) value)
    (hs : s.IsPlaced file source) (hkind : s.current.kind = .word) :
    YieldsAt file source (Stmt.IsPlaced file source) (declaration value) s := by
  have hproperty := hs.current.word (by simp [hkind])
  refine .bind (.advance hs) fun property s₁ hs₁ heq => .bind (.expect hs₁ _) fun _ s₂ hs₂ _ => ?_
  subst heq
  refine .bind (hvalue s₂ hs₂) fun e s₃ hs₃ he => .bind (.expect hs₃ _) fun stop s₄ hs₄ _ => ?_
  exact .pure hs₄ ⟨Note.standsAt_clear hproperty, he⟩

theorem rule_yieldsAt (hbody : Yields file source (Stmt.AllPlaced file source) body)
    (hs : s.IsPlaced file source) (hend : s.current.kind ≠ .endOfInput) :
    YieldsAt file source (Stmt.IsPlaced file source) (rule body) s := by
  refine .bind (.advance hs) fun t s₁ hs₁ heq => ?_
  subst heq
  cases selectorOf? s.current with
  | none => exact .throw fun _ => .inl (hs.current.word hend)
  | some selector =>
    refine .bind (hbody s₁ hs₁) fun ss s₂ hs₂ hss => .peek (position_apply s₂) ?_
    exact .pure hs₂ ⟨Note.standsAt_clear hs.current.start, hss⟩

theorem ifClause_yieldsAt (hvalue : Yields file source (Expr.IsPlaced file source) value)
    (hbody : Yields file source (Stmt.AllPlaced file source) body) (hs : s.IsPlaced file source)
    (hkind : s.current.kind = .ifWord) :
    YieldsAt file source (Stmt.IsPlaced file source) (ifClause value body) s := by
  have hif := hs.current.word (by simp [hkind])
  rw [hs.current.ifWord hkind] at hif
  refine .bind (.advance hs) fun t s₁ hs₁ heq => .bind (.expectWith hs₁ _ _) fun _ s₂ hs₂ _ => ?_
  subst heq
  refine .bind (hvalue s₂ hs₂) fun c s₃ hs₃ hc => .bind (.expect hs₃ _) fun _ s₄ hs₄ _ => ?_
  refine .bind (hbody s₄ hs₄) fun ss s₅ hs₅ hss => .peek (position_apply s₅) ?_
  exact .pure hs₅ ⟨Note.standsAt_clear hif, hc, hss⟩

theorem wordStatement_yieldsAt (hvalue : Yields file source (Expr.IsPlaced file source) value)
    (hbody : Yields file source (Stmt.AllPlaced file source) body) (hs : s.IsPlaced file source)
    (hkind : s.current.kind = .word) :
    YieldsAt file source (Stmt.IsPlaced file source) (wordStatement value body) s := by
  refine .peek (get_apply s) ?_
  by_cases hcolon : s.nextKind = .colon
  · rw [if_pos hcolon]
    exact declaration_yieldsAt hvalue hs hkind
  · rw [if_neg hcolon]
    exact rule_yieldsAt hbody hs (by simp [hkind])

theorem statementOf_yieldsAt {form : StmtForm} (hvalue : Yields file source (Expr.IsPlaced file source) value)
    (hbody : Yields file source (Stmt.AllPlaced file source) body) (hs : s.IsPlaced file source)
    (hform : Table.standard.stmt? s.current.kind = some form) :
    YieldsAt file source (Stmt.IsPlaced file source) (statementOf value body form) s := by
  have hkind := stmt?_eq_some hform
  cases form with
  | assignment => exact assignment_yieldsAt hvalue hs hkind
  | word => exact wordStatement_yieldsAt hvalue hbody hs hkind
  | declaration => exact hkind.elim
  | rule => exact rule_yieldsAt hbody hs (kind_ne_of_stmt? hform).2
  | ifClause => exact ifClause_yieldsAt hvalue hbody hs hkind

mutual

theorem statementWithin_yields : (n : Nat) →
    Yields file source (Stmt.IsPlaced file source) (statementWithin .standard n)
  | 0 => fun s _ => by
    rw [statementWithin]
    exact .runaway
  | n + 1 => fun s hs => by
    rw [statementWithin]
    refine .peek (currentKind_apply s) ?_
    cases hform : Table.standard.stmt? s.current.kind with
    | none => exact .failWith hs _
    | some form => exact statementOf_yieldsAt (expressionWithin_yields n .default) (bodyWithin_yields n) hs hform

theorem bodyWithin_yields : (n : Nat) → Yields file source (Stmt.AllPlaced file source) (bodyWithin .standard n)
  | 0 => fun s _ => by
    rw [bodyWithin]
    exact .runaway
  | n + 1 => fun s hs => by
    rw [bodyWithin]
    refine .bind (.expect hs _) fun _ s₁ hs₁ _ => .bind (statementsWithin_yields n s₁ hs₁) fun ss s₂ hs₂ hss => ?_
    exact .bind (.expect hs₂ _) fun _ s₃ hs₃ _ => .pure hs₃ hss

theorem statementsWithin_yields : (n : Nat) →
    Yields file source (Stmt.AllPlaced file source) (statementsWithin .standard n)
  | 0 => fun s _ => by
    rw [statementsWithin]
    exact .runaway
  | n + 1 => fun s hs => by
    by_cases hclose : s.current.kind = .closeCurly
    · exact .of_eq (statementsWithin_of_closeCurly n hclose) (.pure hs trivial)
    · by_cases hend : s.current.kind = .endOfInput
      · exact .of_eq (statementsWithin_of_endOfInput n hend) (.throw fun _ => hs.current.names)
      · refine .of_eq (statementsWithin_of_ne n hclose hend) ?_
        refine .bind (statementWithin_yields n s hs) fun st s₁ hs₁ hst => ?_
        exact .bind (statementsWithin_yields n s₁ hs₁) fun ss s₂ hs₂ hss => .pure hs₂ ⟨hst, hss⟩

end

theorem topStatement_yieldsAt {statement : Parse Stmt}
    (h : Yields file source (Stmt.IsPlaced file source) statement) (hs : s.IsPlaced file source)
    (hend : s.current.kind ≠ .endOfInput) :
    YieldsAt file source (Stmt.IsPlaced file source) (topStatement statement) s := by
  refine .peek (current_apply s) (.bind (h s hs) fun st s₁ hs₁ hst => ?_)
  cases st with
  | assignment | rule => exact .pure hs₁ hst
  | declaration | ifClause => exact .throw fun _ => .inl (hs.current.word hend)

theorem topStatementsWithin_yields (n : Nat) :
    Yields file source (Stmt.AllPlaced file source) (topStatementsWithin .standard n) := by
  induction n with
  | zero =>
    intro s _
    rw [topStatementsWithin]
    exact .runaway
  | succ n ih =>
    intro s hs
    rw [topStatementsWithin]
    refine .peek (currentKind_apply s) ?_
    by_cases hend : s.current.kind = .endOfInput
    · rw [if_pos hend]
      exact .pure hs trivial
    · rw [if_neg hend]
      refine .bind (topStatement_yieldsAt (statementWithin_yields n) hs hend) fun st s₁ hs₁ hst => ?_
      exact .bind (ih s₁ hs₁) fun ss s₂ hs₂ hss => .pure hs₂ ⟨hst, hss⟩

end Statements

end Grammar

end TypedCss
