import TypedCss.Proofs.Persistence

/-!
# Faults are not early

Where the parser stops with a fault, it has read the front of some phrase: there are tokens that could have
come next instead, up to the end of the phrase. With enough rounds for the tokens that are left, the parser
does not run out of rounds.
-/

namespace TypedCss

/-- A token that the parser can read: it is spelled as its kind demands, and its number has a 32-bit form. -/
def Token.IsReadable (t : Token) : Prop := t.IsSpelled ∧ t.Fits

/-- A text for tokens of the kinds that a phrase can be completed with. -/
def Kind.fillerText : Kind → String
  | .name => "X"
  | .flag _ => "TRUE"
  | .assign => ":="
  | .colon => ":"
  | .semicolon => ";"
  | .openCurly => "\x7b"
  | .closeCurly => "\x7d"
  | .openBracket => "["
  | .closeBracket => "]"
  | .closeParen => ")"
  | _ => ""

/-- A token to complete a phrase with. -/
def Kind.filler (kind : Kind) : Token := ⟨kind, kind.fillerText, .nowhere⟩

/-- Whether a token of the kind can be read with any text. -/
def Kind.isFree (kind : Kind) : Bool :=
  kind.isFixed && kind != .className && kind != .idName && kind != .color

theorem Kind.isFixed_of_isFree {kind : Kind} (h : kind.isFree) : kind.isFixed := by
  rw [isFree, Bool.and_eq_true, Bool.and_eq_true, Bool.and_eq_true] at h
  exact h.1.1.1

theorem Kind.filler_isReadable {kind : Kind} (h : kind.isFree) : kind.filler.IsReadable := by
  refine ⟨?_, Token.fits_of_isFixed (isFixed_of_isFree h)⟩
  cases kind with
  | endOfInput | number | className | idName | color => cases h
  | _ => trivial

namespace Grammar

open Parse

theorem Stream.Reads.length_eq {s s' : Stream} {w : List Token} (h : s.Reads w s') :
    s.rest.length = w.length + s'.rest.length := by
  rw [h.eq, List.length_append]

theorem Stream.Reads.length_one {s s' : Stream} {t : Token} (h : s.Reads [t] s') :
    s.rest.length = s'.rest.length + 1 := by
  rw [h.length_eq, List.length_singleton, Nat.add_comm]

/-- The fault is one of the current token, not one of rounds. -/
structure Stream.HasFault (s : Stream) (fault : Fault) : Prop where
  position : fault.position = s.current.span.start
  cause : fault.cause ≠ .runaway

/-- The fault is at the current token of `s₁`, and what `s` reads up to there can be completed. -/
structure StopsAt (Complete : List Token → Prop) (s : Stream) (fault : Fault) (s₁ : Stream) : Prop where
  fault : s₁.HasFault fault
  viable : ∃ u v, s.Reads u s₁ ∧ (∀ t ∈ v, t.IsReadable) ∧ Complete (u ++ v)

/-- Wherever fewer than `n` tokens are left, the faults of `p` come after the front of a phrase. -/
def Stops {α : Type} (p : Parse α) (Complete : List Token → Prop) (n : Nat) : Prop :=
  ∀ ⦃s s₁ : Stream⦄ ⦃fault : Fault⦄, s.IsSpelled → s.rest.length < n → p s = .error fault s₁ →
    StopsAt Complete s fault s₁

theorem Stops.mono {α : Type} {p : Parse α} {Complete : List Token → Prop} {m n : Nat} (h : Stops p Complete n)
    (hmn : m ≤ n) : Stops p Complete m :=
  fun _ _ _ hs hm => h hs (Nat.lt_of_lt_of_le hm hmn)

variable {α : Type} {s s₁ s₂ : Stream} {fault : Fault} {P Q : List Token → Prop} {u v w : List Token}

namespace StopsAt

/-- A fault after some tokens, which a list of fillers completes. -/
theorem of_fillers (kinds : List Kind) (hfault : s₁.HasFault fault) (hread : s.Reads u s₁)
    (hkinds : ∀ kind ∈ kinds, kind.isFree) (h : P (u ++ kinds.map Kind.filler)) : StopsAt P s fault s₁ := by
  refine ⟨hfault, u, _, hread, ?_, h⟩
  intro t ht
  obtain ⟨kind, hkind, rfl⟩ := List.mem_map.1 ht
  exact Kind.filler_isReadable (hkinds kind hkind)

/-- A fault within a part of a phrase, with what comes in front of the part and fillers after it. -/
theorem within (kinds : List Kind) (h : StopsAt P s₁ fault s₂) (hread : s.Reads u s₁)
    (hkinds : ∀ kind ∈ kinds, kind.isFree) (hPQ : ∀ w, P w → Q (u ++ (w ++ kinds.map Kind.filler))) :
    StopsAt Q s fault s₂ := by
  obtain ⟨v, w, hread', hw, hP⟩ := h.viable
  refine ⟨h.fault, u ++ v, w ++ kinds.map Kind.filler, hread.append hread', ?_, ?_⟩
  · refine List.forall_mem_append.2 ⟨hw, fun t ht => ?_⟩
    obtain ⟨kind, hkind, rfl⟩ := List.mem_map.1 ht
    exact Kind.filler_isReadable (hkinds kind hkind)
  · have hQ := hPQ _ hP
    rwa [List.append_assoc] at hQ ⊢

theorem imp (h : StopsAt P s fault s₁) (hPQ : ∀ w, P w → Q w) : StopsAt Q s fault s₁ := by
  obtain ⟨u, v, hread, hv, hP⟩ := h.viable
  exact ⟨h.fault, u, v, hread, hv, hPQ _ hP⟩

end StopsAt

theorem hasFault_of_expect {kind : Kind} (h : expect kind s = .error fault s₁) : s₁ = s ∧ s.HasFault fault := by
  rw [expect_apply] at h
  split at h
  · cases h
  · cases h
    exact ⟨rfl, rfl, by simp [unexpectedToken]⟩

theorem hasFault_of_expectWith {kind : Kind} {message : String}
    (h : expectWith kind message s = .error fault s₁) : s₁ = s ∧ s.HasFault fault := by
  rw [expectWith_apply] at h
  split at h
  · cases h
  · cases h
    exact ⟨rfl, rfl, by simp [misplaced]⟩

theorem hasFault_of_failWith {message : String} (h : (failWith message : Parse α) s = .error fault s₁) :
    s₁ = s ∧ s.HasFault fault := by
  rw [failWith_apply] at h
  cases h
  exact ⟨rfl, rfl, by simp [misplaced]⟩

theorem hasFault_of_operandOf (h : operandOf s.current = .error fault) : s.HasFault fault := by
  unfold operandOf at h
  split at h <;> (try split at h) <;> cases h <;> exact ⟨rfl, by simp [unexpectedToken]⟩

section Expressions

variable {inner : Parse Expr} {l e : Expr} {p : Power} {n : Nat}

theorem factor_filler : Factor [(Kind.flag true).filler] (.literal (.flag true) .plain) := .flag rfl

theorem phrase_of_factor (p : Power) (h : Factor w e) : Phrase p w e :=
  phrase_iff.2 ⟨w, [], e, (List.append_nil w).symm, h, .nil p e⟩

theorem stopsAt_grouping (hinner : Stops inner (fun w => ∃ e, Expression w e) s.rest.length)
    (hsound : ReadsExpression inner) (hs : s.IsSpelled) (hkind : s.current.kind = .openParen)
    (h : grouping inner s = .error fault s₁) : StopsAt (fun w => ∃ e, Factor w e) s fault s₁ := by
  unfold grouping at h
  rw [bind_of_ok (advance_apply s)] at h
  have hstart := Stream.Reads.current_of_kind hs hkind rfl
  have hs₀ := hstart.isSpelled hs
  have hlength := hstart.length_one
  rcases bind_eq_error.1 h with h | ⟨e, s₂, he, h⟩
  · refine (hinner hs₀ (by omega) h).within [.closeParen] hstart (by decide) ?_
    rintro w ⟨e, hw⟩
    exact ⟨e, .group hkind hw rfl⟩
  · obtain ⟨w, hread, hw⟩ := hsound hs₀ he
    rcases bind_eq_error.1 h with h | ⟨t, s₃, -, h⟩
    · obtain ⟨rfl, hfault⟩ := hasFault_of_expect h
      exact .of_fillers [.closeParen] hfault (hstart.cons hread) (by decide) ⟨_, .group hkind hw rfl⟩
    · cases h

theorem stopsAt_operand (hinner : Stops inner (fun w => ∃ e, Expression w e) s.rest.length)
    (hsound : ReadsExpression inner) (hs : s.IsSpelled) (h : operand .standard inner s = .error fault s₁) :
    StopsAt (fun w => ∃ e, Factor w e) s fault s₁ := by
  unfold operand at h
  rw [bind_of_ok (currentKind_apply s)] at h
  cases hform : Table.standard.operand? s.current.kind with
  | none =>
    rw [hform] at h
    obtain ⟨rfl, hfault⟩ := hasFault_of_failWith h
    exact .of_fillers [.flag true] hfault (.nil _) (by decide) ⟨_, factor_filler⟩
  | some form =>
    rw [hform] at h
    cases form with
    | primary =>
      have hprimary : primary s = .error fault s₁ := h
      cases hoperand : operandOf s.current with
      | ok e =>
        rw [primary_of_ok hoperand] at hprimary
        cases hprimary
      | error fault' =>
        rw [primary_of_error hoperand] at hprimary
        cases hprimary
        exact .of_fillers [.flag true] (hasFault_of_operandOf hoperand) (.nil _) (by decide)
          ⟨_, factor_filler⟩
    | grouping => exact stopsAt_grouping hinner hsound hs (operand?_eq_grouping.1 hform) h

theorem error_of_binary {right : Parse Expr} {op : Operator} (hkind : s.current.kind = .operator op)
    (h : binary l right s = .error fault s₁) : right s.advance = .error fault s₁ := by
  unfold binary at h
  rw [bind_of_ok (advance_apply s), hkind] at h
  rcases bind_eq_error.1 h with h | ⟨r, s₂, -, h⟩
  · exact h
  · cases h

/-- A tail that begins with the current token. -/
def TailFrom (p : Power) (l : Expr) (t : Token) (w : List Token) : Prop :=
  w.head? = some t ∧ ∃ e, Tail p l w e

theorem Tail.of_head {t : Token} {op : Operator} {r : Expr} (ht : t.kind = .operator op)
    (hp : p.rank < (powerOf op).rank) (h : Phrase (powerOf op) v r)
    (hw : ∀ t ∈ w, t.Fits ∧ t.kind ≠ .endOfInput) (hends : ∀ t ∈ w.head?, (powerOf op).Ends t.kind)
    (htail : Tail p (.operation op l r .plain) w e) : Tail p l (t :: v ++ w) e := by
  have hread : Stream.Reads ⟨w, .endOfInput "" 0⟩ w ⟨[], .endOfInput "" 0⟩ :=
    ⟨by rw [List.append_nil], fun t ht => (hw t ht).1, fun t ht => (hw t ht).2⟩
  refine .cons ht hp h hread ?_ htail
  cases w with
  | nil => exact Power.ends_of_ne (by simp [Stream.current, Token.endOfInput])
  | cons t' w => exact hends t' rfl

mutual

theorem expressionWithin_stops : (n : Nat) → (p : Power) →
    Stops (expressionWithin .standard n p) (fun w => ∃ e, Phrase p w e) n
  | 0, p => fun _ _ _ _ hn _ => absurd hn (Nat.not_lt_zero _)
  | n + 1, p => by
    intro s s₁ fault hs hn h
    rw [expressionWithin] at h
    have hsound : ReadsExpression (expressionWithin .standard n .default) := readsExpression n
    rcases bind_eq_error.1 h with h | ⟨left, s₂, hleft, h⟩
    · have hinner : Stops (expressionWithin .standard n .default) (fun w => ∃ e, Expression w e) s.rest.length :=
        fun _ _ _ hs hlength h => expressionWithin_stops n .default hs (by omega) h
      refine (stopsAt_operand hinner hsound hs h).imp ?_
      rintro w ⟨e, hw⟩
      exact ⟨e, phrase_of_factor p hw⟩
    · obtain ⟨v, hread, hfactor⟩ := operand_sound hsound hs hleft
      have hlength := hread.length_eq
      have hpos := hfactor.length_pos
      refine (extendWithin_stops n p left (hread.isSpelled hs) (by omega) h).within [] hread (by simp) ?_
      rintro w ⟨-, e, hw⟩
      refine ⟨e, phrase_iff.2 ⟨v, w ++ [], _, rfl, hfactor, ?_⟩⟩
      rwa [List.append_nil]

theorem extendWithin_stops : (n : Nat) → (p : Power) → (l : Expr) → ⦃s s₁ : Stream⦄ → ⦃fault : Fault⦄ →
    s.IsSpelled → s.rest.length < n → extendWithin .standard n p l s = .error fault s₁ →
    StopsAt (TailFrom p l.withoutSpans s.current) s fault s₁
  | 0, p, l => fun _ _ _ _ hn _ => absurd hn (Nat.not_lt_zero _)
  | n + 1, p, l => by
    intro s s₁ fault hs hn h
    rcases p.ends_or_operator s.current.kind with hends | ⟨op, hkind, hp⟩
    · rw [extendWithin_of_ends l hends] at h
      cases h
    · rw [extendWithin_of_operator l hkind hp] at h
      have hmark := Stream.Reads.current_of_kind hs hkind rfl
      have hs₀ := hmark.isSpelled hs
      have hlength := hmark.length_one
      rcases bind_eq_error.1 h with h | ⟨e, s₂, hbinary, h⟩
      · have hright := expressionWithin_stops n (powerOf op) hs₀ (by omega) (error_of_binary hkind h)
        refine hright.within [] hmark (by simp) ?_
        rintro w ⟨r, hw⟩
        have hall : Tail p l.withoutSpans (s.current :: w ++ []) _ :=
          .of_head hkind hp hw (by simp) (by simp) (.nil p _)
        exact ⟨rfl, _, hall⟩
      · obtain ⟨r, hr, he⟩ := binary_sound hkind hbinary
        obtain ⟨v, hreadv, hv, hends⟩ := expressionWithin_sound n hs₀ hr
        have hlength' := hreadv.length_eq
        have hmore := extendWithin_stops n p e (hreadv.isSpelled hs₀) (by omega) h
        obtain ⟨u, w, hread, hw, hhead, e', htail⟩ := hmore.viable
        rw [he] at htail
        have hfits : ∀ t ∈ u ++ w, t.Fits ∧ t.kind ≠ .endOfInput := by
          refine List.forall_mem_append.2 ⟨fun t ht => ⟨hread.fits t ht, hread.ne_end t ht⟩, fun t ht => ?_⟩
          exact ⟨(hw t ht).2, (hw t ht).1.kind_ne_endOfInput⟩
        -- the rest of the tail begins with the token before which the operand has ended
        have hends' : ∀ t ∈ (u ++ w).head?, (powerOf op).Ends t.kind := by
          intro t ht
          rw [hhead] at ht
          exact Option.some.inj ht ▸ hends
        refine ⟨hmore.fault, _, w, hmark.cons (hreadv.append hread), hw, rfl, e', ?_⟩
        have hall := Tail.of_head hkind hp hv hfits hends' htail
        rwa [List.cons_append, ← List.append_assoc] at hall

end

end Expressions

section Statements

variable {value : Parse Expr} {body : Parse (List Stmt)} {left right : Kind} {n : Nat}

/-- An expression between two marks. -/
def Enclosed (left right : Kind) (w : List Token) : Prop :=
  ∃ mark v e stop, w = mark :: v ++ [stop] ∧ mark.kind = left ∧ Expression v e ∧ stop.kind = right

theorem enclosed_filler (left right : Kind) : Enclosed left right ([left, .flag true, right].map Kind.filler) :=
  ⟨left.filler, [(Kind.flag true).filler], _, right.filler, rfl, rfl, phrase_of_factor .default factor_filler, rfl⟩

/-- A fault in an expression between two marks, or after them. -/
theorem stopsAt_enclosed {first : Parse Token} {k : Expr → Token → Parse α}
    (hfirst : ∀ {t s₁}, first s = .ok t s₁ → s.current.kind = left ∧ s.current = t ∧ s.advance = s₁)
    (hfault : ∀ {fault s₁}, first s = .error fault s₁ → s₁ = s ∧ s.HasFault fault)
    (hleft : left.isFree) (hright : right.isFree)
    (hvalue : Stops value (fun w => ∃ e, Expression w e) s.rest.length) (hsound : ReadsExpression value)
    (hs : s.IsSpelled)
    (h : (do let _ ← first; let e ← value; let stop ← expect right; k e stop) s = .error fault s₁) :
    StopsAt (Enclosed left right) s fault s₁ ∨ ∃ w e stop s₂, s.Reads w s₂ ∧ s₂.rest.length < s.rest.length ∧
      Enclosed left right w ∧ k e stop s₂ = .error fault s₁ := by
  rcases bind_eq_error.1 h with h | ⟨mark, s₂, hmark, h⟩
  · obtain ⟨rfl, hfault⟩ := hfault h
    have hkinds : ∀ kind ∈ [left, .flag true, right], kind.isFree := by simpa using ⟨hleft, rfl, hright⟩
    exact .inl (.of_fillers _ hfault (.nil _) hkinds (enclosed_filler left right))
  · obtain ⟨hkind, rfl, rfl⟩ := hfirst hmark
    have hread := Stream.Reads.current_of_kind hs hkind (Kind.isFixed_of_isFree hleft)
    have hs₀ := hread.isSpelled hs
    have hlength := hread.length_one
    rcases bind_eq_error.1 h with h | ⟨e, s₃, he, h⟩
    · refine .inl ((hvalue hs₀ (by omega) h).within [right] hread (by simpa using hright) ?_)
      rintro v ⟨e, hv⟩
      exact ⟨_, v, e, right.filler, rfl, hkind, hv, rfl⟩
    · obtain ⟨v, hreadv, hv⟩ := hsound hs₀ he
      have hlength' := hreadv.length_eq
      rcases bind_eq_error.1 h with h | ⟨stop, s₄, hstop, h⟩
      · obtain ⟨rfl, hfault⟩ := hasFault_of_expect h
        refine .inl (.of_fillers [right] hfault (hread.cons hreadv) (by simpa using hright) ?_)
        exact ⟨_, v, _, right.filler, rfl, hkind, hv, rfl⟩
      · obtain ⟨hkind', rfl, rfl⟩ := expect_eq_ok.1 hstop
        have hread' := Stream.Reads.current_of_kind (hreadv.isSpelled hs₀) hkind' (Kind.isFixed_of_isFree hright)
        have hlength'' := hread'.length_one
        exact .inr ⟨_, e, _, _, hread.cons (hreadv.append hread'), by omega, ⟨_, v, _, _, rfl, hkind, hv, hkind'⟩, h⟩

theorem Assignment.of_enclosed {t : Token} (ht : t.kind = .name) (h : Enclosed .assign .semicolon w) :
    ∃ st, Assignment (t :: w) st := by
  obtain ⟨mark, v, e, stop, rfl, hmark, hv, hstop⟩ := h
  exact ⟨_, .mk ht hmark hv hstop⟩

theorem Declaration.of_enclosed {t : Token} (ht : t.kind = .word) (h : Enclosed .colon .semicolon w) :
    ∃ st, Declaration (t :: w) st := by
  obtain ⟨mark, v, e, stop, rfl, hmark, hv, hstop⟩ := h
  exact ⟨_, .mk ht hmark hv hstop⟩

theorem Clause.of_enclosed {t : Token} {ss : List Stmt} (ht : t.kind = .ifWord)
    (h : Enclosed .openBracket .closeBracket v) (hbody : Body w ss) : ∃ st, Clause (t :: v ++ w) st := by
  obtain ⟨mark, v, e, stop, rfl, hmark, hv, hstop⟩ := h
  refine ⟨.ifClause e ss .plain, ?_⟩
  rw [List.cons_append, List.append_assoc]
  exact .mk ht hmark hv hstop hbody

theorem body_filler : Body ([.openCurly, .closeCurly].map Kind.filler) [] := .mk rfl .nil rfl

theorem item_filler : ∃ st, Item ([.name, .assign, .flag true, .semicolon].map Kind.filler) st := by
  have hname : Kind.name.filler.kind = .name := rfl
  obtain ⟨st, h⟩ := Assignment.of_enclosed hname (enclosed_filler .assign .semicolon)
  exact ⟨st, .assignment h⟩

/-- A fault in a statement that is a token, an expression between a mark and a semicolon, and no more. -/
theorem stopsAt_marked {first : Parse Token} {make : Token → Expr → Token → Stmt}
    (hfirst : ∀ {s s₁ t}, first s = .ok t s₁ → s.current.kind = left ∧ s.current = t ∧ s.advance = s₁)
    (hfault : ∀ {s s₁ fault}, first s = .error fault s₁ → s₁ = s ∧ s.HasFault fault) (hleft : left.isFree)
    (hvalue : Stops value (fun w => ∃ e, Expression w e) s.rest.length) (hsound : ReadsExpression value)
    (hs : s.IsSpelled) (hfixed : s.current.kind.isFixed)
    (hitem : ∀ w, Enclosed left .semicolon w → ∃ st, Item (s.current :: w) st)
    (h : (do
      let t ← advance
      let _ ← first
      let e ← value
      let stop ← expect .semicolon
      return make t e stop) s = .error fault s₁) : StopsAt (fun w => ∃ st, Item w st) s fault s₁ := by
  rw [bind_of_ok (advance_apply s)] at h
  have hread := Stream.Reads.current_of_kind hs rfl hfixed
  have hlength := hread.length_one
  rcases stopsAt_enclosed hfirst hfault hleft rfl (hvalue.mono (by omega)) hsound (hread.isSpelled hs) h with
    hstops | ⟨w, e, stop, s₂, -, -, -, h⟩
  · refine hstops.within [] hread (List.forall_mem_nil _) ?_
    intro w hw
    rw [List.map_nil, List.append_nil]
    exact hitem w hw
  · cases h

theorem stopsAt_assignment (hvalue : Stops value (fun w => ∃ e, Expression w e) s.rest.length)
    (hsound : ReadsExpression value) (hs : s.IsSpelled) (hkind : s.current.kind = .name)
    (h : assignment value s = .error fault s₁) : StopsAt (fun w => ∃ st, Item w st) s fault s₁ := by
  refine stopsAt_marked expectWith_eq_ok.1 hasFault_of_expectWith rfl hvalue hsound hs (by rw [hkind]; rfl) ?_ h
  intro w hw
  obtain ⟨st, hst⟩ := Assignment.of_enclosed hkind hw
  exact ⟨st, .assignment hst⟩

theorem stopsAt_declaration (hvalue : Stops value (fun w => ∃ e, Expression w e) s.rest.length)
    (hsound : ReadsExpression value) (hs : s.IsSpelled) (hkind : s.current.kind = .word)
    (h : declaration value s = .error fault s₁) : StopsAt (fun w => ∃ st, Item w st) s fault s₁ := by
  refine stopsAt_marked expect_eq_ok.1 hasFault_of_expect rfl hvalue hsound hs (by rw [hkind]; rfl) ?_ h
  intro w hw
  obtain ⟨st, hst⟩ := Declaration.of_enclosed hkind hw
  exact ⟨st, .declaration hst⟩

theorem exists_selectorOf? {t : Token}
    (h : t.kind = .word ∨ t.kind = .className ∨ t.kind = .idName ∨ t.kind = .color) :
    ∃ selector, selectorOf? t = some selector := by
  unfold selectorOf?
  rcases h with h | h | h | h <;> rw [h] <;> exact ⟨_, rfl⟩

theorem stopsAt_rule (hbody : Stops body (fun w => ∃ ss, Body w ss) s.rest.length) (hs : s.IsSpelled)
    (hkind : s.current.kind = .word ∨ s.current.kind = .className ∨ s.current.kind = .idName ∨
      s.current.kind = .color)
    (h : rule body s = .error fault s₁) : StopsAt (fun w => ∃ st, Item w st) s fault s₁ := by
  unfold rule at h
  rw [bind_of_ok (advance_apply s)] at h
  obtain ⟨selector, hselector⟩ := exists_selectorOf? hkind
  obtain ⟨hfixed, hselects⟩ := selectorOf?_sound hs.current hselector
  have hread := Stream.Reads.current_of_kind hs rfl hfixed
  have hlength := hread.length_one
  rw [hselector] at h
  rcases bind_eq_error.1 h with h | ⟨ss, s₂, -, h⟩
  · refine (hbody (hread.isSpelled hs) (by omega) h).within [] hread (List.forall_mem_nil _) ?_
    rintro w ⟨ss, hw⟩
    rw [List.map_nil, List.append_nil]
    exact ⟨_, .rule (.mk hselects hw)⟩
  · cases h

theorem stopsAt_ifClause (hvalue : Stops value (fun w => ∃ e, Expression w e) s.rest.length)
    (hsound : ReadsExpression value) (hbody : Stops body (fun w => ∃ ss, Body w ss) s.rest.length)
    (hs : s.IsSpelled) (hkind : s.current.kind = .ifWord) (h : ifClause value body s = .error fault s₁) :
    StopsAt (fun w => ∃ st, Item w st) s fault s₁ := by
  unfold ifClause at h
  rw [bind_of_ok (advance_apply s)] at h
  have hstart := Stream.Reads.current_of_kind hs hkind rfl
  have hs₀ := hstart.isSpelled hs
  have hlength := hstart.length_one
  rcases stopsAt_enclosed expectWith_eq_ok.1 hasFault_of_expectWith rfl rfl (hvalue.mono (by omega)) hsound hs₀ h with
    hstops | ⟨v, c, stop, s₂, hread, hlength', hv, h⟩
  · refine hstops.within [.openCurly, .closeCurly] hstart (by decide) ?_
    intro v hv
    obtain ⟨st, hst⟩ := Clause.of_enclosed hkind hv body_filler
    exact ⟨st, .clause hst⟩
  · rcases bind_eq_error.1 h with h | ⟨ss, s₃, -, h⟩
    · refine (hbody (hread.isSpelled hs₀) (by omega) h).within [] (hstart.cons hread) (List.forall_mem_nil _) ?_
      rintro w ⟨ss, hw⟩
      obtain ⟨st, hst⟩ := Clause.of_enclosed hkind hv hw
      rw [List.map_nil, List.append_nil]
      exact ⟨st, .clause hst⟩
    · cases h

theorem stopsAt_statementOf {form : StmtForm} (hvalue : Stops value (fun w => ∃ e, Expression w e) s.rest.length)
    (hsound : ReadsExpression value) (hbody : Stops body (fun w => ∃ ss, Body w ss) s.rest.length)
    (hs : s.IsSpelled) (hform : Table.standard.stmt? s.current.kind = some form)
    (h : statementOf value body form s = .error fault s₁) : StopsAt (fun w => ∃ st, Item w st) s fault s₁ := by
  have hkind := stmt?_eq_some hform
  cases form with
  | assignment => exact stopsAt_assignment hvalue hsound hs hkind h
  | word =>
    rw [statementOf, wordStatement, bind_of_ok (get_apply s)] at h
    split at h
    · exact stopsAt_declaration hvalue hsound hs hkind h
    · exact stopsAt_rule hbody hs (.inl hkind) h
  | declaration => exact hkind.elim
  | rule => exact stopsAt_rule hbody hs (.inr hkind) h
  | ifClause => exact stopsAt_ifClause hvalue hsound hbody hs hkind h

mutual

theorem statementWithin_stops : (n : Nat) → ⦃s s₁ : Stream⦄ → ⦃fault : Fault⦄ → s.IsSpelled →
    2 * s.rest.length < n → statementWithin .standard n s = .error fault s₁ →
    StopsAt (fun w => ∃ st, Item w st) s fault s₁
  | 0 => fun _ _ _ _ hn _ => absurd hn (Nat.not_lt_zero _)
  | n + 1 => by
    intro s s₁ fault hs hn h
    rw [statementWithin, bind_of_ok (currentKind_apply s)] at h
    cases hform : Table.standard.stmt? s.current.kind with
    | none =>
      rw [hform] at h
      obtain ⟨rfl, hfault⟩ := hasFault_of_failWith h
      exact .of_fillers [.name, .assign, .flag true, .semicolon] hfault (.nil _) (by decide) item_filler
    | some form =>
      rw [hform] at h
      have hvalue : Stops (expressionWithin .standard n .default) (fun w => ∃ e, Expression w e) s.rest.length :=
        fun _ _ _ hs hlength h => expressionWithin_stops n .default hs (by omega) h
      have hbody : Stops (bodyWithin .standard n) (fun w => ∃ ss, Body w ss) s.rest.length :=
        fun _ _ _ hs hlength h => bodyWithin_stops n hs (by omega) h
      exact stopsAt_statementOf hvalue (readsExpression n) hbody hs hform h

theorem bodyWithin_stops : (n : Nat) → ⦃s s₁ : Stream⦄ → ⦃fault : Fault⦄ → s.IsSpelled →
    2 * s.rest.length < n → bodyWithin .standard n s = .error fault s₁ →
    StopsAt (fun w => ∃ ss, Body w ss) s fault s₁
  | 0 => fun _ _ _ _ hn _ => absurd hn (Nat.not_lt_zero _)
  | n + 1 => by
    intro s s₁ fault hs hn h
    rw [bodyWithin] at h
    rcases bind_eq_error.1 h with h | ⟨start, s₂, hstart, h⟩
    · obtain ⟨rfl, hfault⟩ := hasFault_of_expect h
      exact .of_fillers [.openCurly, .closeCurly] hfault (.nil _) (by decide) ⟨_, body_filler⟩
    · obtain ⟨hkind, rfl, rfl⟩ := expect_eq_ok.1 hstart
      have hread := Stream.Reads.current_of_kind hs hkind rfl
      have hs₀ := hread.isSpelled hs
      have hlength := hread.length_one
      rcases bind_eq_error.1 h with h | ⟨ss, s₃, hss, h⟩
      · refine (statementsWithin_stops n hs₀ (by omega) h).within [.closeCurly] hread (by decide) ?_
        rintro w ⟨ss, hw⟩
        exact ⟨ss, .mk hkind hw rfl⟩
      · obtain ⟨w, hreadw, hw⟩ := statementsWithin_sound n hs₀ hss
        rcases bind_eq_error.1 h with h | ⟨stop, s₄, -, h⟩
        · obtain ⟨rfl, hfault⟩ := hasFault_of_expect h
          exact .of_fillers [.closeCurly] hfault (hread.cons hreadw) (by decide) ⟨_, .mk hkind hw rfl⟩
        · cases h

theorem statementsWithin_stops : (n : Nat) → ⦃s s₁ : Stream⦄ → ⦃fault : Fault⦄ → s.IsSpelled →
    2 * s.rest.length + 1 < n → statementsWithin .standard n s = .error fault s₁ →
    StopsAt (fun w => ∃ ss, Items w ss) s fault s₁
  | 0 => fun _ _ _ _ hn _ => absurd hn (Nat.not_lt_zero _)
  | n + 1 => by
    intro s s₁ fault hs hn h
    by_cases hclose : s.current.kind = .closeCurly
    · rw [statementsWithin_of_closeCurly n hclose] at h
      cases h
    · by_cases hend : s.current.kind = .endOfInput
      · rw [statementsWithin_of_endOfInput n hend] at h
        obtain ⟨rfl, hfault⟩ := hasFault_of_failWith h
        exact .of_fillers [] hfault (.nil _) (List.forall_mem_nil _) ⟨_, .nil⟩
      · rw [statementsWithin_of_ne n hclose hend] at h
        rcases bind_eq_error.1 h with h | ⟨st, s₂, hst, h⟩
        · refine (statementWithin_stops n hs (by omega) h).imp ?_
          rintro w ⟨st, hw⟩
          rw [← List.append_nil w]
          exact ⟨[st], .cons hw .nil⟩
        · obtain ⟨v, hreadv, hv⟩ := statementWithin_sound n hs hst
          have hlength := hreadv.length_eq
          have hpos := hv.length_pos
          rcases bind_eq_error.1 h with h | ⟨ss, s₃, -, h⟩
          · refine (statementsWithin_stops n (hreadv.isSpelled hs) (by omega) h).within [] hreadv (List.forall_mem_nil _) ?_
            rintro w ⟨ss, hw⟩
            rw [List.map_nil, List.append_nil]
            exact ⟨_, .cons hv hw⟩
          · cases h

end

end Statements

end Grammar

end TypedCss
