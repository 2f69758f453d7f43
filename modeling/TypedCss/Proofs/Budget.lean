import TypedCss.Proofs.Calls
import TypedCss.Proofs.CorrectPrefix
import TypedCss.Proofs.Progress

/-!
# Enough rounds

A call with more rounds than it needs for the tokens that are left gives enough of them to each call that it makes.
So a token list that ends the input is read without running out of rounds: every call begins and ends within the
list, and a statement, a body and an expression take a token at least.
-/

namespace TypedCss.Grammar

open Parse

/-- How many rounds the reader needs when so many tokens are left. -/
def Reader.need (length : Nat) : Reader → Nat
  | expression _ | operators _ _ => length
  | statement | body => 2 * length
  | statements | topStatements => 2 * length + 1

/-- How many tokens the reader takes at least. -/
def Reader.least : Reader → Nat
  | expression _ | statement | body => 1
  | operators _ _ | statements | topStatements => 0

/-- The call begins within a token list that ends the input, with more rounds than it needs. -/
structure Call.IsFunded (c : Call) : Prop where
  terminated : c.start.IsTerminated
  rounds : c.reader.need c.start.rest.length < c.rounds

theorem ProgressesAt.only {α : Type} {p : Parse α} {k : Nat} {s : Stream} (hs : s.IsTerminated)
    (h : ProgressesAt k p s) : ProgressesAt k (only p) s :=
  .bind hs h fun hs _ => .pure hs ()

theorem Call.IsFunded.progressesAt {c : Call} (hc : c.IsFunded) :
    ProgressesAt c.reader.least (c.reader.parse c.rounds) c.start := by
  obtain ⟨reader, n, s⟩ := c
  obtain ⟨hs, hn⟩ := hc
  cases reader with
  | expression power => exact .only hs (expressionWithin_progresses n power hs hn)
  | operators power left => exact .only hs (extendWithin_progresses n power left hs hn)
  | statement => exact .only hs (statementWithin_progresses n hs hn)
  | body => exact .only hs (bodyWithin_progresses n hs hn)
  | statements => exact .only hs (statementsWithin_progresses n hs hn)
  | topStatements => exact .only hs (topStatementsWithin_progresses n hs hn)

section

variable {reader reader' : Reader} {n n' : Nat} {s s' : Stream}

theorem leadsTo_advance_of_kind {kind : Kind} (hs : s.IsTerminated) (h : s.current.kind = kind)
    (hkind : kind ≠ .endOfInput) : s.LeadsTo 1 s.advance :=
  hs.leadsTo_advance (h ▸ hkind)

/-- What a call reads before it makes another is as much as the rounds that the other needs less. -/
theorem Calls.exists_leadsTo (h : Calls ⟨reader, n, s⟩ ⟨reader', n', s'⟩) (hs : s.IsTerminated)
    (hn : reader.need s.rest.length < n) :
    ∃ k, s.LeadsTo k s' ∧ ∀ length, length + k ≤ s.rest.length → reader'.need length < n' := by
  cases h with
  | grouped hkind =>
    refine ⟨1, leadsTo_advance_of_kind hs hkind (by simp), fun length hlength => ?_⟩
    simp only [Reader.need] at hn ⊢
    omega
  | operators hoperand =>
    simp only [Reader.need] at hn
    have hinner := (expressionWithin_progresses n' .default).mono (Nat.le_of_lt_succ hn)
    refine ⟨1, (operand_progresses hinner hs).ok hoperand, fun length hlength => ?_⟩
    simp only [Reader.need]
    omega
  | right hkind hp =>
    refine ⟨1, leadsTo_advance_of_kind hs hkind (by simp), fun length hlength => ?_⟩
    simp only [Reader.need] at hn ⊢
    omega
  | @moreOperators _ power left op e _ _ hkind hp hbinary =>
    simp only [Reader.need] at hn
    have hinner := (expressionWithin_progresses n' (powerOf op)).mono (Nat.le_of_lt_succ hn)
    refine ⟨1, (binary_progresses left hinner hs (by rw [hkind]; simp)).ok hbinary, fun length hlength => ?_⟩
    simp only [Reader.need]
    omega
  | @value _ form _ hform hmark =>
    have hread := hs.leadsTo_advance (kind_ne_of_form? hform)
    have hne : s.advance.current.kind ≠ .endOfInput := by
      intro hend
      rw [hend] at hmark
      cases form <;> cases hmark
    refine ⟨2, hread.trans ((hread.isTerminated hs).leadsTo_advance hne), fun length hlength => ?_⟩
    simp only [Reader.need] at hn ⊢
    omega
  | ruleBody hform hselector =>
    refine ⟨1, hs.leadsTo_advance (kind_ne_of_form? hform), fun length hlength => ?_⟩
    simp only [Reader.need] at hn ⊢
    omega
  | clauseBody hform hopen hc hclose =>
    simp only [Reader.need] at hn
    have hread₁ := hs.leadsTo_advance (kind_ne_of_form? hform)
    have hread₂ := hread₁.trans (leadsTo_advance_of_kind (hread₁.isTerminated hs) hopen (by simp))
    have hlength₂ := hread₂.length_le
    have hcondition := expressionWithin_progresses n' .default (hread₂.isTerminated hs) (by omega)
    have hread₃ := hread₂.trans (hcondition.ok hc)
    have hread₄ := hread₃.trans (leadsTo_advance_of_kind (hread₃.isTerminated hs) hclose (by simp))
    refine ⟨_, hread₄, fun length hlength => ?_⟩
    simp only [Reader.need]
    omega
  | statements hkind =>
    refine ⟨1, leadsTo_advance_of_kind hs hkind (by simp), fun length hlength => ?_⟩
    simp only [Reader.need] at hn ⊢
    omega
  | statement hclose hend | topStatement hend =>
    refine ⟨0, hs.leadsTo_self, fun length hlength => ?_⟩
    simp only [Reader.need] at hn ⊢
    omega
  | moreStatements hclose hend hst =>
    simp only [Reader.need] at hn
    refine ⟨1, (statementWithin_progresses n' hs (by omega)).ok hst, fun length hlength => ?_⟩
    simp only [Reader.need]
    omega
  | moreTopStatements hend hst =>
    simp only [Reader.need] at hn
    have hstatement := statementWithin_progresses n' hs (by omega)
    refine ⟨1, (topStatement_progresses hs hstatement).ok hst, fun length hlength => ?_⟩
    simp only [Reader.need]
    omega

end

/-- A call that has more rounds than it needs leaves enough of them to each call that it makes. -/
theorem Calls.isFunded {c c' : Call} (h : Calls c c') (hc : c.IsFunded) :
    c'.IsFunded ∧ c.start.LeadsTo 0 c'.start := by
  obtain ⟨k, hread, hneed⟩ := h.exists_leadsTo hc.terminated hc.rounds
  exact ⟨⟨hread.isTerminated hc.terminated, hneed _ hread.length_le⟩, hread.mono (Nat.zero_le k)⟩

theorem Makes.isFunded {c c' : Call} (h : Makes c c') (hc : c.IsFunded) :
    c'.IsFunded ∧ c.start.LeadsTo 0 c'.start := by
  induction h with
  | refl => exact ⟨hc, hc.terminated.leadsTo_self⟩
  | tail _ hcall ih =>
    obtain ⟨hfunded, hread⟩ := ih
    obtain ⟨hfunded', hread'⟩ := hcall.isFunded hfunded
    exact ⟨hfunded', hread.trans hread'⟩

namespace Stream

variable {file : String} {ts : List Token} {last : Token}

theorem isTerminated_ofTokens (h : ts.getLast? = some last) (hend : last.kind = .endOfInput) :
    (ofTokens file ts).IsTerminated := ⟨last, h, hend⟩

theorem isClosed_ofTokens (h : ts.getLast? = some last) (hend : last.kind = .endOfInput) :
    (ofTokens file ts).IsClosed := by
  rw [IsClosed, ofTokens, List.getLastD_eq_getLast?, h]
  exact hend

end Stream

/-- The call begins and ends within what is left of `s`, takes the tokens that it must, and has rounds left. -/
structure Call.ProgressesWithin (s : Stream) (c : Call) : Prop where
  rounds : 0 < c.rounds
  start : s.LeadsTo 0 c.start
  ok : ∀ {u s'}, c.run = .ok u s' → c.start.LeadsTo c.reader.least s'
  error : ∀ {fault s'}, c.run = .error fault s' → c.start.LeadsTo 0 s' ∧ fault.cause ≠ .runaway

theorem Call.IsFunded.not_runaway {c : Call} {fault : Fault} {s' : Stream} (hc : c.IsFunded)
    (h : c.run = .error fault s') : fault.cause ≠ .runaway := by
  intro hcause
  obtain ⟨c', hmakes, hc'⟩ := runs_out_iff.1 ⟨fault, s', h, hcause⟩
  have hrounds := (hmakes.isFunded hc).1.rounds
  rw [hc'] at hrounds
  exact Nat.not_lt_zero _ hrounds

theorem Call.IsFunded.progressesWithin {c c' : Call} (hc : c.IsFunded) (h : Makes c c') :
    c'.ProgressesWithin c.start := by
  obtain ⟨hc', hstart⟩ := h.isFunded hc
  exact ⟨Nat.zero_lt_of_lt hc'.rounds, hstart, hc'.progressesAt.ok,
    fun hfault => ⟨hc'.progressesAt.error hfault, hc'.not_runaway hfault⟩⟩

section

variable {α : Type} {s : Stream}

theorem stylesheet_progressesAt (file : String) (hs : s.IsTerminated) :
    ProgressesAt 0 (stylesheet .standard file) s := by
  refine .peek (get_apply s) (.bind hs (topStatementsWithin_progresses _ hs ?_) fun {_ s'} hs' _ => ?_)
  · exact Nat.add_lt_add_left (by decide) _
  · exact .peek (position_apply s') (.pure hs' _)

theorem ProgressesAt.leadsTo_outcome {p : Parse α} (h : ProgressesAt 0 p s) : s.LeadsTo 0 (p.outcome s).2 := by
  unfold outcome EStateM.run
  split
  · exact h.ok ‹_›
  · exact h.error ‹_›

end

/-- Whatever comes before the last token: with more than `2 * ts.length + 1` rounds, reading ends in the same way for any
number of them and never for want of rounds, stays within the tokens, and each call that is made in it progresses. -/
theorem parsing_always_progresses {file : String} {ts : List Token} {last : Token} {n : Nat}
    (hlast : ts.getLast? = some last) (hend : last.kind = .endOfInput) (hn : 2 * ts.length + 1 < n) :
    let s := Stream.ofTokens file ts
    topStatementsWithin .standard n s = topStatementsWithin .standard s.budget s ∧
      (∀ fault, Stylesheet.ofTokens file ts = .error fault → fault.cause ≠ .runaway) ∧
      s.LeadsTo 0 ((stylesheet .standard file).outcome s).2 ∧
      ∀ c, Makes ⟨.topStatements, n, s⟩ c → c.ProgressesWithin s := by
  intro s
  have hs : s.IsTerminated := Stream.isTerminated_ofTokens hlast hend
  have hclosed : s.IsClosed := Stream.isClosed_ofTokens hlast hend
  have hfunded : ∀ {n}, 2 * ts.length + 1 < n → Call.IsFunded ⟨.topStatements, n, s⟩ := fun hn => ⟨hs, hn⟩
  have hbudget : 2 * ts.length + 1 < s.budget := Nat.add_lt_add_left (by decide) _
  have hnever : ∀ {n fault s'}, 2 * ts.length + 1 < n → topStatementsWithin .standard n s = .error fault s' →
      fault.cause ≠ .runaway := fun hn h => (hfunded hn).not_runaway (only_eq_error.2 h)
  refine ⟨?_, fun fault h => ?_, (stylesheet_progressesAt file hs).leadsTo_outcome, fun c hc => ?_⟩
  · rcases Nat.le_total n s.budget with hle | hle
    · exact ((topStatementsWithin_persists n _ hle s hclosed).eq hclosed (hnever hn)).symm
    · exact (topStatementsWithin_persists _ n hle s hclosed).eq hclosed (hnever hbudget)
  · exact hnever hbudget (error_of_stylesheet (outcome_eq_error h))
  · exact (hfunded hn).progressesWithin hc

/-- An assignment, whose value is read by a call of its own, and a rule that meets an end of the input before the last
one. -/
theorem parsing_always_progresses_inner_end :
    let token (kind : Kind) (text : String) (offset : Nat) : Token := ⟨kind, text, .ofLength "b" offset 1⟩
    let ts := [token .name "X" 0, token .assign ":=" 1, token (.flag true) "TRUE" 3, token .semicolon ";" 7,
      token .word "a" 8, token .openCurly "\x7b" 9, .endOfInput "b" 10, .endOfInput "b" 10]
    let s := Stream.ofTokens "b" ts
    let sheet : Call := ⟨.topStatements, 18, s⟩
    let value : Call := ⟨.expression .default, 16, s.advance.advance⟩
    ts.getLast? = some (.endOfInput "b" 10) ∧ (Token.endOfInput "b" 10).kind = .endOfInput ∧
      2 * ts.length + 1 < 18 ∧
      Stylesheet.ofTokens "b" ts = .error ⟨.misplaced "EOF" "expected `\x7d` before end of file", ⟨10, "b"⟩⟩ ∧
      topStatementsWithin .standard 18 s = topStatementsWithin .standard s.budget s ∧
      s.LeadsTo 0 ((stylesheet .standard "b").outcome s).2 ∧
      Makes sheet value ∧ value.run = .ok () value.start.advance ∧ value.ProgressesWithin s := by
  intro token ts s sheet value
  have hn : 2 * ts.length + 1 < 18 := by decide
  obtain ⟨hsame, -, hend, hcalls⟩ := @parsing_always_progresses "b" ts (.endOfInput "b" 10) 18 rfl rfl hn
  have hmakes : Makes sheet value := .tail (.single (.topStatement (by decide))) (.value rfl rfl)
  exact ⟨rfl, rfl, hn, rfl, hsame, hend, hmakes, rfl, hcalls value hmakes⟩

end TypedCss.Grammar
