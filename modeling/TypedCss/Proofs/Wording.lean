import TypedCss.Proofs.Emission
import TypedCss.Proofs.Liveness
import TypedCss.Proofs.Recognition
import TypedCss.Proofs.Separation

/-!
# Words of the source

Selectors, properties and colors are texts of tokens. They are so in the stylesheet that is read from a source, and
they stay so when it is folded, because folding computes numbers only.
-/

namespace TypedCss

/-- The token has the text of a whole lexeme of its kind. -/
def Token.IsWord (t : Token) : Prop := t.kind.Writes t.text

theorem Token.isWord_of_scan {file : String} {n : Nat} {cs rest : List Char} {w : List Token}
    (h : scan file n cs = (w, rest)) : ∀ t ∈ w, t.IsWord := by
  intro t ht
  rw [← show (scan file n cs).1 = w by rw [h]] at ht
  exact Kind.Writes.of_mem_scan ht

/-- The selector is one that a token stands for. -/
def Selector.IsWorded (s : Selector) : Prop := ∃ t : Token, t.IsWord ∧ Grammar.Selects t s

def Value.IsWorded : Value → Prop
  | color text => Kind.color.Writes text
  | _ => True

def Expr.IsWorded : Expr → Prop
  | literal v _ => v.IsWorded
  | reference .. => True
  | operation _ l r _ => l.IsWorded ∧ r.IsWorded

namespace Stmt

mutual

/-- All selectors, properties and colors in the statement are texts of tokens. -/
def IsWorded : Stmt → Prop
  | assignment _ e _ => e.IsWorded
  | declaration p e _ => Kind.word.Writes p ∧ e.IsWorded
  | rule s body _ => s.IsWorded ∧ AllWorded body
  | ifClause c body _ => c.IsWorded ∧ AllWorded body

def AllWorded : List Stmt → Prop
  | [] => True
  | s :: ss => s.IsWorded ∧ AllWorded ss

end

end Stmt

namespace Grammar

/-- Trees of single tokens that satisfy `Q` have the property `P`, and operations keep it. -/
structure Keeps (Q : Token → Prop) (P : Expr → Prop) : Prop where
  number : ∀ {t m}, Q t → t.kind = .number m → P (.literal (.number m (Int32.ofNat t.number)) .plain)
  color : ∀ {t}, Q t → t.kind = .color → P (.literal (.color t.text) .plain)
  flag : ∀ {b}, P (.literal (.flag b) .plain)
  name : ∀ {t}, Q t → t.kind = .name → P (.reference t.text .plain)
  operation : ∀ {op l r}, P l → P r → P (.operation op l r .plain)

section

variable {Q : Token → Prop} {P : Expr → Prop}

mutual

theorem Factor.keeps (hP : Keeps Q P) {w : List Token} {e : Expr} : Factor w e → (∀ t ∈ w, Q t) → P e
  | .number h, hw => hP.number (hw _ List.mem_cons_self) h
  | .color h, hw => hP.color (hw _ List.mem_cons_self) h
  | .flag _, _ => hP.flag
  | .name h, hw => hP.name (hw _ List.mem_cons_self) h
  | .group _ h _, hw => h.keeps hP fun t ht => hw t (List.mem_append_left _ (List.mem_cons_of_mem _ ht))

theorem Factors.keeps (hP : Keeps Q P) {w : List Token} {l e : Expr} : Factors l w e → (∀ t ∈ w, Q t) → P l → P e
  | .nil _, _, hl => hl
  | .cons _ h hs, hw, hl => by
    rw [List.forall_mem_append, List.forall_mem_cons] at hw
    exact hs.keeps hP hw.2 (hP.operation hl (h.keeps hP hw.1.2))

theorem Term.keeps (hP : Keeps Q P) {w : List Token} {e : Expr} : Term w e → (∀ t ∈ w, Q t) → P e
  | .mk h hs, hw => by
    obtain ⟨hv, hw⟩ := List.forall_mem_append.1 hw
    exact hs.keeps hP hw (h.keeps hP hv)

theorem Terms.keeps (hP : Keeps Q P) {w : List Token} {l e : Expr} : Terms l w e → (∀ t ∈ w, Q t) → P l → P e
  | .nil _, _, hl => hl
  | .cons _ _ h hs, hw, hl => by
    rw [List.forall_mem_append, List.forall_mem_cons] at hw
    exact hs.keeps hP hw.2 (hP.operation hl (h.keeps hP hw.1.2))

/-- What the leaves of an expression are by their tokens, the expression is as a whole. -/
theorem Expression.keeps (hP : Keeps Q P) {w : List Token} {e : Expr} : Expression w e → (∀ t ∈ w, Q t) → P e
  | .mk h hs, hw => by
    obtain ⟨hv, hw⟩ := List.forall_mem_append.1 hw
    exact hs.keeps hP hw (h.keeps hP hv)

end

end

theorem keeps_isWorded : Keeps Token.IsWord Expr.IsWorded where
  number _ _ := trivial
  color ht h := by rwa [Token.IsWord, h] at ht
  flag := trivial
  name _ _ := trivial
  operation hl hr := ⟨hl, hr⟩

theorem Expression.isWorded {w : List Token} {e : Expr} (h : Expression w e) (hw : ∀ t ∈ w, t.IsWord) :
    e.IsWorded := h.keeps keeps_isWorded hw

theorem Assignment.isWorded {w : List Token} {s : Stmt} (h : Assignment w s) (hw : ∀ t ∈ w, t.IsWord) :
    s.IsWorded := by
  obtain ⟨hname, hmark, h, hstop⟩ := h
  exact h.isWorded fun t ht => hw t (by simp [ht])

theorem Declaration.isWorded {w : List Token} {s : Stmt} (h : Declaration w s) (hw : ∀ t ∈ w, t.IsWord) :
    s.IsWorded := by
  obtain ⟨hproperty, hmark, h, hstop⟩ := h
  have hword := hw _ List.mem_cons_self
  rw [Token.IsWord, hproperty] at hword
  exact ⟨hword, h.isWorded fun t ht => hw t (by simp [ht])⟩

mutual

theorem Rule.isWorded {w : List Token} {s : Stmt} : Rule w s → (∀ t ∈ w, t.IsWord) → s.IsWorded
  | .mk ht h, hw => by
    obtain ⟨hselector, hw⟩ := List.forall_mem_cons.1 hw
    exact ⟨⟨_, hselector, ht⟩, h.isWorded hw⟩

theorem Clause.isWorded {w : List Token} {s : Stmt} : Clause w s → (∀ t ∈ w, t.IsWord) → s.IsWorded
  | .mk _ _ hc _ h, hw => ⟨hc.isWorded fun t ht => hw t (by simp [ht]), h.isWorded fun t ht => hw t (by simp [ht])⟩

theorem Body.isWorded {w : List Token} {ss : List Stmt} : Body w ss → (∀ t ∈ w, t.IsWord) → Stmt.AllWorded ss
  | .mk _ h _, hw => h.isWorded fun t ht => hw t (by simp [ht])

theorem Items.isWorded {w : List Token} {ss : List Stmt} : Items w ss → (∀ t ∈ w, t.IsWord) → Stmt.AllWorded ss
  | .nil, _ => trivial
  | .cons h hs, hw => by
    obtain ⟨hv, hw⟩ := List.forall_mem_append.1 hw
    exact ⟨h.isWorded hv, hs.isWorded hw⟩

theorem Item.isWorded {w : List Token} {s : Stmt} : Item w s → (∀ t ∈ w, t.IsWord) → s.IsWorded
  | .assignment h, hw => h.isWorded hw
  | .declaration h, hw => h.isWorded hw
  | .clause h, hw => h.isWorded hw
  | .rule h, hw => h.isWorded hw

end

theorem Sheet.isWorded {w : List Token} {ss : List Stmt} (h : Sheet w ss) (hw : ∀ t ∈ w, t.IsWord) :
    Stmt.AllWorded ss := by
  induction h with
  | nil => trivial
  | assignment h _ ih =>
    obtain ⟨hv, hw⟩ := List.forall_mem_append.1 hw
    exact ⟨h.isWorded hv, ih hw⟩
  | rule h _ ih =>
    obtain ⟨hv, hw⟩ := List.forall_mem_append.1 hw
    exact ⟨h.isWorded hv, ih hw⟩

end Grammar

theorem Expr.isWorded_withoutSpans (e : Expr) : e.withoutSpans.IsWorded ↔ e.IsWorded := by
  induction e with
  | literal v n => exact Iff.rfl
  | reference x n => exact Iff.rfl
  | operation op l r n ihl ihr => exact and_congr ihl ihr

namespace Stmt

mutual

theorem isWorded_withoutSpans : (s : Stmt) → (s.withoutSpans.IsWorded ↔ s.IsWorded)
  | assignment _ e _ => e.isWorded_withoutSpans
  | declaration _ e _ => and_congr Iff.rfl e.isWorded_withoutSpans
  | rule _ body _ => and_congr Iff.rfl (allWorded_withoutSpans body)
  | ifClause c body _ => and_congr c.isWorded_withoutSpans (allWorded_withoutSpans body)

theorem allWorded_withoutSpans : (ss : List Stmt) → (AllWorded (allWithoutSpans ss) ↔ AllWorded ss)
  | [] => Iff.rfl
  | s :: ss => and_congr (isWorded_withoutSpans s) (allWorded_withoutSpans ss)

end

end Stmt

namespace Scopes

variable {α : Type} {P : α → Prop}

/-- Everything bound in the scopes has the property. -/
def All (P : α → Prop) (s : Scopes α) : Prop := ∀ f ∈ s.frames, ∀ b ∈ f, P b.2

variable {s : Scopes α}

theorem all_empty : (empty : Scopes α).All P := by
  simp [All, frames, empty]

theorem All.enter (h : s.All P) : s.enter.All P :=
  List.forall_mem_cons.2 ⟨nofun, h⟩

theorem All.leave (h : s.All P) : s.leave.All P := by
  intro f hf
  refine h f ?_
  rcases List.mem_append.1 hf with hf | hf
  · exact List.mem_append_left _ (List.mem_of_mem_tail hf)
  · exact List.mem_append_right _ hf

theorem All.declare (h : s.All P) (name : String) {a : α} (ha : P a) : (s.declare name a).All P := by
  obtain ⟨inner, global⟩ := s
  cases inner with
  | nil =>
    have hglobal := h global (by simp [frames])
    exact List.forall_mem_singleton.2 (List.forall_mem_cons.2 ⟨ha, hglobal⟩)
  | cons f fs =>
    obtain ⟨hf, hfs⟩ := List.forall_mem_cons.1 h
    exact List.forall_mem_cons.2 ⟨List.forall_mem_cons.2 ⟨ha, hf⟩, hfs⟩

theorem All.resolve? (h : s.All P) {name : String} {a : α} (ha : s.resolve? name = some a) : P a := by
  obtain ⟨f, hf, hlookup⟩ := exists_frame_of_resolve? ha
  obtain ⟨before, after, rfl, -⟩ := List.lookup_eq_some_iff.1 hlookup
  exact h _ hf (name, a) (by simp)

end Scopes

/-- Operations make numbers, which are not written in the source. -/
theorem Operator.isWorded_of_apply {op : Operator} {a b v : Value} (h : op.apply a b = some v) : v.IsWorded := by
  cases v with
  | color text =>
    cases op <;> cases a <;> cases b <;> simp [apply] at h
    all_goals split at h <;> simp_all
  | _ => trivial

namespace Expr

variable {values : Values} {e : Expr}

theorem isWorded_of_eval {v : Value} (hvalues : values.All Value.IsWorded) (he : e.IsWorded)
    (h : e.eval values = .ok v) : v.IsWorded := by
  cases e with
  | literal w n =>
    obtain rfl := Except.ok.inj h
    exact he
  | reference x n => exact hvalues.resolve? (eval_reference_eq_ok.1 h)
  | operation op l r n =>
    obtain ⟨a, b, -, -, hv⟩ := eval_operation_eq_ok.1 h
    exact Operator.isWorded_of_apply hv

theorem isWorded_of_fold {folded : Expr} (hvalues : values.All Value.IsWorded) (he : e.IsWorded)
    (h : e.fold values = .ok folded) : folded.IsWorded := by
  rw [fold_eq_map] at h
  cases hv : e.eval values with
  | error fault =>
    rw [hv] at h
    cases h
  | ok v =>
    rw [hv] at h
    obtain rfl := Except.ok.inj h
    obtain ⟨n, hn⟩ := foldedTo_of_eval hv
    simp only [hn]
    exact isWorded_of_eval hvalues he hv

end Expr

namespace Stmt

mutual

theorem fold_isWorded {values : Values} (hvalues : values.All Value.IsWorded) : (s : Stmt) → s.IsWorded →
    (s.fold values).tree.IsWorded ∧ (s.fold values).values.All Value.IsWorded
  | assignment x e n, h => by
    rw [fold]
    cases hv : e.eval values with
    | error fault => exact ⟨h, hvalues⟩
    | ok v =>
      have hworded := Expr.isWorded_of_eval hvalues h hv
      exact ⟨hworded, hvalues.declare x hworded⟩
  | declaration p e n, h => by
    rw [fold]
    cases he : e.fold values with
    | error fault => exact ⟨h, hvalues⟩
    | ok folded => exact ⟨⟨h.1, Expr.isWorded_of_fold hvalues h.2 he⟩, hvalues⟩
  | rule s body n, h => by
    obtain ⟨hbody, hinner⟩ := foldAll_isWorded hvalues.enter body h.2
    exact ⟨⟨h.1, hbody⟩, hinner.leave⟩
  | ifClause c body n, h => by
    rw [fold]
    cases hc : c.fold values with
    | error fault => exact ⟨h, hvalues⟩
    | ok folded =>
      obtain ⟨hbody, hafter⟩ := foldAll_isWorded hvalues body h.2
      exact ⟨⟨Expr.isWorded_of_fold hvalues h.1 hc, hbody⟩, hafter⟩

theorem foldAll_isWorded {values : Values} (hvalues : values.All Value.IsWorded) : (ss : List Stmt) → AllWorded ss →
    AllWorded (foldAll values ss).tree ∧ (foldAll values ss).values.All Value.IsWorded
  | [], _ => ⟨trivial, hvalues⟩
  | s :: ss, h => by
    obtain ⟨hs, hafter⟩ := fold_isWorded hvalues s h.1
    cases hfault : (s.fold values).fault? with
    | some fault =>
      rw [foldAll_cons_of_fault hfault]
      exact ⟨⟨hs, h.2⟩, hafter⟩
    | none =>
      obtain ⟨hss, hlast⟩ := foldAll_isWorded hafter ss h.2
      rw [foldAll_cons_of_no_fault hfault]
      exact ⟨⟨hs, hss⟩, hlast⟩

end

theorem allWorded_iff {ss : List Stmt} : AllWorded ss ↔ ∀ s ∈ ss, s.IsWorded := by
  induction ss with
  | nil => simp [AllWorded]
  | cons s ss ih => rw [AllWorded, ih, List.forall_mem_cons]

end Stmt

/-- The stylesheet that is read from a source, folded, has only words of the source. -/
theorem Stylesheet.isWorded_of_read {file source : String} {sheet : Stylesheet}
    (h : Stylesheet.ofSource file source = .ok sheet) : Stmt.AllWorded sheet.fold.tree.body := by
  obtain ⟨ts, hts, hread⟩ := except_bind_eq_ok.1 h
  obtain ⟨w, hscan, rfl⟩ := Token.ofSource_eq_ok_scan.1 hts
  have hw := Token.isWord_of_scan hscan
  obtain ⟨-, hsheet, -⟩ := Grammar.ofTokens_sound rfl (fun t ht => (hw t ht).isSpelled t.span) hread
  have hbody := (Stmt.allWorded_withoutSpans sheet.body).1 (hsheet.isWorded hw)
  exact (Stmt.foldAll_isWorded Scopes.all_empty sheet.body hbody).1

namespace Stmt

/-- What a declaration that is used consists of. -/
def UseIsWorded (u : Use × Expr) : Prop :=
  ∀ property, u.1 = .declared property → Kind.word.Writes property ∧ u.2.IsWorded

mutual

theorem uses_isWorded : (s : Stmt) → s.IsWorded → ∀ u ∈ s.uses, UseIsWorded u
  | assignment .., _ => List.forall_mem_singleton.2 nofun
  | declaration p e n, h => by
    refine List.forall_mem_singleton.2 fun property hproperty => ?_
    obtain rfl := Use.declared.inj hproperty
    exact h
  | rule _ body _, h => allUses_isWorded body h.2
  | ifClause _ body _, h => List.forall_mem_cons.2 ⟨nofun, allUses_isWorded body h.2⟩

theorem allUses_isWorded : (ss : List Stmt) → AllWorded ss → ∀ u ∈ allUses ss, UseIsWorded u
  | [], _ => nofun
  | s :: ss, h => List.forall_mem_append.2 ⟨uses_isWorded s h.1, allUses_isWorded ss h.2⟩

end

mutual

theorem occurrences_isWorded {next : Nat} {rules : List (Nat × Selector)} {conditions : List Expr} : (s : Stmt) →
    s.IsWorded → ∀ o ∈ s.occurrences next rules conditions, o.stmt.IsWorded
  | assignment .., h => List.forall_mem_singleton.2 h
  | declaration .., h => List.forall_mem_singleton.2 h
  | rule _ body _, h => List.forall_mem_cons.2 ⟨h, allOccurrences_isWorded body h.2⟩
  | ifClause _ body _, h => List.forall_mem_cons.2 ⟨h, allOccurrences_isWorded body h.2⟩

theorem allOccurrences_isWorded {next : Nat} {rules : List (Nat × Selector)} {conditions : List Expr} :
    (ss : List Stmt) → AllWorded ss → ∀ o ∈ allOccurrences next rules conditions ss, o.stmt.IsWorded
  | [], _ => nofun
  | s :: ss, h => List.forall_mem_append.2 ⟨occurrences_isWorded s h.1, allOccurrences_isWorded ss h.2⟩

end

mutual

/-- The blocks have the selectors of the live rules and of the rules around them. -/
theorem paths_of_blocks {next : Nat} {rules : List (Nat × Selector)} {conditions : List Expr}
    (hlive : conditions.all Expr.isTrue) : (s : Stmt) → ∀ bs, s.blocks (rules.map Prod.snd).reverse = .ok bs →
      bs.map Css.Block.path = (liveRules (s.occurrences next rules conditions)).map NumberedRule.path
  | assignment .., bs, h => by
    obtain rfl := Except.ok.inj h
    rfl
  | declaration .., bs, h => by
    obtain rfl := Except.ok.inj h
    rfl
  | rule s body n, bs, h => by
    rw [blocks] at h
    obtain ⟨ls, -, h⟩ := except_bind_eq_ok.1 h
    obtain ⟨nested, hnested, h⟩ := except_bind_eq_ok.1 h
    obtain rfl := Except.ok.inj h
    have hpath : ((next, s) :: rules).map Prod.snd = s :: rules.map Prod.snd := rfl
    rw [← List.reverse_cons, ← hpath] at hnested
    have hrule : liveRules ((rule s body n).occurrences next rules conditions) =
        ⟨next, (rules.map Prod.snd).reverse ++ [s]⟩ ::
          liveRules (allOccurrences (next + 1) ((next, s) :: rules) conditions body) :=
      List.filterMap_cons_some (Occurrence.liveRule?_eq_some.2 ⟨s, body, n, rfl, hlive, rfl⟩)
    rw [hrule, List.map_cons, List.map_cons, paths_of_allBlocks hlive body nested hnested]
  | ifClause c body n, bs, h => by
    rw [blocks] at h
    have hinner : liveRules ((ifClause c body n).occurrences next rules conditions) =
        liveRules (allOccurrences next rules (c :: conditions) body) := rfl
    by_cases hc : c.isTrue
    · rw [if_pos hc] at h
      have hinside : (c :: conditions).all Expr.isTrue := by
        rw [List.all_cons, hc, Bool.true_and, hlive]
      rw [hinner]
      exact paths_of_allBlocks hinside body bs h
    · rw [if_neg hc] at h
      obtain rfl := Except.ok.inj h
      rw [hinner, liveRules_of_dead (dead_of_condition hc body)]
      rfl

theorem paths_of_allBlocks {next : Nat} {rules : List (Nat × Selector)} {conditions : List Expr}
    (hlive : conditions.all Expr.isTrue) : (ss : List Stmt) → ∀ bs,
      allBlocks (rules.map Prod.snd).reverse ss = .ok bs →
      bs.map Css.Block.path = (liveRules (allOccurrences next rules conditions ss)).map NumberedRule.path
  | [], bs, h => by
    obtain rfl := Except.ok.inj h
    rfl
  | s :: ss, bs, h => by
    rw [allBlocks] at h
    obtain ⟨first, hfirst, h⟩ := except_bind_eq_ok.1 h
    obtain ⟨rest, hrest, h⟩ := except_bind_eq_ok.1 h
    obtain rfl := Except.ok.inj h
    rw [allOccurrences, liveRules, List.filterMap_append, List.map_append, List.map_append,
      paths_of_blocks hlive s first hfirst, paths_of_allBlocks hlive ss rest hrest]
    rfl

end

end Stmt

end TypedCss
