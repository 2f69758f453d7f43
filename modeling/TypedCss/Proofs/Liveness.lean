import TypedCss.Proofs.Bare

/-!
# Live statements

A statement is live when every if clause around it has the condition `TRUE`. The text of a stylesheet has a
block for each live rule, in the order of the source, and each block has the live declarations that stand
directly in its rule, wherever they stand there among rules and if clauses.
-/

namespace TypedCss

/-- A statement where it stands: the number that a rule beginning there has, the rules around it with their
numbers, innermost first, and the conditions of the if clauses around it. -/
structure Occurrence where
  stmt : Stmt
  number : Nat
  rules : List (Nat × Selector)
  conditions : List Expr

namespace Stmt

mutual

/-- All statements in a statement inside the given rules and conditions, where the next rule to begin has
number `next`. -/
def occurrences (next : Nat) (rules : List (Nat × Selector)) (conditions : List Expr) : Stmt → List Occurrence
  | assignment x e n => [⟨assignment x e n, next, rules, conditions⟩]
  | declaration p e n => [⟨declaration p e n, next, rules, conditions⟩]
  | rule s body n =>
    ⟨rule s body n, next, rules, conditions⟩ :: allOccurrences (next + 1) ((next, s) :: rules) conditions body
  | ifClause c body n =>
    ⟨ifClause c body n, next, rules, conditions⟩ :: allOccurrences next rules (c :: conditions) body

def allOccurrences (next : Nat) (rules : List (Nat × Selector)) (conditions : List Expr) :
    List Stmt → List Occurrence
  | [] => []
  | s :: ss => s.occurrences next rules conditions ++ allOccurrences (next + s.ruleCount) rules conditions ss

end

end Stmt

/-- The number of a rule, and the selectors of the rules around it and its own, outermost first. -/
structure NumberedRule where
  number : Nat
  path : List Selector

namespace Occurrence

/-- Whether every if clause around the statement has the condition `TRUE`. -/
def isLive (o : Occurrence) : Bool := o.conditions.all Expr.isTrue

/-- The statement as a live rule. -/
def liveRule? (o : Occurrence) : Option NumberedRule :=
  match o.stmt with
  | .rule s _ _ => if o.isLive then some ⟨o.number, (o.rules.map Prod.snd).reverse ++ [s]⟩ else none
  | _ => none

/-- The statement as a live declaration to which the rule with the given number is the nearest one. -/
def liveDeclaration? (number : Nat) (o : Occurrence) : Option (String × Expr) :=
  match o.stmt with
  | .declaration p e _ => if o.isLive ∧ o.rules.head?.map Prod.fst = some number then some (p, e) else none
  | _ => none

theorem liveRule?_eq_some {o : Occurrence} {r : NumberedRule} : o.liveRule? = some r ↔
    ∃ s body n, o.stmt = .rule s body n ∧ o.isLive ∧ r = ⟨o.number, (o.rules.map Prod.snd).reverse ++ [s]⟩ := by
  obtain ⟨stmt, number, rules, conditions⟩ := o
  cases stmt with
  | rule s body n =>
    rw [liveRule?]
    constructor
    · intro h
      obtain ⟨hlive, hr⟩ := Option.ite_none_right_eq_some.1 h
      exact ⟨s, body, n, rfl, hlive, (Option.some.inj hr).symm⟩
    · rintro ⟨s', body', n', hstmt, hlive, rfl⟩
      obtain ⟨rfl, -, -⟩ := Stmt.rule.inj hstmt
      exact if_pos hlive
  | _ => simp [liveRule?]

theorem liveDeclaration?_eq_some {o : Occurrence} {number : Nat} {d : String × Expr} :
    o.liveDeclaration? number = some d ↔ ∃ n, o.stmt = .declaration d.1 d.2 n ∧ o.isLive ∧
      o.rules.head?.map Prod.fst = some number := by
  obtain ⟨stmt, number', rules, conditions⟩ := o
  cases stmt with
  | declaration p e n =>
    rw [liveDeclaration?]
    constructor
    · intro h
      obtain ⟨hboth, hd⟩ := Option.ite_none_right_eq_some.1 h
      obtain rfl := Option.some.inj hd
      exact ⟨n, rfl, hboth⟩
    · rintro ⟨n', hstmt, hboth⟩
      obtain ⟨rfl, rfl, -⟩ := Stmt.declaration.inj hstmt
      exact if_pos hboth
  | _ => simp [liveDeclaration?]

/-- The statement stands among rules from number `next` up to `stop`, inside the given rules. -/
structure IsWithin (next stop : Nat) (rules : List (Nat × Selector)) (o : Occurrence) : Prop where
  number : ∀ r, o.liveRule? = some r → next ≤ r.number ∧ r.number < stop
  nearest : o.rules = rules ∨ ∃ r rest, o.rules = r :: rest ∧ next ≤ r.1 ∧ r.1 < stop

theorem isWithin_self {stmt : Stmt} {number stop : Nat} {rules : List (Nat × Selector)}
    {conditions : List Expr} (h : stmt.isRule → number < stop) :
    IsWithin number stop rules ⟨stmt, number, rules, conditions⟩ := by
  refine ⟨?_, .inl rfl⟩
  intro r hr
  obtain ⟨s, body, n, rfl, -, rfl⟩ := liveRule?_eq_some.1 hr
  exact ⟨Nat.le_refl _, h rfl⟩

theorem IsWithin.mono {next next' stop stop' : Nat} {rules : List (Nat × Selector)} {o : Occurrence}
    (h : o.IsWithin next stop rules) (hnext : next' ≤ next) (hstop : stop ≤ stop') :
    o.IsWithin next' stop' rules := by
  constructor
  · intro r hr
    have := h.number r hr
    omega
  · rcases h.nearest with hsame | ⟨r, rest, hrules, hlow, hhigh⟩
    · exact .inl hsame
    · exact .inr ⟨r, rest, hrules, by omega, by omega⟩

/-- Inside one rule more, the nearest rule is that one or begins later. -/
theorem IsWithin.of_rule {next stop : Nat} {s : Selector} {rules : List (Nat × Selector)} {o : Occurrence}
    (h : o.IsWithin (next + 1) stop ((next, s) :: rules)) (hstop : next < stop) :
    o.IsWithin next stop rules := by
  refine ⟨(h.mono (Nat.le_succ next) (Nat.le_refl stop)).number, .inr ?_⟩
  rcases h.nearest with hsame | ⟨r, rest, hrules, hlow, hhigh⟩
  · exact ⟨(next, s), rules, hsame, Nat.le_refl next, hstop⟩
  · exact ⟨r, rest, hrules, by omega, hhigh⟩

theorem IsWithin.liveDeclaration?_eq_none {next stop number : Nat} {rules : List (Nat × Selector)}
    {o : Occurrence} (h : o.IsWithin next stop rules) (hrules : rules.head?.map Prod.fst ≠ some number)
    (hnumber : number < next ∨ stop ≤ number) : o.liveDeclaration? number = none := by
  refine Option.eq_none_iff_forall_ne_some.2 fun d hd => ?_
  obtain ⟨n, -, -, hnearest⟩ := liveDeclaration?_eq_some.1 hd
  rcases h.nearest with hsame | ⟨r, rest, hr, hlow, hhigh⟩
  · exact hrules (hsame ▸ hnearest)
  · rw [hr, List.head?_cons, Option.map_some, Option.some.injEq] at hnearest
    omega

end Occurrence

/-- The live rules among the statements. -/
def liveRules (os : List Occurrence) : List NumberedRule := os.filterMap Occurrence.liveRule?

/-- The live declarations among the statements to which the rule with the given number is the nearest one. -/
def liveDeclarations (number : Nat) (os : List Occurrence) : List (String × Expr) :=
  os.filterMap (Occurrence.liveDeclaration? number)

/-- The block of the rule, when these are all statements. -/
def NumberedRule.text (os : List Occurrence) (r : NumberedRule) : String :=
  " ".intercalate (r.path.map Selector.text) ++ " \x7b\n" ++
    String.join ((liveDeclarations r.number os).map fun d => "  " ++ d.1 ++ ": " ++ d.2.text ++ ";\n") ++ "\x7d\n"

section

variable {next stop number : Nat} {rules : List (Nat × Selector)} {os : List Occurrence}

theorem liveDeclarations_append (number : Nat) (os os' : List Occurrence) :
    liveDeclarations number (os ++ os') = liveDeclarations number os ++ liveDeclarations number os' :=
  List.filterMap_append

theorem liveDeclarations_of_within (h : ∀ o ∈ os, o.IsWithin next stop rules)
    (hrules : rules.head?.map Prod.fst ≠ some number) (hnumber : number < next ∨ stop ≤ number) :
    liveDeclarations number os = [] :=
  List.filterMap_eq_nil_iff.2 fun o ho => (h o ho).liveDeclaration?_eq_none hrules hnumber

theorem liveDeclarations_of_dead (h : ∀ o ∈ os, ¬o.isLive) : liveDeclarations number os = [] := by
  refine List.filterMap_eq_nil_iff.2 fun o ho => Option.eq_none_iff_forall_ne_some.2 fun d hd => ?_
  obtain ⟨n, -, hlive, -⟩ := Occurrence.liveDeclaration?_eq_some.1 hd
  exact h o ho hlive

theorem liveRules_of_dead (h : ∀ o ∈ os, ¬o.isLive) : liveRules os = [] := by
  refine List.filterMap_eq_nil_iff.2 fun o ho => Option.eq_none_iff_forall_ne_some.2 fun r hr => ?_
  obtain ⟨s, body, n, -, hlive, -⟩ := Occurrence.liveRule?_eq_some.1 hr
  exact h o ho hlive

theorem number_of_mem_liveRules (h : ∀ o ∈ os, o.IsWithin next stop rules) :
    ∀ r ∈ liveRules os, next ≤ r.number ∧ r.number < stop := by
  intro r hr
  obtain ⟨o, ho, hr⟩ := List.mem_filterMap.1 hr
  exact (h o ho).number r hr

end

namespace Stmt

mutual

theorem within_of_mem_occurrences (next : Nat) (rules : List (Nat × Selector)) (conditions : List Expr) :
    (s : Stmt) → ∀ o ∈ s.occurrences next rules conditions, o.IsWithin next (next + s.ruleCount) rules
  | assignment .. => by
    rw [occurrences, List.forall_mem_singleton]
    exact Occurrence.isWithin_self nofun
  | declaration .. => by
    rw [occurrences, List.forall_mem_singleton]
    exact Occurrence.isWithin_self nofun
  | rule s body n => by
    have hcount : next + 1 + allRuleCount body = next + (rule s body n).ruleCount := by
      rw [ruleCount]
      omega
    have hlt : next < next + (rule s body n).ruleCount := by omega
    have hinner := within_of_mem_allOccurrences (next + 1) ((next, s) :: rules) conditions body
    rw [hcount] at hinner
    rw [occurrences, List.forall_mem_cons]
    exact ⟨Occurrence.isWithin_self fun _ => hlt, fun o ho => (hinner o ho).of_rule hlt⟩
  | ifClause c body n => by
    rw [occurrences, List.forall_mem_cons]
    exact ⟨Occurrence.isWithin_self nofun,
      within_of_mem_allOccurrences next rules (c :: conditions) body⟩

theorem within_of_mem_allOccurrences (next : Nat) (rules : List (Nat × Selector)) (conditions : List Expr) :
    (ss : List Stmt) → ∀ o ∈ allOccurrences next rules conditions ss, o.IsWithin next (next + allRuleCount ss) rules
  | [] => by simp [allOccurrences]
  | s :: ss => by
    rw [allOccurrences, List.forall_mem_append, allRuleCount, ← Nat.add_assoc]
    constructor
    · intro o ho
      exact (within_of_mem_occurrences next rules conditions s o ho).mono (Nat.le_refl _) (Nat.le_add_right _ _)
    · intro o ho
      exact (within_of_mem_allOccurrences (next + s.ruleCount) rules conditions ss o ho).mono
        (Nat.le_add_right _ _) (Nat.le_refl _)

end

mutual

/-- No statement is live inside a condition that is not `TRUE`. -/
theorem conditions_of_isLive {next : Nat} {rules : List (Nat × Selector)} {conditions : List Expr} :
    (s : Stmt) → ∀ o ∈ s.occurrences next rules conditions, o.isLive → conditions.all Expr.isTrue
  | assignment .. => List.forall_mem_singleton.2 id
  | declaration .. => List.forall_mem_singleton.2 id
  | rule _ body _ => List.forall_mem_cons.2 ⟨id, conditions_of_isLive_all body⟩
  | ifClause _ body _ => by
    refine List.forall_mem_cons.2 ⟨id, fun o ho hlive => ?_⟩
    have hinner := conditions_of_isLive_all body o ho hlive
    rw [List.all_cons, Bool.and_eq_true] at hinner
    exact hinner.2

theorem conditions_of_isLive_all {next : Nat} {rules : List (Nat × Selector)} {conditions : List Expr} :
    (ss : List Stmt) → ∀ o ∈ allOccurrences next rules conditions ss, o.isLive → conditions.all Expr.isTrue
  | [] => by simp [allOccurrences]
  | s :: ss => List.forall_mem_append.2 ⟨conditions_of_isLive s, conditions_of_isLive_all ss⟩

end

theorem liveDeclarations_rule (number next : Nat) (rules : List (Nat × Selector)) (conditions : List Expr)
    (s : Selector) (body : List Stmt) (n : Note) :
    liveDeclarations number ((rule s body n).occurrences next rules conditions) =
      liveDeclarations number (allOccurrences (next + 1) ((next, s) :: rules) conditions body) := rfl

theorem liveDeclarations_ifClause (number next : Nat) (rules : List (Nat × Selector)) (conditions : List Expr)
    (c : Expr) (body : List Stmt) (n : Note) :
    liveDeclarations number ((ifClause c body n).occurrences next rules conditions) =
      liveDeclarations number (allOccurrences next rules (c :: conditions) body) := rfl

theorem dead_of_condition {next : Nat} {rules : List (Nat × Selector)} {conditions : List Expr} {c : Expr}
    (hc : ¬c.isTrue) (ss : List Stmt) : ∀ o ∈ allOccurrences next rules (c :: conditions) ss, ¬o.isLive := by
  intro o ho hlive
  have hall := conditions_of_isLive_all ss o ho hlive
  rw [List.all_cons, Bool.and_eq_true] at hall
  exact hc hall.1

mutual

/-- The declarations that are collected for a rule are the live ones to which it is the nearest rule. -/
theorem liveDeclarations_of_declarations {number next : Nat} {s : Selector} {rules : List (Nat × Selector)}
    {conditions : List Expr} (hnumber : number < next) (hlive : conditions.all Expr.isTrue) :
    (t : Stmt) → ∀ ds, t.declarations = .ok ds →
      liveDeclarations number (t.occurrences next ((number, s) :: rules) conditions) = ds
  | assignment .., ds, h => by
    obtain rfl := Except.ok.inj h
    rfl
  | declaration p e n, ds, h => by
    obtain rfl := Except.ok.inj h
    exact List.filterMap_cons_some (Occurrence.liveDeclaration?_eq_some.2 ⟨n, rfl, hlive, rfl⟩)
  | rule s' body n, ds, h => by
    obtain rfl := Except.ok.inj h
    -- inside the nested rule, that rule is the nearest one
    have hnearest : ((next, s') :: (number, s) :: rules).head?.map Prod.fst ≠ some number := by
      rw [List.head?_cons, Option.map_some, ne_eq, Option.some.injEq]
      omega
    rw [liveDeclarations_rule]
    exact liveDeclarations_of_within (within_of_mem_allOccurrences _ _ _ body) hnearest (.inl (by omega))
  | ifClause c body n, ds, h => by
    rw [declarations] at h
    obtain ⟨v, hv, hds⟩ := except_bind_eq_ok.1 h
    obtain ⟨m, rfl⟩ := Expr.finalValue_eq_ok.1 hv
    have hc : (Expr.literal v m).isTrue ↔ v = .flag true := by simp [Expr.isTrue, Expr.value?]
    by_cases ht : v = .flag true
    · rw [if_pos ht] at hds
      have hinner : (Expr.literal v m :: conditions).all Expr.isTrue := by
        rw [List.all_cons, hc.2 ht, Bool.true_and, hlive]
      rw [liveDeclarations_ifClause]
      exact liveDeclarations_of_allDeclarations hnumber hinner body ds hds
    · rw [if_neg ht] at hds
      obtain rfl := Except.ok.inj hds
      rw [liveDeclarations_ifClause]
      exact liveDeclarations_of_dead (dead_of_condition (fun h => ht (hc.1 h)) body)

theorem liveDeclarations_of_allDeclarations {number next : Nat} {s : Selector} {rules : List (Nat × Selector)}
    {conditions : List Expr} (hnumber : number < next) (hlive : conditions.all Expr.isTrue) :
    (ss : List Stmt) → ∀ ds, allDeclarations ss = .ok ds →
      liveDeclarations number (allOccurrences next ((number, s) :: rules) conditions ss) = ds
  | [], ds, h => by
    obtain rfl := Except.ok.inj h
    rfl
  | t :: ts, ds, h => by
    rw [allDeclarations] at h
    obtain ⟨first, hfirst, h⟩ := except_bind_eq_ok.1 h
    obtain ⟨rest, hrest, h⟩ := except_bind_eq_ok.1 h
    obtain rfl := Except.ok.inj h
    rw [allOccurrences, liveDeclarations_append, liveDeclarations_of_declarations hnumber hlive t first hfirst,
      liveDeclarations_of_allDeclarations (by omega) hlive ts rest hrest]

end

end Stmt

/-- The blocks are those of the live rules, and the lines of these have literal values. -/
structure Written (os : List Occurrence) (blocks : List Css.Block) : Prop where
  texts : blocks.map Css.Block.text = (liveRules os).map (NumberedRule.text os)
  literal : ∀ r ∈ liveRules os, ∀ d ∈ liveDeclarations r.number os, d.2.IsLiteral

namespace Written

theorem of_dead {os : List Occurrence} (h : ∀ o ∈ os, ¬o.isLive) : Written os [] := by
  constructor
  · rw [liveRules_of_dead h]
    rfl
  · rw [liveRules_of_dead h]
    exact nofun

/-- Blocks of statements in front of others do not depend on these, and the other way round. -/
theorem append {next middle stop : Nat} {rules : List (Nat × Selector)} {os os' : List Occurrence}
    {blocks blocks' : List Css.Block} (hrules : ∀ r ∈ rules.head?, r.1 < next)
    (hos : ∀ o ∈ os, o.IsWithin next middle rules) (hos' : ∀ o ∈ os', o.IsWithin middle stop rules)
    (hnext : next ≤ middle) (h : Written os blocks) (h' : Written os' blocks') :
    Written (os ++ os') (blocks ++ blocks') := by
  -- rules of one part have numbers that the other part, and the rules around both, do not have
  have hlater : ∀ number, next ≤ number → rules.head?.map Prod.fst ≠ some number := by
    intro number hnumber hhead
    obtain ⟨r, hr, rfl⟩ := Option.map_eq_some_iff.1 hhead
    have := hrules r hr
    omega
  have hfirst : ∀ r ∈ liveRules os, liveDeclarations r.number (os ++ os') = liveDeclarations r.number os := by
    intro r hr
    obtain ⟨hlow, hhigh⟩ := number_of_mem_liveRules hos r hr
    rw [liveDeclarations_append, liveDeclarations_of_within hos' (hlater _ hlow) (.inl hhigh), List.append_nil]
  have hsecond : ∀ r ∈ liveRules os', liveDeclarations r.number (os ++ os') = liveDeclarations r.number os' := by
    intro r hr
    obtain ⟨hlow, -⟩ := number_of_mem_liveRules hos' r hr
    rw [liveDeclarations_append, liveDeclarations_of_within hos (hlater _ (by omega)) (.inr hlow),
      List.nil_append]
  have hrulesAppend : liveRules (os ++ os') = liveRules os ++ liveRules os' := List.filterMap_append
  constructor
  · rw [List.map_append, hrulesAppend, List.map_append, h.texts, h'.texts]
    refine congr (congrArg _ ?_) ?_
    · exact List.map_congr_left fun r hr => by rw [NumberedRule.text, NumberedRule.text, hfirst r hr]
    · exact List.map_congr_left fun r hr => by rw [NumberedRule.text, NumberedRule.text, hsecond r hr]
  · rw [hrulesAppend, List.forall_mem_append]
    constructor
    · intro r hr
      rw [hfirst r hr]
      exact h.literal r hr
    · intro r hr
      rw [hsecond r hr]
      exact h'.literal r hr

end Written

namespace Stmt

theorem lines_eq_ok {body : List Stmt} {ls : List (String × Value)} (h : lines body = .ok ls) :
    ∃ ds, allDeclarations body = .ok ds ∧ (∀ d ∈ ds, d.2.IsLiteral) ∧
      ls.map Css.lineText = ds.map fun d => "  " ++ d.1 ++ ": " ++ d.2.text ++ ";\n" := by
  obtain ⟨ds, hds, hls⟩ := except_bind_eq_ok.1 h
  refine ⟨ds, hds, ?_⟩
  clear h hds
  induction ds generalizing ls with
  | nil =>
    obtain rfl := Except.ok.inj hls
    exact ⟨nofun, rfl⟩
  | cons d ds ih =>
    rw [List.mapM_cons] at hls
    obtain ⟨line, hline, hls⟩ := except_bind_eq_ok.1 hls
    obtain ⟨v, hv, hline⟩ := except_bind_eq_ok.1 hline
    obtain ⟨rest, hrest, hls⟩ := except_bind_eq_ok.1 hls
    obtain rfl := Except.ok.inj hline
    obtain rfl := Except.ok.inj hls
    obtain ⟨property, e⟩ := d
    obtain ⟨n, rfl⟩ := Expr.finalValue_eq_ok.1 hv
    obtain ⟨hliteral, htexts⟩ := ih hrest
    refine ⟨List.forall_mem_cons.2 ⟨⟨v, n, rfl⟩, hliteral⟩, ?_⟩
    rw [List.map_cons, List.map_cons, htexts]
    rfl

mutual

theorem written_of_blocks {next : Nat} {rules : List (Nat × Selector)} {conditions : List Expr}
    (hrules : ∀ r ∈ rules.head?, r.1 < next) (hlive : conditions.all Expr.isTrue) :
    (s : Stmt) → ∀ bs, s.blocks (rules.map Prod.snd).reverse = .ok bs →
      Written (s.occurrences next rules conditions) bs
  | assignment .., bs, h => by
    obtain rfl := Except.ok.inj h
    exact ⟨rfl, nofun⟩
  | declaration .., bs, h => by
    obtain rfl := Except.ok.inj h
    exact ⟨rfl, nofun⟩
  | rule s body n, bs, h => by
    rw [blocks] at h
    obtain ⟨ls, hls, h⟩ := except_bind_eq_ok.1 h
    obtain ⟨nested, hnested, h⟩ := except_bind_eq_ok.1 h
    obtain rfl := Except.ok.inj h
    obtain ⟨ds, hds, hliteral, htexts⟩ := lines_eq_ok hls
    have hpath : ((next, s) :: rules).map Prod.snd = s :: rules.map Prod.snd := rfl
    rw [← List.reverse_cons, ← hpath] at hnested
    have hnext : ∀ r ∈ ((next, s) :: rules).head?, r.1 < next + 1 := by simp
    have hinner := written_of_allBlocks hnext hlive body nested hnested
    have hown : liveDeclarations next ((rule s body n).occurrences next rules conditions) = ds :=
      liveDeclarations_of_allDeclarations (Nat.lt_succ_self next) hlive body ds hds
    have hrule : liveRules ((rule s body n).occurrences next rules conditions) =
        ⟨next, (rules.map Prod.snd).reverse ++ [s]⟩ ::
          liveRules (allOccurrences (next + 1) ((next, s) :: rules) conditions body) :=
      List.filterMap_cons_some (Occurrence.liveRule?_eq_some.2 ⟨s, body, n, rfl, hlive, rfl⟩)
    constructor
    · rw [hrule, List.map_cons, List.map_cons, hinner.texts, Css.Block.text, htexts, NumberedRule.text, hown]
      rfl
    · rw [hrule, List.forall_mem_cons, hown]
      exact ⟨hliteral, hinner.literal⟩
  | ifClause c body n, bs, h => by
    rw [blocks] at h
    by_cases hc : c.isTrue
    · rw [if_pos hc] at h
      have hinside : (c :: conditions).all Expr.isTrue := by
        rw [List.all_cons, hc, Bool.true_and, hlive]
      have hinner := written_of_allBlocks hrules hinside body bs h
      exact ⟨hinner.texts, hinner.literal⟩
    · rw [if_neg hc] at h
      obtain rfl := Except.ok.inj h
      have hdead := Written.of_dead (@dead_of_condition next rules conditions c hc body)
      exact ⟨hdead.texts, hdead.literal⟩

theorem written_of_allBlocks {next : Nat} {rules : List (Nat × Selector)} {conditions : List Expr}
    (hrules : ∀ r ∈ rules.head?, r.1 < next) (hlive : conditions.all Expr.isTrue) :
    (ss : List Stmt) → ∀ bs, allBlocks (rules.map Prod.snd).reverse ss = .ok bs →
      Written (allOccurrences next rules conditions ss) bs
  | [], bs, h => by
    obtain rfl := Except.ok.inj h
    exact ⟨rfl, nofun⟩
  | s :: ss, bs, h => by
    rw [allBlocks] at h
    obtain ⟨first, hfirst, h⟩ := except_bind_eq_ok.1 h
    obtain ⟨rest, hrest, h⟩ := except_bind_eq_ok.1 h
    obtain rfl := Except.ok.inj h
    have hlater : ∀ r ∈ rules.head?, r.1 < next + s.ruleCount := fun r hr => by
      have := hrules r hr
      omega
    exact (written_of_blocks hrules hlive s first hfirst).append hrules
      (within_of_mem_occurrences next rules conditions s) (within_of_mem_allOccurrences _ rules conditions ss)
      (Nat.le_add_right _ _) (written_of_allBlocks hlater hlive ss rest hrest)

end

mutual

/-- Live rules are numbered in the order in which they begin. -/
theorem liveRules_ordered (next : Nat) (rules : List (Nat × Selector)) (conditions : List Expr) :
    (s : Stmt) → (liveRules (s.occurrences next rules conditions)).Pairwise fun r r' => r.number < r'.number
  | assignment .. => .nil
  | declaration .. => .nil
  | rule s body n => by
    have hinner := liveRules_ordered_all (next + 1) ((next, s) :: rules) conditions body
    rw [occurrences, liveRules, List.filterMap_cons]
    split
    · exact hinner
    · rename_i r hr
      obtain ⟨s', body', n', -, -, rfl⟩ := Occurrence.liveRule?_eq_some.1 hr
      refine List.pairwise_cons.2 ⟨?_, hinner⟩
      intro r' hr'
      exact (number_of_mem_liveRules (within_of_mem_allOccurrences _ _ _ body) r' hr').1
  | ifClause c body n => liveRules_ordered_all next rules (c :: conditions) body

theorem liveRules_ordered_all (next : Nat) (rules : List (Nat × Selector)) (conditions : List Expr) :
    (ss : List Stmt) →
      (liveRules (allOccurrences next rules conditions ss)).Pairwise fun r r' => r.number < r'.number
  | [] => .nil
  | s :: ss => by
    rw [allOccurrences, liveRules, List.filterMap_append, List.pairwise_append]
    refine ⟨liveRules_ordered next rules conditions s, liveRules_ordered_all _ rules conditions ss, ?_⟩
    intro r hr r' hr'
    have hlow := number_of_mem_liveRules (within_of_mem_occurrences next rules conditions s) r hr
    have hhigh := number_of_mem_liveRules (within_of_mem_allOccurrences _ rules conditions ss) r' hr'
    omega

end

mutual

/-- The nearest rule around a live statement is live. -/
theorem nearest_isLive {next : Nat} {rules : List (Nat × Selector)} {conditions : List Expr} :
    (s : Stmt) → ∀ o ∈ s.occurrences next rules conditions, o.isLive → ∀ r ∈ o.rules.head?,
      r ∈ rules.head? ∨ ∃ r' ∈ liveRules (s.occurrences next rules conditions), r'.number = r.1
  | assignment .. => List.forall_mem_singleton.2 fun _ _ => .inl
  | declaration .. => List.forall_mem_singleton.2 fun _ _ => .inl
  | rule s body n => by
    refine List.forall_mem_cons.2 ⟨fun _ _ => .inl, ?_⟩
    intro o ho hlive r hr
    have hrule : ⟨next, (rules.map Prod.snd).reverse ++ [s]⟩ ∈
        liveRules ((rule s body n).occurrences next rules conditions) := by
      refine List.mem_filterMap.2 ⟨_, List.mem_cons_self, ?_⟩
      exact Occurrence.liveRule?_eq_some.2 ⟨s, body, n, rfl, conditions_of_isLive_all body o ho hlive, rfl⟩
    rcases nearest_isLive_all body o ho hlive r hr with hhead | ⟨r', hr', hnumber⟩
    · obtain rfl := Option.some.inj hhead
      exact .inr ⟨_, hrule, rfl⟩
    · obtain ⟨o', ho', hr'⟩ := List.mem_filterMap.1 hr'
      exact .inr ⟨r', List.mem_filterMap.2 ⟨o', List.mem_cons_of_mem _ ho', hr'⟩, hnumber⟩
  | ifClause c body n => List.forall_mem_cons.2 ⟨fun _ _ => .inl, nearest_isLive_all body⟩

theorem nearest_isLive_all {next : Nat} {rules : List (Nat × Selector)} {conditions : List Expr} :
    (ss : List Stmt) → ∀ o ∈ allOccurrences next rules conditions ss, o.isLive → ∀ r ∈ o.rules.head?,
      r ∈ rules.head? ∨ ∃ r' ∈ liveRules (allOccurrences next rules conditions ss), r'.number = r.1
  | [] => nofun
  | s :: ss => by
    rw [allOccurrences, liveRules, List.filterMap_append]
    intro o ho hlive r hr
    rcases List.mem_append.1 ho with ho | ho
    · rcases nearest_isLive s o ho hlive r hr with hhead | ⟨r', hr', hnumber⟩
      · exact .inl hhead
      · exact .inr ⟨r', List.mem_append_left _ hr', hnumber⟩
    · rcases nearest_isLive_all ss o ho hlive r hr with hhead | ⟨r', hr', hnumber⟩
      · exact .inl hhead
      · exact .inr ⟨r', List.mem_append_right _ hr', hnumber⟩

end

/-- What stands in top-level rules, and is none of these itself, stands in a rule. -/
theorem isRule_or_inside (next : Nat) (ss : List Stmt) (hss : ∀ s ∈ ss, s.isRule) :
    ∀ o ∈ allOccurrences next [] [] ss, o.stmt.isRule ∨ ∃ r, o.rules.head? = some r := by
  induction ss generalizing next with
  | nil => exact nofun
  | cons s ss ih =>
    obtain ⟨hs, hss⟩ := List.forall_mem_cons.1 hss
    rw [allOccurrences, List.forall_mem_append]
    refine ⟨?_, ih _ hss⟩
    cases s with
    | rule s body n =>
      refine List.forall_mem_cons.2 ⟨.inl rfl, fun o ho => .inr ?_⟩
      rcases (within_of_mem_allOccurrences _ _ _ body o ho).nearest with hsame | ⟨r, rest, hr, -, -⟩
      · exact ⟨_, by rw [hsame]; rfl⟩
      · exact ⟨r, by rw [hr]; rfl⟩
    | _ => cases hs

end Stmt

/-- The statements of the top-level rules. -/
def Stylesheet.occurrences (sheet : Stylesheet) : List Occurrence :=
  Stmt.allOccurrences 0 [] [] (sheet.body.filter Stmt.isRule)

/-- The text of a stylesheet has the blocks of its live rules, in the order in which the rules begin. Each live
declaration is a literal and a line of the block of the rule nearest to it. Nothing else matters for the
text. -/
theorem css_of_live_rules {sheet : Stylesheet} {text : String} (h : sheet.css = .ok text) :
    text = "\n".intercalate ((liveRules sheet.occurrences).map (NumberedRule.text sheet.occurrences)) ∧
      ((liveRules sheet.occurrences).Pairwise fun r r' => r.number < r'.number) ∧
      (∀ o ∈ sheet.occurrences, o.isLive → ∀ p e n, o.stmt = .declaration p e n →
        e.IsLiteral ∧ ∃ r ∈ liveRules sheet.occurrences, (p, e) ∈ liveDeclarations r.number sheet.occurrences) ∧
      ∀ other : Stylesheet, other.bare = sheet.bare → other.css = .ok text := by
  obtain ⟨bs, hbs, htext⟩ := except_bind_eq_ok.1 h
  have hwritten : Written sheet.occurrences bs := Stmt.written_of_allBlocks (by simp) rfl _ bs hbs
  refine ⟨?_, Stmt.liveRules_ordered_all 0 [] [] _, ?_, fun other hbare => Stylesheet.css_of_bare h hbare⟩
  · rw [← Except.ok.inj htext, Css.text, hwritten.texts]
  · intro o ho hlive p e n hstmt
    have hinside := Stmt.isRule_or_inside 0 _ (fun s hs => (List.mem_filter.1 hs).2) o ho
    rw [hstmt] at hinside
    obtain hrule | ⟨r, hr⟩ := hinside
    · cases hrule
    · rcases Stmt.nearest_isLive_all _ o ho hlive r hr with hhead | ⟨r', hr', hnumber⟩
      · cases hhead
      · have hmem : (p, e) ∈ liveDeclarations r'.number sheet.occurrences := by
          refine List.mem_filterMap.2 ⟨o, ho, Occurrence.liveDeclaration?_eq_some.2 ⟨n, hstmt, hlive, ?_⟩⟩
          rw [hr, hnumber]
          rfl
        exact ⟨hwritten.literal r' hr' _ hmem, r', hr', hmem⟩

/-- A declaration after a nested rule comes before it, and one in an if clause that holds stays with its rule.
Without notes and without the if clause that does not hold, the text is the same. -/
theorem css_of_live_rules_nested :
    let line (property : String) (pixels : Int32) : Stmt :=
      .declaration property (.literal (.number .pixel pixels) (.clear ⟨⟨7, "a"⟩, ⟨9, "a"⟩⟩)) .plain
    let clause (b : Bool) (body : List Stmt) : Stmt := .ifClause (.literal (.flag b) .plain) body .plain
    let inner : Stmt := .rule (.className "b") [line "width" 1] .plain
    let sheet : Stylesheet := ⟨[.assignment "N" (.reference "M" .plain) .plain, .rule (.tag "a")
      [inner, clause true [line "height" 2], clause false [line "top" 3], line "left" 4] .plain], .nowhere⟩
    let text := "a \x7b\n  height: 2px;\n  left: 4px;\n\x7d\n\na .b \x7b\n  width: 1px;\n\x7d\n"
    sheet.css = .ok text ∧
      text = "\n".intercalate ((liveRules sheet.occurrences).map (NumberedRule.text sheet.occurrences)) ∧
      Stylesheet.css ⟨sheet.bare, .nowhere⟩ = .ok text := by
  intro line clause inner sheet text
  have hcss : sheet.css = .ok text := toOption_eq_some.1 (by decide +kernel)
  obtain ⟨htext, -, -, hbare⟩ := css_of_live_rules hcss
  exact ⟨hcss, htext, hbare _ rfl⟩

end TypedCss
