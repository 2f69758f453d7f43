import Mathlib.Logic.Function.Iterate
import TypedCss.Proofs.Expressions
import TypedCss.Proofs.Rounds

/-!
# Powers of operators

Operators may be registered with any powers. A chain of operands and operators is read up to the first operator whose
power is no greater than the one that is asked for, and what is read is grouped by the powers, from the left where they
are equal. There is only one such grouping.
-/

namespace TypedCss.Grammar

open Parse

section Tables

/-- The operands of the language, without any operator. -/
def Table.operands : Table := { Table.standard with power? := fun _ => none }

/-- The operands of the language, with operators that have been registered one after the other. -/
def Table.ofRegistrations (regs : List (Operator × Power)) : Table :=
  regs.foldl (fun table reg => table.withOperator (.operator reg.1) reg.2) .operands

/-- The rank of the power that an operator has been given last. An operator that has none has the lowest rank, and no
operator of this rank is ever taken. -/
def latestRank (regs : List (Operator × Power)) (op : Operator) : Nat :=
  ((regs.reverse.lookup op).map Power.rank).getD 0

def Table.rank (table : Table) (op : Operator) : Nat := ((table.power? (.operator op)).map Power.rank).getD 0

/-- A table with the operands of the language and with powers of operators only. -/
structure Table.IsOfOperators (table : Table) : Prop where
  operand?_eq : table.operand? = Table.standard.operand?
  operator : ∀ {k power}, table.power? k = some power → ∃ op, k = .operator op

theorem Table.operand?_foldl (regs : List (Operator × Power)) (table : Table) :
    (regs.foldl (fun table reg => table.withOperator (.operator reg.1) reg.2) table).operand? = table.operand? := by
  induction regs generalizing table with
  | nil => rfl
  | cons reg regs ih => exact ih _

theorem Table.power?_foldl (regs : List (Operator × Power)) (table : Table) (k : Kind) :
    (regs.foldl (fun table reg => table.withOperator (.operator reg.1) reg.2) table).power? k =
      match k with
      | .operator op => (regs.reverse.lookup op).or (table.power? k)
      | _ => table.power? k := by
  induction regs generalizing table with
  | nil => cases k <;> rfl
  | cons reg regs ih =>
    obtain ⟨op', power⟩ := reg
    rw [List.foldl_cons, ih]
    cases k with
    | operator op =>
      simp only [List.reverse_cons, List.lookup_append, power?_withOperator, Kind.operator.injEq, Option.or_assoc]
      congr 1
      by_cases hop : op = op'
      · simp [hop]
      · simp [hop, List.lookup_cons, beq_false_of_ne hop]
    | _ => simp

theorem Table.isOfOperators (regs : List (Operator × Power)) : (ofRegistrations regs).IsOfOperators := by
  refine ⟨operand?_foldl regs _, fun {k power} h => ?_⟩
  rw [ofRegistrations, power?_foldl] at h
  cases k with
  | operator op => exact ⟨op, rfl⟩
  | _ => cases h

theorem Table.rank_ofRegistrations (regs : List (Operator × Power)) :
    (ofRegistrations regs).rank = latestRank regs := by
  funext op
  rw [rank, ofRegistrations, power?_foldl, latestRank]
  exact congrArg (fun power? => (Option.map Power.rank power?).getD 0) (Option.or_none ..)

end Tables

section Trees

/-- A tree of operators over operands that are not looked into. -/
inductive OpTree where
  | leaf (e : Expr)
  | node (op : Operator) (l r : OpTree)
  deriving DecidableEq, Repr

namespace OpTree

/-- The expression that the tree is; an operation spans both operands. -/
def toExpr : OpTree → Expr
  | leaf e => e
  | node op l r => .operation op l.toExpr r.toExpr (.clear ⟨l.toExpr.span.start, r.toExpr.span.stop⟩)

def leaves : OpTree → List Expr
  | leaf e => [e]
  | node _ l r => l.leaves ++ r.leaves

def operators : OpTree → List Operator
  | leaf _ => []
  | node op l r => l.operators ++ op :: r.operators

/-- Operators to the left of an operator are of its rank or above, and those to its right are above. -/
def IsGrouped (rank : Operator → Nat) : OpTree → Prop
  | leaf _ => True
  | node op l r => (∀ o ∈ l.operators, rank op ≤ rank o) ∧ (∀ o ∈ r.operators, rank op < rank o) ∧
      l.IsGrouped rank ∧ r.IsGrouped rank

theorem length_leaves (t : OpTree) : t.leaves.length = t.operators.length + 1 := by
  induction t with
  | leaf e => rfl
  | node op l r ihl ihr =>
    rw [leaves, operators, List.length_append, List.length_append, List.length_cons, ihl, ihr]
    omega

theorem IsGrouped.root_le {rank : Operator → Nat} {op : Operator} {l r : OpTree} (h : (node op l r).IsGrouped rank) :
    ∀ o ∈ (node op l r).operators, rank op ≤ rank o := by
  obtain ⟨hl, hr, -, -⟩ := h
  refine List.forall_mem_append.2 ⟨hl, List.forall_mem_cons.2 ⟨Nat.le_refl _, fun o ho => ?_⟩⟩
  exact Nat.le_of_lt (hr o ho)

/-- The operator at the root of a grouped tree is the last of those of the lowest rank. -/
theorem root_unique {rank : Operator → Nat} {op op' : Operator} {ls rs ls' rs' : List Operator}
    (heq : ls ++ op :: rs = ls' ++ op' :: rs') (hls : ∀ o ∈ ls, rank op ≤ rank o) (hrs : ∀ o ∈ rs, rank op < rank o)
    (hls' : ∀ o ∈ ls', rank op' ≤ rank o) (hrs' : ∀ o ∈ rs', rank op' < rank o) :
    ls = ls' ∧ op = op' ∧ rs = rs' := by
  rcases List.append_eq_append_iff.1 heq with ⟨u, rfl, hu⟩ | ⟨u, rfl, hu⟩
  · cases u with
    | nil =>
      obtain ⟨rfl, rfl⟩ := List.cons.inj hu
      exact ⟨(List.append_nil ls).symm, rfl, rfl⟩
    | cons o u =>
      obtain ⟨rfl, rfl⟩ := List.cons.inj hu
      have hright := hrs op' (by simp)
      have hleft := hls' op (by simp)
      omega
  · cases u with
    | nil =>
      obtain ⟨rfl, rfl⟩ := List.cons.inj hu
      exact ⟨List.append_nil ls', rfl, rfl⟩
    | cons o u =>
      obtain ⟨rfl, rfl⟩ := List.cons.inj hu
      have hright := hrs' op (by simp)
      have hleft := hls op' (by simp)
      omega

/-- The operands and the operators determine the grouped tree. -/
theorem IsGrouped.unique {rank : Operator → Nat} {t t' : OpTree} (h : t.IsGrouped rank) (h' : t'.IsGrouped rank)
    (hleaves : t.leaves = t'.leaves) (hoperators : t.operators = t'.operators) : t = t' := by
  induction t generalizing t' with
  | leaf e =>
    cases t' with
    | leaf e' => rw [List.singleton_inj.1 hleaves]
    | node op l r => simp [operators] at hoperators
  | node op l r ihl ihr =>
    cases t' with
    | leaf e' => simp [operators] at hoperators
    | node op' l' r' =>
      obtain ⟨hls, hrs, hl, hr⟩ := h
      obtain ⟨hls', hrs', hl', hr'⟩ := h'
      obtain ⟨hopsl, rfl, hopsr⟩ := root_unique hoperators hls hrs hls' hrs'
      have hlength : l.leaves.length = l'.leaves.length := by rw [length_leaves, length_leaves, hopsl]
      obtain ⟨hleavesl, hleavesr⟩ := List.append_inj hleaves hlength
      rw [ihl hl hl' hleavesl hopsl, ihr hr hr' hleavesr hopsr]

end OpTree

end Trees

section Chains

variable {table : Table} {s s₁ s₂ : Stream} {e : Expr}

/-- The tokens go on with an operand: a literal or a variable, or an expression in parentheses that the table
accepts. -/
inductive Operand (table : Table) : Stream → Expr → Stream → Prop
  | single {s : Stream} {e : Expr} (h : operandOf s.current = .ok e) : Operand table s e s.advance
  | group {s s₁ : Stream} {e : Expr} (hstart : s.current.kind = .openParen)
    (h : expression table .default s.advance = .ok e s₁) (hstop : s₁.current.kind = .closeParen) :
    Operand table s e s₁.advance

/-- The tokens go on with operators, each with an operand after it. -/
inductive Alternates (table : Table) : Stream → List (Operator × Expr) → Stream → Prop
  | nil (s : Stream) : Alternates table s [] s
  | cons {s s₁ s₂ : Stream} {op : Operator} {e : Expr} {rest : List (Operator × Expr)}
    (hop : s.current.kind = .operator op) (h : Operand table s.advance e s₁) (hrest : Alternates table s₁ rest s₂) :
    Alternates table s ((op, e) :: rest) s₂

theorem operand?_of_operandOf {t : Token} (h : operandOf t = .ok e) :
    Table.standard.operand? t.kind = some .primary := by
  unfold operandOf at h
  cases hkind : t.kind with
  | number m => rfl
  | color => rfl
  | flag b => rfl
  | name => rfl
  | _ =>
    rw [hkind] at h
    cases h

/-- An operand begins with no operator. -/
theorem Operand.ne_operator (h : Operand table s e s₁) (op : Operator) : s.current.kind ≠ .operator op := by
  intro hop
  cases h with
  | single h =>
    have hform := operand?_of_operandOf h
    rw [hop] at hform
    cases hform
  | group hstart =>
    rw [hop] at hstart
    cases hstart

theorem Operand.length_le (h : Operand table s e s₁) : s₁.rest.length ≤ s.rest.length := by
  cases h with
  | single h => exact s.length_advance_le
  | @group s' _ _ h _ =>
    rw [expression_eq] at h
    obtain ⟨-, hle⟩ := expressionWithin_growsTo _ _ (Nat.le_refl _) _ _ _ _ h
    exact Nat.le_trans s'.length_advance_le (Nat.le_trans hle s.length_advance_le)

/-- At the end of the tokens, no number of rounds reads an expression from a parenthesis that is read for ever. -/
theorem expressionWithin_ne_ok (htable : table.IsOfOperators) (hend : s.advance = s)
    (hkind : s.current.kind = .openParen) (n : Nat) (power : Power) :
    expressionWithin table n power s ≠ .ok e s₁ := by
  induction n generalizing power e s₁ with
  | zero => simp [expressionWithin, runaway, bind_apply]
  | succ n ih =>
    intro h
    rw [expressionWithin] at h
    obtain ⟨left, s₂, hleft, -⟩ := bind_eq_ok.1 h
    unfold operand grouping at hleft
    rw [bind_of_ok (currentKind_apply s), htable.operand?_eq, operand?_eq_grouping.2 hkind] at hleft
    simp only at hleft
    rw [bind_of_ok (advance_apply s), hend] at hleft
    obtain ⟨inner, s₃, hinner, -⟩ := bind_eq_ok.1 hleft
    exact ih .default hinner

/-- In enough rounds an operand is read as it stands. -/
theorem Operand.reads (htable : table.IsOfOperators) (h : Operand table s e s₁) {n : Nat}
    (hn : s.budget ≤ n + 1) : operand table (expressionWithin table n .default) s = .ok e s₁ := by
  unfold operand
  rw [bind_of_ok (currentKind_apply s), htable.operand?_eq]
  cases h with
  | single h =>
    rw [operand?_of_operandOf h]
    exact primary_of_ok h
  | group hstart h hstop =>
    rw [operand?_eq_grouping.2 hstart]
    have hlt : s.advance.rest.length < s.rest.length := by
      refine s.length_advance_lt_or_eq.resolve_right fun hend => ?_
      rw [hend, expression_eq] at h
      exact expressionWithin_ne_ok htable hend hstart _ _ h
    have hbudget : s.advance.budget ≤ n := by
      rw [Stream.budget] at hn ⊢
      omega
    rw [expression_eq] at h
    obtain ⟨hinner, -⟩ := expressionWithin_growsTo _ n hbudget _ _ _ _ h
    simp only [grouping]
    rw [bind_of_ok (advance_apply s), bind_of_ok hinner, bind_of_ok (expect_eq_ok.2 ⟨hstop, rfl, rfl⟩)]
    rfl

theorem Alternates.length_le {rest : List (Operator × Expr)} (h : Alternates table s rest s₁) :
    s₁.rest.length ≤ s.rest.length := by
  induction h with
  | nil => exact Nat.le_refl _
  | @cons s _ _ _ _ _ _ h _ ih => exact Nat.le_trans ih (Nat.le_trans h.length_le s.length_advance_le)

theorem Alternates.append {xs ys : List (Operator × Expr)} (h : Alternates table s xs s₁)
    (h' : Alternates table s₁ ys s₂) : Alternates table s (xs ++ ys) s₂ := by
  induction h with
  | nil => exact h'
  | cons hop h _ ih => exact .cons hop h (ih h')

end Chains

section Reading

variable {table : Table} {power : Power} {left tree : OpTree} {s s₁ s₂ : Stream} {op : Operator} {e : Expr}
  {rest taken : List (Operator × Expr)}

/-- From `s` on, the chain `taken` is read behind the tree `left`: all its operators are above the power, and `tree`
groups them. -/
structure Takes (table : Table) (power : Power) (left : OpTree) (s : Stream) (taken : List (Operator × Expr))
    (tree : OpTree) (s' : Stream) : Prop where
  chain : Alternates table s taken s'
  above : ∀ r ∈ taken, power.rank < table.rank r.1
  leaves : tree.leaves = left.leaves ++ taken.map Prod.snd
  operators : tree.operators = left.operators ++ taken.map Prod.fst
  isGrouped : tree.IsGrouped table.rank

/-- The rest of a chain is not read with the power: its first operator is not above it. -/
structure Stays (table : Table) (power : Power) (s : Stream) (rest : List (Operator × Expr)) (s' : Stream) : Prop where
  chain : Alternates table s rest s'
  below : ∀ r ∈ rest.head?, table.rank r.1 ≤ power.rank

theorem Takes.nil (h : left.IsGrouped table.rank) (s : Stream) : Takes table power left s [] left s :=
  ⟨.nil s, nofun, (List.append_nil _).symm, (List.append_nil _).symm, h⟩

/-- An operator takes the operand to its right with all that binds more tightly, and the chain goes on behind it. -/
theorem Takes.cons {right : OpTree} {next : Power} {taken' : List (Operator × Expr)}
    (hop : s.current.kind = .operator op) (he : Operand table s.advance e s₁) {s' s'' : Stream}
    (habove : power.rank < table.rank op) (hnext : next.rank = table.rank op)
    (hright : Takes table next (.leaf e) s₁ taken right s')
    (h : Takes table power (.node op left right) s' taken' tree s'') :
    Takes table power left s ((op, e) :: taken ++ taken') tree s'' := by
  refine ⟨(Alternates.cons hop he hright.chain).append h.chain, ?_, ?_, ?_, h.isGrouped⟩
  · refine List.forall_mem_append.2 ⟨List.forall_mem_cons.2 ⟨habove, fun r hr => ?_⟩, h.above⟩
    exact Nat.lt_trans (hnext ▸ habove) (hright.above r hr)
  · rw [h.leaves, OpTree.leaves, hright.leaves]
    simp [OpTree.leaves]
  · rw [h.operators, OpTree.operators, hright.operators]
    simp [OpTree.operators]

theorem Takes.isGrouped_node {right : OpTree} {next : Power} {s' : Stream} (hleft : left.IsGrouped table.rank)
    (hbelow : ∀ o ∈ left.operators, table.rank op ≤ table.rank o) (hnext : next.rank = table.rank op)
    (hright : Takes table next (.leaf e) s taken right s') : (OpTree.node op left right).IsGrouped table.rank := by
  refine ⟨hbelow, fun o ho => ?_, hleft, hright.isGrouped⟩
  rw [hright.operators] at ho
  obtain ⟨r, hr, rfl⟩ := List.mem_map.1 ho
  exact hnext ▸ hright.above r hr

theorem extendWithin_of_le {n : Nat} (left : Expr) (hop : s.current.kind = .operator op)
    (hrank : table.rank op ≤ power.rank) : extendWithin table (n + 1) power left s = .ok left s := by
  rw [Table.rank] at hrank
  rw [extendWithin, bind_of_ok (currentKind_apply s), hop]
  cases hpower : table.power? (.operator op) with
  | none => rfl
  | some next =>
    rw [hpower] at hrank
    simp only [if_pos (show next.rank ≤ power.rank from hrank)]
    rfl

theorem extendWithin_of_lt {n : Nat} (left : Expr) (hop : s.current.kind = .operator op)
    (hrank : power.rank < table.rank op) : ∃ next : Power, next.rank = table.rank op ∧
      extendWithin table (n + 1) power left s =
        (binary left (expressionWithin table n next) >>= extendWithin table n power) s := by
  rw [Table.rank] at hrank ⊢
  cases hpower : table.power? (.operator op) with
  | none =>
    rw [hpower] at hrank
    cases hrank
  | some next =>
    rw [hpower] at hrank
    refine ⟨next, rfl, ?_⟩
    rw [extendWithin, bind_of_ok (currentKind_apply s), hop, hpower]
    simp only [if_neg (Nat.not_le.2 (show power.rank < next.rank from hrank))]

mutual

/-- In enough rounds, a chain is read up to its first operator that is not above the power. -/
theorem expressionWithin_groups (htable : table.IsOfOperators) : (n : Nat) → (power : Power) →
    {s s₁ s₂ : Stream} → {e : Expr} → {rest : List (Operator × Expr)} → Operand table s e s₁ →
    Alternates table s₁ rest s₂ → table.power? s₂.current.kind = none → s.budget ≤ n →
    ∃ taken dropped tree s', expressionWithin table n power s = .ok tree.toExpr s' ∧ rest = taken ++ dropped ∧
      Takes table power (.leaf e) s₁ taken tree s' ∧ Stays table power s' dropped s₂
  | 0, _, _, _, _, _, _, _, _, _, hn => absurd hn (Nat.not_succ_le_zero _)
  | n + 1, power, s, s₁, s₂, e, rest, he, hrest, hend, hn => by
    have hle := he.length_le
    have hrounds : 2 * s₁.rest.length + 7 ≤ n := by
      rw [Stream.budget] at hn
      omega
    rw [expressionWithin, bind_of_ok (he.reads htable hn)]
    have hleaf : (OpTree.leaf e).IsGrouped table.rank := trivial
    exact extendWithin_groups htable n power hleaf (fun _ _ _ ho => absurd ho List.not_mem_nil) hrest hend hrounds

/-- The chain goes on behind what has been grouped, if its first operator does not bind more tightly than any operator
in there. -/
theorem extendWithin_groups (htable : table.IsOfOperators) : (n : Nat) → (power : Power) →
    {left : OpTree} → {s s₂ : Stream} → {rest : List (Operator × Expr)} → left.IsGrouped table.rank →
    (∀ r ∈ rest.head?, ∀ o ∈ left.operators, table.rank r.1 ≤ table.rank o) →
    Alternates table s rest s₂ → table.power? s₂.current.kind = none → 2 * s.rest.length + 7 ≤ n →
    ∃ taken dropped tree s', extendWithin table n power left.toExpr s = .ok tree.toExpr s' ∧
      rest = taken ++ dropped ∧ Takes table power left s taken tree s' ∧ Stays table power s' dropped s₂
  | 0, _, _, _, _, _, _, _, _, _, hn => absurd hn (Nat.not_succ_le_zero _)
  | n + 1, power, left, s, s₂, [], hleft, hnext, hrest, hend, hn => by
    cases hrest with
    | nil =>
      refine ⟨[], [], left, s, ?_, rfl, .nil hleft s, ⟨.nil s, nofun⟩⟩
      rw [extendWithin, bind_of_ok (currentKind_apply s), hend]
      rfl
  | n + 1, power, left, s, s₂, (op, e) :: rest, hleft, hnext, hrest, hend, hn => by
    rcases hrest with _ | ⟨hop, he, hchain⟩
    by_cases hrank : table.rank op ≤ power.rank
    · refine ⟨[], (op, e) :: rest, left, s, extendWithin_of_le _ hop hrank, rfl, .nil hleft s, ?_⟩
      exact ⟨.cons hop he hchain, fun r hr => Option.some.inj hr ▸ hrank⟩
    · have habove : power.rank < table.rank op := Nat.not_le.1 hrank
      have hbelow := hnext (op, e) rfl
      -- an operator that is read for ever has no operand after it
      have hlt : s.advance.rest.length < s.rest.length :=
        s.length_advance_lt_or_eq.resolve_right fun hsame => he.ne_operator op (by rw [hsame, hop])
      obtain ⟨next, hpower, hextend⟩ := extendWithin_of_lt (n := n) left.toExpr hop habove
      obtain ⟨taken, dropped, right, s', hright, rfl, htakes, hstays⟩ :=
        expressionWithin_groups htable n next he hchain hend (by rw [Stream.budget]; omega)
      have hnode := htakes.isGrouped_node hleft hbelow hpower
      -- the next operator is not above the one just taken, and so not above any that is grouped by now
      have hdropped : ∀ r ∈ dropped.head?, ∀ o ∈ (OpTree.node op left right).operators,
          table.rank r.1 ≤ table.rank o := by
        intro r hr o ho
        exact Nat.le_trans (hpower ▸ hstays.below r hr) (hnode.root_le o ho)
      have hle := Nat.le_trans htakes.chain.length_le he.length_le
      obtain ⟨taken', dropped', tree, s'', htree, rfl, htakes', hstays'⟩ :=
        extendWithin_groups htable n power hnode hdropped hstays.chain hend (by omega)
      refine ⟨(op, e) :: taken ++ taken', dropped', tree, s'', ?_, by simp, ?_, hstays'⟩
      · rw [hextend, bind_of_ok (binary_of_ok left.toExpr hop hright)]
        exact htree
      · exact .cons hop he habove hpower htakes htakes'

end

/-- The chain is split at its first operator that is not above the power. -/
theorem Takes.eq_takeWhile {dropped : List (Operator × Expr)} {s' : Stream}
    (h : Takes table power left s taken tree s') (hdropped : Stays table power s' dropped s₂) :
    (taken ++ dropped).takeWhile (fun r => power.rank < table.rank r.1) = taken ∧
      (taken ++ dropped).dropWhile (fun r => power.rank < table.rank r.1) = dropped := by
  have habove : ∀ r ∈ taken, decide (power.rank < table.rank r.1) = true :=
    fun r hr => decide_eq_true (h.above r hr)
  rw [List.takeWhile_append_of_pos habove, List.dropWhile_append_of_pos habove]
  cases dropped with
  | nil => exact ⟨List.append_nil taken, rfl⟩
  | cons r dropped =>
    have hbelow : ¬decide (power.rank < table.rank r.1) = true := by
      simpa using hdropped.below r rfl
    rw [List.takeWhile_cons, List.dropWhile_cons, if_neg hbelow, if_neg hbelow]
    exact ⟨List.append_nil taken, rfl⟩

end Reading

/-- Whatever powers the operators have been given, an expression is read from a chain of operands and operators up to
the first operator that is not above the power. Its operands and operators are those of the chain in their order, and
they are grouped by rank, operators of the same rank from the left. No other tree has them so. -/
theorem expressions_group_by_power (regs : List (Operator × Power)) (power : Power) {s s₁ s₂ : Stream} {first : Expr}
    {rest : List (Operator × Expr)} (hfirst : Operand (.ofRegistrations regs) s first s₁)
    (hrest : Alternates (.ofRegistrations regs) s₁ rest s₂)
    (hend : (Table.ofRegistrations regs).power? s₂.current.kind = none) :
    let taken := rest.takeWhile fun r => power.rank < latestRank regs r.1
    let dropped := rest.dropWhile fun r => power.rank < latestRank regs r.1
    ∃ tree s', expression (.ofRegistrations regs) power s = .ok tree.toExpr s' ∧
      Alternates (.ofRegistrations regs) s₁ taken s' ∧ Alternates (.ofRegistrations regs) s' dropped s₂ ∧
      tree.leaves = first :: taken.map Prod.snd ∧ tree.operators = taken.map Prod.fst ∧
      tree.IsGrouped (latestRank regs) ∧
      ∀ other : OpTree, other.IsGrouped (latestRank regs) → other.leaves = tree.leaves →
        other.operators = tree.operators → other = tree := by
  obtain ⟨taken, dropped, tree, s', htree, rfl, htakes, hstays⟩ :=
    expressionWithin_groups (Table.isOfOperators regs) _ power hfirst hrest hend (Nat.le_refl _)
  have hgrouped := htakes.isGrouped
  obtain ⟨htaken, hdropped⟩ := htakes.eq_takeWhile hstays
  rw [Table.rank_ofRegistrations] at hgrouped htaken hdropped
  simp only [htaken, hdropped]
  refine ⟨tree, s', ?_, htakes.chain, hstays.chain, htakes.leaves, htakes.operators, hgrouped, ?_⟩
  · rw [expression_eq, htree]
  · exact fun other hother hleaves hoperators => hother.unique hgrouped hleaves hoperators

/-- The sum binds most tightly here, since it has been registered twice, and a difference is never read. -/
theorem expressions_group_by_power_registered_twice :
    let regs := [(Operator.add, Power.default), (.subtract, .default), (.multiply, .additive), (.add, .primary)]
    let table := Table.ofRegistrations regs
    let number (n : Int32) : Expr := .literal (.number .scalar n) .plain
    let digit (text : String) : Token := ⟨.number .scalar, text, .nowhere⟩
    let mark (op : Operator) : Token := ⟨.operator op, op.symbol, .nowhere⟩
    let s := Stream.ofTokens "a" [digit "1", mark .multiply, digit "2", mark .add, ⟨.name, "A", .nowhere⟩,
      mark .multiply, ⟨.openParen, "(", .nowhere⟩, digit "4", mark .multiply, digit "5", ⟨.closeParen, ")", .nowhere⟩,
      mark .subtract, digit "6", mark .add, digit "7", ⟨.endOfInput, "EOF", .nowhere⟩]
    let inner : Expr := .operation .multiply (number 4) (number 5) .plain
    let rest := [(.multiply, number 2), (.add, .reference "A" .plain), (.multiply, inner), (.subtract, number 6),
      (.add, number 7)]
    let tree : OpTree := .node .multiply (.node .multiply (.leaf (number 1))
      (.node .add (.leaf (number 2)) (.leaf (.reference "A" .plain)))) (.leaf inner)
    Operand table s (number 1) s.advance ∧ Alternates table s.advance rest (Stream.advance^[15] s) ∧
      ∃ s', expression table .default s = .ok tree.toExpr s' ∧ s'.current.kind = .operator .subtract := by
  intro regs table number digit mark s inner rest tree
  have hdigit {text : String} {n : Int32} (h : number? .scalar text = some n) :
      operandOf (digit text) = .ok (number n) := by
    simp only [operandOf, digit, h]
    rfl
  have hinner : expression table .default (Stream.advance^[7] s) = .ok inner (Stream.advance^[10] s) := by
    have hread : (match expression table .default (Stream.advance^[7] s) with
        | .ok e s' => some (e, s')
        | .error .. => none) = some (inner, Stream.advance^[10] s) := by decide +kernel
    split at hread
    · obtain ⟨rfl, rfl⟩ := Prod.mk.inj (Option.some.inj hread)
      assumption
    · cases hread
  have hfirst : Operand table s (number 1) s.advance := .single (hdigit (by decide +kernel))
  have hrest : Alternates table s.advance rest (Stream.advance^[15] s) := by
    refine .cons rfl (.single (hdigit (by decide +kernel))) (.cons rfl (.single rfl) ?_)
    refine .cons rfl (.group rfl hinner rfl) (.cons rfl (.single (hdigit (by decide +kernel))) ?_)
    exact .cons rfl (.single (hdigit (by decide +kernel))) (.nil _)
  obtain ⟨read, s', hread, -, hdropped, hleaves, hoperators, -, hunique⟩ :=
    expressions_group_by_power regs .default hfirst hrest rfl
  have hgrouped : tree.IsGrouped (latestRank regs) :=
    ⟨by decide, by decide, ⟨by decide, by decide, trivial, ⟨by decide, by decide, trivial, trivial⟩⟩, trivial⟩
  obtain rfl := hunique tree hgrouped hleaves.symm hoperators.symm
  cases hdropped with
  | cons hop => exact ⟨hfirst, hrest, s', hread, hop⟩

end TypedCss.Grammar
