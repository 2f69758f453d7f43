import Mathlib.Order.Antichain
import TypedCss.Proofs.Lockstep
import TypedCss.Proofs.Nodes

/-!
# Problems do not cascade

A problem in an expression leaves every operation around it without a type, and an operation on an operand without a
type has no problem of its own. So no problem of an expression lies within another one, and where an expression has no
type, there is a problem in it or a variable that was recorded without a type.
-/

namespace TypedCss

namespace Operator

/-- Operands that have types give a type or a problem. -/
theorem resultType_ne_undefined (op : Operator) {l r : ValueType} (hl : l ≠ .undefined) (hr : r ≠ .undefined) :
    op.resultType l r ≠ .ok .undefined := by
  intro h
  unfold resultType at h
  split at h
  · exact hl rfl
  · exact hr rfl
  · split at h
    · exact hr (Except.ok.inj h)
    · split at h
      · exact hl (Except.ok.inj h)
      · cases h
  · split at h
    · exact hl (Except.ok.inj h)
    · cases h

end Operator

theorem Note.problem?_of_diagnostics_eq_nil {n : Note} (h : n.diagnostics = []) : n.problem? = none := by
  rw [diagnostics, List.map_eq_nil_iff, Option.toList_eq_nil_iff] at h
  exact h

/-- On a clear note there is a problem if and only if one is reported. -/
theorem Note.isSome_report {n : Note} (h : n.diagnostics = []) (p? : Option Problem) :
    (n.report p?).problem?.isSome = p?.isSome := by
  rw [report, problem?_of_diagnostics_eq_nil h, Option.or_none]

theorem problemOf?_isSome {α : Type} {r : Except Problem α} : (problemOf? r).isSome ↔ ∃ p, r = .error p := by
  cases r <;> simp [problemOf?]

namespace Node

/-- Whether some node has the property, the given one or one below it. -/
def Any (P : Node → Prop) (root : Node) : Prop := ∃ path node, root.below? path = some node ∧ P node

theorem below?_leaf {root node : Node} (hleaf : root.children = []) {path : List Nat} :
    root.below? path = some node ↔ path = [] ∧ root = node := by
  cases path with
  | nil => simp [below?]
  | cons i path => simp [below?, hleaf]

theorem below?_operation {op : Operator} {l r : Expr} {n : Note} {path : List Nat} {node : Node} :
    (expr (.operation op l r n)).below? path = some node ↔
      (path = [] ∧ expr (.operation op l r n) = node) ∨
      (∃ rest, path = 0 :: rest ∧ (expr l).below? rest = some node) ∨
      ∃ rest, path = 1 :: rest ∧ (expr r).below? rest = some node := by
  match path with
  | [] => simp [below?]
  | 0 :: path => simp [below?, children]
  | 1 :: path => simp [below?, children]
  | (_ + 2) :: path => simp [below?, children]

theorem any_leaf {P : Node → Prop} {root : Node} (hleaf : root.children = []) : root.Any P ↔ P root := by
  simp [Any, below?_leaf hleaf]

theorem any_operation {P : Node → Prop} {op : Operator} {l r : Expr} {n : Note} :
    (expr (.operation op l r n)).Any P ↔
      P (expr (.operation op l r n)) ∨ (expr l).Any P ∨ (expr r).Any P := by
  constructor
  · rintro ⟨path, node, hnode, hP⟩
    rcases below?_operation.1 hnode with ⟨-, rfl⟩ | ⟨rest, -, hnode⟩ | ⟨rest, -, hnode⟩
    · exact .inl hP
    · exact .inr (.inl ⟨rest, node, hnode, hP⟩)
    · exact .inr (.inr ⟨rest, node, hnode, hP⟩)
  · rintro (hP | ⟨path, node, hnode, hP⟩ | ⟨path, node, hnode, hP⟩)
    · exact ⟨[], _, rfl, hP⟩
    · exact ⟨0 :: path, node, hnode, hP⟩
    · exact ⟨1 :: path, node, hnode, hP⟩

/-- Whether a problem is attached to the node itself. -/
def IsFlagged (node : Node) : Prop := node.note.problem?.isSome

/-- Whether the node is a name of a variable that was recorded without a type. -/
def IsUntyped (types : Types) : Node → Prop
  | expr (.reference x _) => types.resolve? x = some .undefined
  | _ => False

end Node

theorem Node.any_isUntyped {types : Types} {root : Node} : root.Any (Node.IsUntyped types) ↔
    ∃ path x n, root.below? path = some (.expr (.reference x n)) ∧ types.resolve? x = some .undefined := by
  constructor
  · rintro ⟨path, node, hnode, huntyped⟩
    match node, huntyped with
    | .expr (.reference x n), huntyped => exact ⟨path, x, n, hnode, huntyped⟩
  · rintro ⟨path, x, n, hnode, huntyped⟩
    exact ⟨path, _, hnode, huntyped⟩

namespace Expr

/-- The addresses of the nodes with a problem, once the expression is checked. -/
def flagged (types : Types) (e : Expr) : Set (List Nat) :=
  {path | ∃ node, (Node.expr (e.check types)).below? path = some node ∧ node.IsFlagged}

variable {types : Types} {op : Operator} {l r : Expr} {n : Note}

theorem nonempty_flagged {e : Expr} : (e.flagged types).Nonempty ↔ (Node.expr (e.check types)).Any Node.IsFlagged :=
  Iff.rfl

theorem diagnostics_operation : (operation op l r n).diagnostics = [] ↔
    n.diagnostics = [] ∧ l.diagnostics = [] ∧ r.diagnostics = [] := by
  rw [diagnostics, List.append_eq_nil_iff, List.append_eq_nil_iff]

/-- An operation has no type if an operand has none, or if the two do not fit together. -/
theorem type_operation_eq_undefined : (operation op l r n).type types = .undefined ↔
    l.type types = .undefined ∨ r.type types = .undefined ∨
      ∃ p, op.resultType (l.type types) (r.type types) = .error p := by
  rw [type]
  by_cases hl : l.type types = .undefined
  · simp [hl, Operator.resultType_undefined_left]
  by_cases hr : r.type types = .undefined
  · simp [hr, Operator.resultType_undefined_right]
  have hne := op.resultType_ne_undefined hl hr
  cases hresult : op.resultType (l.type types) (r.type types) with
  | ok t =>
    have ht : t ≠ .undefined := fun ht => hne (by rw [hresult, ht])
    simp [hl, hr, ht]
  | error p => simp

/-- The checker reports an operation only if both operands have types. -/
theorem operands_of_misfit {p : Problem} (h : op.resultType (l.type types) (r.type types) = .error p) :
    l.type types ≠ .undefined ∧ r.type types ≠ .undefined := by
  constructor
  · intro hl
    rw [hl, Operator.resultType_undefined_left] at h
    cases h
  · intro hr
    rw [hr, Operator.resultType_undefined_right] at h
    cases h

theorem isFlagged_operation (hn : n.diagnostics = []) : (Node.expr ((operation op l r n).check types)).IsFlagged ↔
    ∃ p, op.resultType (l.type types) (r.type types) = .error p := by
  rw [← problemOf?_isSome, ← Note.isSome_report hn]
  rfl

theorem mem_flagged_operation (hn : n.diagnostics = []) {path : List Nat} :
    path ∈ (operation op l r n).flagged types ↔
      (path = [] ∧ ∃ p, op.resultType (l.type types) (r.type types) = .error p) ∨
      (∃ rest ∈ l.flagged types, path = 0 :: rest) ∨ ∃ rest ∈ r.flagged types, path = 1 :: rest := by
  rw [← isFlagged_operation hn]
  constructor
  · rintro ⟨node, hnode, hflag⟩
    rcases Node.below?_operation.1 hnode with ⟨rfl, rfl⟩ | ⟨rest, rfl, hnode⟩ | ⟨rest, rfl, hnode⟩
    · exact .inl ⟨rfl, hflag⟩
    · exact .inr (.inl ⟨rest, ⟨node, hnode, hflag⟩, rfl⟩)
    · exact .inr (.inr ⟨rest, ⟨node, hnode, hflag⟩, rfl⟩)
  · rintro (⟨rfl, hflag⟩ | ⟨rest, ⟨node, hnode, hflag⟩, rfl⟩ | ⟨rest, ⟨node, hnode, hflag⟩, rfl⟩)
    · exact ⟨_, rfl, hflag⟩
    · exact ⟨node, hnode, hflag⟩
    · exact ⟨node, hnode, hflag⟩

theorem flagged_leaf {e : Expr} (hleaf : (Node.expr (e.check types)).children = []) :
    (e.flagged types).Subsingleton := by
  rintro path ⟨node, hnode, -⟩ path' ⟨node', hnode', -⟩
  rw [((Node.below?_leaf hleaf).1 hnode).1, ((Node.below?_leaf hleaf).1 hnode').1]

theorem type_eq_undefined_iff {e : Expr} (h : e.diagnostics = []) : e.type types = .undefined ↔
    (e.flagged types).Nonempty ∨ (Node.expr e).Any (Node.IsUntyped types) := by
  rw [nonempty_flagged]
  induction e with
  | literal v n =>
    have hn : n.problem? = none := Note.problem?_of_diagnostics_eq_nil h
    rw [check, Node.any_leaf rfl, Node.any_leaf rfl]
    cases v <;> simp [type, Value.type, Node.IsUntyped, Node.IsFlagged, Node.note, note, hn]
  | reference x n =>
    have hn : n.problem? = none := Note.problem?_of_diagnostics_eq_nil h
    rw [check, Node.any_leaf rfl, Node.any_leaf rfl, type]
    cases hx : types.resolve? x <;>
      simp [Node.IsFlagged, Node.note, note, Note.report, Node.IsUntyped, hn, hx]
  | operation op l r n ihl ihr =>
    obtain ⟨hn, hl, hr⟩ := diagnostics_operation.1 h
    rw [type_operation_eq_undefined, ihl hl, ihr hr, ← isFlagged_operation hn, check, Node.any_operation,
      Node.any_operation]
    simp only [Node.IsUntyped, false_or]
    rw [iff_eq_eq]
    ac_rfl

/-- A problem of an operation says that its operands have types, so that there is none in them. -/
theorem antichain_flagged {e : Expr} (h : e.diagnostics = []) : IsAntichain (· <+: ·) (e.flagged types) := by
  induction e with
  | literal v n => exact (flagged_leaf rfl).isAntichain _
  | reference x n => exact (flagged_leaf rfl).isAntichain _
  | operation op l r n ihl ihr =>
    obtain ⟨hn, hl, hr⟩ := diagnostics_operation.1 h
    intro path hpath path' hpath' hne hprefix
    rcases (mem_flagged_operation hn).1 hpath with ⟨rfl, p, hp⟩ | ⟨rest, hrest, rfl⟩ | ⟨rest, hrest, rfl⟩
    · obtain ⟨hltype, hrtype⟩ := operands_of_misfit hp
      rcases (mem_flagged_operation hn).1 hpath' with ⟨rfl, -⟩ | ⟨rest, hrest, -⟩ | ⟨rest, hrest, -⟩
      · exact hne rfl
      · exact hltype ((type_eq_undefined_iff hl).2 (.inl ⟨rest, hrest⟩))
      · exact hrtype ((type_eq_undefined_iff hr).2 (.inl ⟨rest, hrest⟩))
    · rcases (mem_flagged_operation hn).1 hpath' with ⟨rfl, -⟩ | ⟨rest', hrest', rfl⟩ | ⟨rest', hrest', rfl⟩
      · cases List.prefix_nil.1 hprefix
      · have hne : rest ≠ rest' := fun heq => hne (congrArg _ heq)
        exact ihl hl hrest hrest' hne (List.cons_prefix_cons.1 hprefix).2
      · cases (List.cons_prefix_cons.1 hprefix).1
    · rcases (mem_flagged_operation hn).1 hpath' with ⟨rfl, -⟩ | ⟨rest', hrest', rfl⟩ | ⟨rest', hrest', rfl⟩
      · cases List.prefix_nil.1 hprefix
      · cases (List.cons_prefix_cons.1 hprefix).1
      · have hne : rest ≠ rest' := fun heq => hne (congrArg _ heq)
        exact ihr hr hrest hrest' hne (List.cons_prefix_cons.1 hprefix).2

end Expr

/-- Of the nodes of an expression in which the checker finds a problem, none lies below another. The expression has no
type if and only if there is such a node, or one of its names stands for a variable that was recorded without a type. -/
theorem problems_do_not_cascade (types : Types) {e : Expr} (h : e.diagnostics = []) :
    IsAntichain (· <+: ·) (e.flagged types) ∧
      (e.type types = .undefined ↔ (e.flagged types).Nonempty ∨
        ∃ path x n, (Node.expr e).below? path = some (.expr (.reference x n)) ∧
          types.resolve? x = some .undefined) := by
  refine ⟨e.antichain_flagged h, ?_⟩
  rw [e.type_eq_undefined_iff h, Node.any_isUntyped]

/-- Two problems side by side, none of the product around them, and a product that has no type and no problem. -/
theorem problems_do_not_cascade_product :
    let types : Types := (Scopes.empty.declare "Broken" .undefined).enter
    let note := Note.clear .nowhere
    let sum : Expr := .operation .add (.reference "Missing" note) (.literal (.number .pixel 1) note) note
    let difference : Expr := .operation .subtract (.literal (.flag true) note) (.literal (.number .pixel 2) note) note
    let twofold : Expr := .operation .multiply sum difference note
    let untyped : Expr := .operation .multiply (.reference "Broken" note) (.literal (.number .scalar 2) note) note
    twofold.diagnostics = [] ∧ untyped.diagnostics = [] ∧
      [0, 0] ∈ twofold.flagged types ∧ [1] ∈ twofold.flagged types ∧
      IsAntichain (· <+: ·) (twofold.flagged types) ∧ twofold.type types = .undefined ∧
      (untyped.check types).diagnostics = [] ∧ untyped.type types = .undefined := by
  intro types note sum difference twofold untyped
  have hsum : [0, 0] ∈ twofold.flagged types := ⟨_, rfl, rfl⟩
  have hdifference : [1] ∈ twofold.flagged types := ⟨_, rfl, rfl⟩
  obtain ⟨hantichain, htwofold⟩ := problems_do_not_cascade types (e := twofold) rfl
  obtain ⟨-, huntyped⟩ := problems_do_not_cascade types (e := untyped) rfl
  exact ⟨rfl, rfl, hsum, hdifference, hantichain, htwofold.2 (.inl ⟨_, hsum⟩), rfl,
    huntyped.2 (.inr ⟨[0], "Broken", note, rfl, rfl⟩)⟩

end TypedCss
