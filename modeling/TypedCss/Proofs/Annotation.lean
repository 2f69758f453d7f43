import Mathlib.Data.List.Forall2
import TypedCss.Proofs.Nodes
import TypedCss.Typing

/-!
# Checking only annotates

The checker attaches problems to nodes that can have one, and leaves all else in the tree as it is, problems that are
attached already included. What it looks at does not depend on what is attached, so that checking again changes nothing.
-/

namespace TypedCss

namespace Note

def withoutProblem (n : Note) : Note := { n with problem? := none }

theorem report_report (n : Note) (p? : Option Problem) : (n.report p?).report p? = n.report p? := by
  cases p? <;> rfl

end Note

namespace Expr

def withoutProblems : Expr → Expr
  | literal v n => literal v n.withoutProblem
  | reference x n => reference x n.withoutProblem
  | operation op l r n => operation op l.withoutProblems r.withoutProblems n.withoutProblem

variable (types types' : Types)

theorem withoutProblems_check (e : Expr) : (e.check types).withoutProblems = e.withoutProblems := by
  induction e with
  | literal v n => rfl
  | reference x n => rfl
  | operation op l r n ihl ihr =>
    rw [check, withoutProblems, withoutProblems, ihl, ihr]
    rfl

theorem type_check (e : Expr) : (e.check types).type types' = e.type types' := by
  induction e with
  | literal v n => rfl
  | reference x n => rfl
  | operation op l r n ihl ihr => rw [check, type, type, ihl, ihr]

theorem check_check (e : Expr) : (e.check types).check types = e.check types := by
  induction e with
  | literal v n => rfl
  | reference x n => rw [check, check, Note.report_report]
  | operation op l r n ihl ihr => rw [check, check, ihl, ihr, type_check, type_check, Note.report_report]

theorem isColor_check (e : Expr) : (e.check types).isColor types' = e.isColor types' := by
  cases e <;> rfl

theorem unfitDimension?_check (e : Expr) :
    (e.check types).unfitDimension? types' = e.unfitDimension? types' := by
  cases e <;> rfl

theorem isCondition_check (e : Expr) : (e.check types).isCondition types' = e.isCondition types' := by
  cases e <;> rfl

end Expr

theorem declarationProblem?_check (types types' : Types) (property : String) (e : Expr) :
    declarationProblem? types' property (e.check types) = declarationProblem? types' property e := by
  rw [declarationProblem?, declarationProblem?, Expr.isColor_check, Expr.unfitDimension?_check]

theorem conditionProblem?_check (types types' : Types) (c : Expr) :
    conditionProblem? types' (c.check types) = conditionProblem? types' c := by
  rw [conditionProblem?, conditionProblem?, Expr.isCondition_check, Expr.type_check]

namespace Stmt

mutual

def withoutProblems : Stmt → Stmt
  | assignment x e n => assignment x e.withoutProblems n.withoutProblem
  | declaration p e n => declaration p e.withoutProblems n.withoutProblem
  | rule s body n => rule s (allWithoutProblems body) n.withoutProblem
  | ifClause c body n => ifClause c.withoutProblems (allWithoutProblems body) n.withoutProblem

def allWithoutProblems : List Stmt → List Stmt
  | [] => []
  | s :: ss => s.withoutProblems :: allWithoutProblems ss

end

mutual

theorem withoutProblems_check (types : Types) :
    (s : Stmt) → (s.check types).1.withoutProblems = s.withoutProblems
  | assignment x e n => congrArg (assignment x · n.withoutProblem) (e.withoutProblems_check types)
  | declaration p e n => congrArg (declaration p · n.withoutProblem) (e.withoutProblems_check types)
  | rule s body n => congrArg (rule s · n.withoutProblem) (allWithoutProblems_checkAll types.enter body)
  | ifClause c body n => by
    rw [check_ifClause, withoutProblems, withoutProblems, c.withoutProblems_check types,
      allWithoutProblems_checkAll types body]
    rfl

theorem allWithoutProblems_checkAll (types : Types) :
    (ss : List Stmt) → allWithoutProblems (checkAll types ss).1 = allWithoutProblems ss
  | [] => rfl
  | s :: ss => by
    rw [checkAll_cons, allWithoutProblems, allWithoutProblems, withoutProblems_check types s,
      allWithoutProblems_checkAll _ ss]

end

mutual

/-- The checker closes the scopes that it opens. -/
theorem depth_check (types : Types) : (s : Stmt) → (s.check types).2.depth = types.depth
  | assignment x e _ => Scopes.depth_declare types x (e.type types)
  | declaration .. => rfl
  | rule _ body _ => Scopes.depth_leave_eq (depth_checkAll types.enter body)
  | ifClause _ body _ => depth_checkAll types body

theorem depth_checkAll (types : Types) : (ss : List Stmt) → (checkAll types ss).2.depth = types.depth
  | [] => rfl
  | s :: ss => by rw [checkAll_cons, depth_checkAll _ ss, depth_check types s]

end

mutual

theorem check_check (types : Types) : (s : Stmt) → (s.check types).1.check types = s.check types
  | assignment x e n => by rw [check, check, Expr.check_check, Expr.type_check]
  | declaration p e n => by
    rw [check, check, Expr.check_check, declarationProblem?_check, Note.report_report]
  | rule s body n => by rw [check_rule, check_rule, checkAll_checkAll types.enter body]
  | ifClause c body n => by
    rw [check_ifClause, check_ifClause, Expr.check_check, checkAll_checkAll types body, conditionProblem?_check,
      Note.report_report]

theorem checkAll_checkAll (types : Types) :
    (ss : List Stmt) → checkAll types (checkAll types ss).1 = checkAll types ss
  | [] => rfl
  | s :: ss => by
    rw [checkAll_cons, checkAll_cons, check_check types s, checkAll_checkAll _ ss]

end

end Stmt

namespace Node

/-- Whether the checker may find a problem in a node of this kind. -/
def canHaveProblem : Node → Bool
  | expr (.literal ..) => false
  | expr (.reference ..) => true
  | expr (.operation ..) => true
  | stmt (.assignment ..) => false
  | stmt (.declaration ..) => true
  | stmt (.rule ..) => false
  | stmt (.ifClause ..) => true

/-- What checking does to a node itself: no problem goes away, and one comes only where it can. -/
structure Annotated (node node' : Node) : Prop where
  span : node'.note.span = node.note.span
  kept : node.note.problem?.isSome → node'.note.problem?.isSome
  attached : node'.note.problem? ≠ node.note.problem? → node.canHaveProblem

/-- A node, and what the checker makes of it where some variables are in sight. -/
inductive Checked : Node → Node → Prop
  | expr (types : Types) (e : Expr) : Checked (.expr e) (.expr (e.check types))
  | stmt (types : Types) (s : Stmt) : Checked (.stmt s) (.stmt (s.check types).1)

theorem annotated_of_report {node node' : Node} {p? : Option Problem} (h : node'.note = node.note.report p?)
    (hp : p?.isSome → node.canHaveProblem) : node.Annotated node' where
  span := by rw [h, Note.report]
  kept hsome := by
    rw [h, Note.report, Option.isSome_or, hsome, Bool.or_true]
  attached hne := by
    apply hp
    cases p? with
    | none => exact absurd (congrArg Note.problem? (h.trans node.note.report_none)) hne
    | some p => rfl

variable {node node' : Node}

theorem Checked.annotated (h : Checked node node') : node.Annotated node' := by
  cases h with
  | expr types e =>
    cases e with
    | literal v n => exact annotated_of_report n.report_none.symm (by simp)
    | reference x n => exact annotated_of_report rfl fun _ => rfl
    | operation op l r n => exact annotated_of_report rfl fun _ => rfl
  | stmt types s =>
    cases s with
    | assignment x e n => exact annotated_of_report n.report_none.symm (by simp)
    | declaration p e n => exact annotated_of_report rfl fun _ => rfl
    | rule s body n => exact annotated_of_report n.report_none.symm (by simp)
    | ifClause c body n => exact annotated_of_report rfl fun _ => rfl

theorem annotated_of_checked {x y : Option Node} (h : Option.Rel Checked x y) : Option.Rel Annotated x y := by
  cases h with
  | some h => exact .some h.annotated
  | none => exact .none

theorem checkAll_checked (types : Types) (ss : List Stmt) :
    List.Forall₂ Checked (ss.map .stmt) ((Stmt.checkAll types ss).1.map .stmt) := by
  induction ss generalizing types with
  | nil => exact .nil
  | cons s ss ih => exact .cons (.stmt types s) (ih _)

theorem Checked.children (h : Checked node node') : List.Forall₂ Checked node.children node'.children := by
  cases h with
  | expr types e =>
    cases e with
    | literal v n => exact .nil
    | reference x n => exact .nil
    | operation op l r n => exact .cons (.expr types l) (.cons (.expr types r) .nil)
  | stmt types s =>
    cases s with
    | assignment x e n => exact .cons (.expr types e) .nil
    | declaration p e n => exact .cons (.expr types e) .nil
    | rule s body n => exact checkAll_checked types.enter body
    | ifClause c body n => exact .cons (.expr types c) (checkAll_checked types body)

theorem getElem?_checked {nodes nodes' : List Node} (h : List.Forall₂ Checked nodes nodes') (i : Nat) :
    Option.Rel Checked nodes[i]? nodes'[i]? := by
  induction h generalizing i with
  | nil => exact .none
  | cons h _ ih =>
    cases i with
    | zero => exact .some h
    | succ i => exact ih i

theorem bind_checked {x y : Option Node} (h : Option.Rel Checked x y) {f : Node → Option Node}
    (hf : ∀ {a b : Node}, Checked a b → Option.Rel Checked (f a) (f b)) :
    Option.Rel Checked (x.bind f) (y.bind f) := by
  cases h with
  | some h => exact hf h
  | none => exact .none

theorem Checked.below? (h : Checked node node') (path : List Nat) :
    Option.Rel Checked (node.below? path) (node'.below? path) := by
  induction path generalizing node node' with
  | nil => exact .some h
  | cons i path ih => exact bind_checked (getElem?_checked h.children i) ih

theorem at?_checked {nodes nodes' : List Node} (h : List.Forall₂ Checked nodes nodes') (path : List Nat) :
    Option.Rel Checked (at? nodes path) (at? nodes' path) := by
  cases path with
  | nil => exact .none
  | cons i path => exact bind_checked (getElem?_checked h i) fun hnode => hnode.below? path

end Node

namespace Stylesheet

def withoutProblems (sheet : Stylesheet) : Stylesheet :=
  { sheet with body := Stmt.allWithoutProblems sheet.body }

variable (types : Types) (sheet : Stylesheet)

theorem withoutProblems_checkIn : (sheet.checkIn types).1.withoutProblems = sheet.withoutProblems := by
  rw [withoutProblems, withoutProblems, ← Stmt.allWithoutProblems_checkAll types sheet.body]
  rfl

theorem checkIn_checkIn : (sheet.checkIn types).1.checkIn types = sheet.checkIn types := by
  have hbody := Stmt.checkAll_checkAll types sheet.body
  unfold checkIn
  rw [hbody]

/-- At each address there is a node before checking if and only if there is one after it, and checking only annotates
it. -/
theorem nodeAt?_checkIn (path : List Nat) :
    Option.Rel Node.Annotated (sheet.nodeAt? path) ((sheet.checkIn types).1.nodeAt? path) :=
  Node.annotated_of_checked (Node.at?_checked (Node.checkAll_checked types sheet.body) path)

end Stylesheet

/-- Whatever variables are in sight and whatever problems are attached already, checking changes nothing in a stylesheet
but the problems of its nodes. It takes none away, attaches them to references, operations, declarations and if clauses
only, and leaves as many scopes open as it found. It reports what is attached to the nodes then, each in its turn depth
first and from left to right. Checking again changes nothing. -/
theorem checking_only_annotates (types : Types) (sheet : Stylesheet) :
    let checked := (sheet.checkIn types).1
    checked.withoutProblems = sheet.withoutProblems ∧
      (∀ path, Option.Rel Node.Annotated (sheet.nodeAt? path) (checked.nodeAt? path)) ∧
      (sheet.checkIn types).2.depth = types.depth ∧
      (∃ entries : List (List Nat × Diagnostic),
        (entries.Pairwise fun a b => a.1 < b.1) ∧
        (∀ path d, (path, d) ∈ entries ↔ ∃ node, checked.nodeAt? path = some node ∧
          node.note.problem? = some d.problem ∧ node.note.span = d.span) ∧
        checked.diagnostics = entries.map Prod.snd) ∧
      (checked.checkIn types).1 = checked ∧ (checked.checkIn types).1.diagnostics = checked.diagnostics := by
  intro checked
  have hagain : (checked.checkIn types).1 = checked := congrArg Prod.fst (sheet.checkIn_checkIn types)
  obtain ⟨entries, hlisting, hds⟩ := checked.lists_diagnostics
  refine ⟨sheet.withoutProblems_checkIn types, sheet.nodeAt?_checkIn types, Stmt.depth_checkAll types sheet.body,
    ⟨entries, hlisting.ordered, ?_, hds.symm⟩, hagain, congrArg Stylesheet.diagnostics hagain⟩
  intro path d
  rw [hlisting.mem_iff]
  refine exists_congr fun node => and_congr_right fun _ => ?_
  exact Node.diagnostic?_eq_some

end TypedCss
