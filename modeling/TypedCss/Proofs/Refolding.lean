import Mathlib.Data.List.Forall2
import TypedCss.Proofs.Slots

/-!
# Folding slot by slot

Folding goes through the slots in the order of the source. It leaves a literal in each, up to the first one whose
expression has no value, and touches nothing but slots. A slot that it has left is settled: to fold it again
changes nothing, whatever variables are in sight.
-/

namespace TypedCss

namespace Stmt

mutual

/-- The statement with the given expression in every slot, so that all else can be compared. -/
def filledWith (e : Expr) : Stmt → Stmt
  | assignment x _ n => assignment x e n
  | declaration p _ n => declaration p e n
  | rule s body n => rule s (allFilledWith e body) n
  | ifClause _ body n => ifClause e (allFilledWith e body) n

def allFilledWith (e : Expr) : List Stmt → List Stmt
  | [] => []
  | s :: ss => s.filledWith e :: allFilledWith e ss

end

mutual

theorem ruleCount_filledWith (e : Expr) : (s : Stmt) → (s.filledWith e).ruleCount = s.ruleCount
  | assignment .. => rfl
  | declaration .. => rfl
  | rule _ body _ => congrArg (· + 1) (allRuleCount_filledWith e body)
  | ifClause _ body _ => allRuleCount_filledWith e body

theorem allRuleCount_filledWith (e : Expr) :
    (ss : List Stmt) → allRuleCount (allFilledWith e ss) = allRuleCount ss
  | [] => rfl
  | s :: ss => by
    rw [allFilledWith, allRuleCount, allRuleCount, ruleCount_filledWith e s, allRuleCount_filledWith e ss]

end

mutual

/-- Folding touches nothing but slots, whether or not it meets a fault. -/
theorem filledWith_fold (e : Expr) (values : Values) :
    (s : Stmt) → (s.fold values).tree.filledWith e = s.filledWith e
  | assignment x e' n => by
    rw [fold]
    cases e'.eval values <;> rfl
  | declaration p e' n => by
    rw [fold]
    cases e'.fold values <;> rfl
  | rule s body n => congrArg (rule s · n) (allFilledWith_foldAll e values.enter body)
  | ifClause c body n => by
    rw [fold]
    cases c.fold values with
    | error fault => rfl
    | ok v => exact congrArg (ifClause e · n) (allFilledWith_foldAll e values body)

theorem allFilledWith_foldAll (e : Expr) (values : Values) :
    (ss : List Stmt) → allFilledWith e (foldAll values ss).tree = allFilledWith e ss
  | [] => rfl
  | s :: ss => by
    have hs := filledWith_fold e values s
    cases hf : (s.fold values).fault? with
    | some fault => rw [foldAll_cons_of_fault hf, allFilledWith, allFilledWith, hs]
    | none => rw [foldAll_cons_of_no_fault hf, allFilledWith, allFilledWith, hs, allFilledWith_foldAll e _ ss]

end

theorem ruleCount_fold (values : Values) (s : Stmt) : (s.fold values).tree.ruleCount = s.ruleCount := by
  rw [← ruleCount_filledWith (.literal (.flag true) (.clear .nowhere)), filledWith_fold, ruleCount_filledWith]

mutual

/-- The scopes that folding opens it closes again, also after a fault. -/
theorem depth_fold (values : Values) : (s : Stmt) → (s.fold values).values.depth = values.depth
  | assignment x e n => by
    rw [fold]
    cases e.eval values with
    | error fault => rfl
    | ok v => exact Scopes.depth_declare values x v
  | declaration p e n => by
    rw [fold]
    cases e.fold values <;> rfl
  | rule _ body _ => Scopes.depth_leave_eq (depth_foldAll values.enter body)
  | ifClause c body n => by
    rw [fold]
    cases c.fold values with
    | error fault => rfl
    | ok v => exact depth_foldAll values body

theorem depth_foldAll (values : Values) : (ss : List Stmt) → (foldAll values ss).values.depth = values.depth
  | [] => rfl
  | s :: ss => by
    have hs := depth_fold values s
    cases hf : (s.fold values).fault? with
    | some fault => rw [foldAll_cons_of_fault hf, hs]
    | none => rw [foldAll_cons_of_no_fault hf, depth_foldAll _ ss, hs]

end

end Stmt

namespace Slot

/-- Folding again leaves the slot as it is. The literal that is assigned to a variable loses its problem when it
is folded, and any other literal keeps it. -/
def IsSettled (slot : Slot) : Prop :=
  ∃ v n, slot.value = .literal v n ∧ (slot.target?.isSome → n.problem? = none)

/-- What folding leaves of a slot: a settled one of the same place and for the same variable. -/
structure SettlesTo (slot folded : Slot) : Prop where
  rules : folded.rules = slot.rules
  target? : folded.target? = slot.target?
  span : folded.value.span = slot.value.span
  settled : folded.IsSettled

/-- What the slot adds to the global scope when its expression is a literal. -/
def globalBinding? (slot : Slot) : Option (String × Value) :=
  if slot.rules = [] then do return (← slot.target?, ← slot.value.value?) else none

theorem globalBinding?_of_no_target (e : Expr) (rules : List Nat) :
    globalBinding? ⟨e, rules, none⟩ = none := by
  unfold globalBinding?
  split <;> rfl

end Slot

/-- An assignment adds to the global scope if it is outside every rule. -/
theorem Scopes.declare_global {values : Values} {rules : List Nat} (h : values.depth = rules.length + 1)
    (x : String) (v : Value) (n : Note) :
    (values.declare x v).global =
      (Slot.globalBinding? ⟨.literal v n, rules, some x⟩).toList ++ values.global := by
  obtain ⟨inner, global⟩ := values
  cases inner with
  | nil =>
    obtain rfl : rules = [] := List.length_eq_zero_iff.1 (by simpa [depth] using h.symm)
    rfl
  | cons frame frames =>
    have hrules : rules ≠ [] := by
      rintro rfl
      simp [depth] at h
    rw [Slot.globalBinding?, if_neg hrules]
    rfl

/-- A run of the folder through slots, from a global scope to a global scope. It ends with a fault in front of an
expression that has no value with one scope open for each rule around it. -/
inductive FoldRun : Frame Value → List Slot → List Slot → Option Fault → Frame Value → Prop
  | nil (global : Frame Value) : FoldRun global [] [] none global
  | stop {values : Values} {slot : Slot} {fault : Fault} (later : List Slot)
    (h : slot.value.eval values = .error fault) (hdepth : values.depth = slot.rules.length + 1) :
    FoldRun values.global (slot :: later) (slot :: later) (some fault) values.global
  | next {global after : Frame Value} {slot slot' : Slot} {slots folded : List Slot} {fault? : Option Fault}
    (h : slot.SettlesTo slot') (rest : FoldRun (slot'.globalBinding?.toList ++ global) slots folded fault? after) :
    FoldRun global (slot :: slots) (slot' :: folded) fault? after

namespace FoldRun

variable {global middle after : Frame Value} {slots slots' folded folded' : List Slot} {fault : Fault}
  {fault? : Option Fault}

theorem append_of_stop (h : FoldRun global slots folded (some fault) after) (slots' : List Slot) :
    FoldRun global (slots ++ slots') (folded ++ slots') (some fault) after := by
  generalize hf : some fault = fault? at h
  induction h with
  | nil => cases hf
  | stop later h hdepth =>
    cases hf
    exact .stop (later ++ slots') h hdepth
  | next h _ ih => exact .next h (ih hf)

theorem append (h : FoldRun global slots folded none middle) (h' : FoldRun middle slots' folded' fault? after) :
    FoldRun global (slots ++ slots') (folded ++ folded') fault? after := by
  generalize hf : none = fault?' at h
  induction h with
  | nil => exact h'
  | stop => cases hf
  | next h _ ih => exact .next h (ih h' hf)

/-- A slot that is assigned to no variable leaves the global scope as it is. -/
theorem next_of_no_target {e e' : Expr} {rules : List Nat}
    (h : Slot.SettlesTo ⟨e, rules, none⟩ ⟨e', rules, none⟩)
    (rest : FoldRun global slots folded fault? after) :
    FoldRun global (⟨e, rules, none⟩ :: slots) (⟨e', rules, none⟩ :: folded) fault? after := by
  refine .next h ?_
  rw [Slot.globalBinding?_of_no_target]
  exact rest

/-- A run without a fault leaves every slot settled. -/
theorem settles (h : FoldRun global slots folded none after) : List.Forall₂ Slot.SettlesTo slots folded := by
  generalize hf : none = fault? at h
  induction h with
  | nil => exact .nil
  | stop => cases hf
  | next h _ ih => exact .cons h (ih hf)

end FoldRun

/-- Where no variable is assigned, the literal is the expression itself or in the place of it. -/
theorem Slot.settlesTo_of_eval {values : Values} {e : Expr} {v : Value} (h : e.eval values = .ok v)
    (rules : List Nat) : Slot.SettlesTo ⟨e, rules, none⟩ ⟨e.foldedTo v, rules, none⟩ := by
  cases e with
  | literal w n => exact ⟨rfl, rfl, rfl, w, n, rfl, by simp⟩
  | reference x n => exact ⟨rfl, rfl, rfl, v, _, rfl, by simp⟩
  | operation op l r n => exact ⟨rfl, rfl, rfl, v, _, rfl, by simp⟩

namespace Stmt

mutual

/-- Where one scope is open for each rule around a statement, folding it is a run through its slots. -/
theorem fold_run {values : Values} {rules : List Nat} (h : values.depth = rules.length + 1) (next : Nat) :
    (s : Stmt) → FoldRun values.global (s.slots next rules) ((s.fold values).tree.slots next rules)
      (s.fold values).fault? (s.fold values).values.global
  | assignment x e n => by
    rw [fold]
    cases hv : e.eval values with
    | error fault => exact .stop [] hv h
    | ok v =>
      have hsettles : Slot.SettlesTo ⟨e, rules, some x⟩ ⟨.literal v (.clear e.span), rules, some x⟩ :=
        ⟨rfl, rfl, rfl, v, _, rfl, fun _ => rfl⟩
      refine .next hsettles ?_
      -- the run goes on from the global scope that the assignment leaves
      rw [← Scopes.declare_global h]
      exact .nil _
  | declaration p e n => by
    rw [fold, Expr.fold_eq_map]
    cases hv : e.eval values with
    | error fault => exact .stop [] hv h
    | ok v => exact .next_of_no_target (Slot.settlesTo_of_eval hv rules) (.nil _)
  | rule s body n => by
    have hinner : values.enter.depth = (next :: rules).length + 1 := congrArg (· + 1) h
    exact foldAll_run hinner (next + 1) body
  | ifClause c body n => by
    rw [fold, Expr.fold_eq_map]
    cases hv : c.eval values with
    | error fault => exact .stop _ hv h
    | ok v => exact .next_of_no_target (Slot.settlesTo_of_eval hv rules) (foldAll_run h next body)

theorem foldAll_run {values : Values} {rules : List Nat} (h : values.depth = rules.length + 1) (next : Nat) :
    (ss : List Stmt) → FoldRun values.global (allSlots next rules ss)
      (allSlots next rules (foldAll values ss).tree) (foldAll values ss).fault? (foldAll values ss).values.global
  | [] => .nil _
  | s :: ss => by
    have hs := fold_run h next s
    cases hf : (s.fold values).fault? with
    | some fault =>
      rw [hf] at hs
      rw [foldAll_cons_of_fault hf, allSlots, allSlots, ruleCount_fold]
      exact hs.append_of_stop _
    | none =>
      rw [hf] at hs
      have hnext : (s.fold values).values.depth = rules.length + 1 := (depth_fold values s).trans h
      rw [foldAll_cons_of_no_fault hf, allSlots, allSlots, ruleCount_fold]
      exact hs.append (foldAll_run hnext _ ss)

end

mutual

/-- Folding leaves a statement with settled slots as it is, whatever variables are in sight. -/
theorem fold_of_settled (values : Values) (next : Nat) (rules : List Nat) : (s : Stmt) →
    (∀ slot ∈ s.slots next rules, slot.IsSettled) → (s.fold values).tree = s ∧ (s.fold values).fault? = none
  | assignment x e n, h => by
    obtain ⟨v, ⟨span, problem?⟩, rfl, hclear⟩ := h _ List.mem_cons_self
    obtain rfl : problem? = none := hclear rfl
    exact ⟨rfl, rfl⟩
  | declaration p e n, h => by
    obtain ⟨v, m, rfl, -⟩ := h _ List.mem_cons_self
    exact ⟨rfl, rfl⟩
  | rule s body n, h => by
    obtain ⟨htree, hfault⟩ := foldAll_of_settled values.enter (next + 1) (next :: rules) body h
    exact ⟨congrArg (rule s · n) htree, hfault⟩
  | ifClause c body n, h => by
    obtain ⟨hc, hbody⟩ := List.forall_mem_cons.1 h
    obtain ⟨v, m, rfl, -⟩ := hc
    obtain ⟨htree, hfault⟩ := foldAll_of_settled values next rules body hbody
    exact ⟨congrArg (ifClause (.literal v m) · n) htree, hfault⟩

theorem foldAll_of_settled (values : Values) (next : Nat) (rules : List Nat) : (ss : List Stmt) →
    (∀ slot ∈ allSlots next rules ss, slot.IsSettled) →
      (foldAll values ss).tree = ss ∧ (foldAll values ss).fault? = none
  | [], _ => ⟨rfl, rfl⟩
  | s :: ss, h => by
    obtain ⟨hs, hss⟩ := List.forall_mem_append.1 h
    obtain ⟨htree, hfault⟩ := fold_of_settled values next rules s hs
    obtain ⟨htrees, hfaults⟩ := foldAll_of_settled (s.fold values).values _ rules ss hss
    rw [foldAll_cons_of_no_fault hfault]
    exact ⟨congrArg₂ List.cons htree htrees, hfaults⟩

end

end Stmt

/-- What a folder can be left with: it starts without variables and has folded any stylesheets since, with or
without faults. -/
inductive Reached : Values → Prop
  | start : Reached .empty
  | fold {values : Values} (h : Reached values) (sheet : Stylesheet) : Reached (sheet.foldIn values).values

theorem Reached.depth {values : Values} (h : Reached values) : values.depth = 1 := by
  induction h with
  | start => rfl
  | fold _ sheet ih => exact (Stmt.depth_foldAll _ sheet.body).trans ih

namespace Stylesheet

/-- The stylesheet with the given expression in every slot. -/
def filledWith (e : Expr) (sheet : Stylesheet) : Stylesheet :=
  { sheet with body := Stmt.allFilledWith e sheet.body }

theorem filledWith_foldIn (e : Expr) (values : Values) (sheet : Stylesheet) :
    (sheet.foldIn values).tree.filledWith e = sheet.filledWith e := by
  rw [filledWith, filledWith, ← Stmt.allFilledWith_foldAll e values sheet.body]
  rfl

theorem foldIn_run {values : Values} (h : Reached values) (sheet : Stylesheet) :
    FoldRun values.global sheet.slots (sheet.foldIn values).tree.slots (sheet.foldIn values).fault?
      (sheet.foldIn values).values.global :=
  Stmt.foldAll_run h.depth 0 sheet.body

end Stylesheet

/-- Folding without a fault changes nothing but the expressions in the slots. Each becomes a literal with the span of
the expression, and to fold the outcome again changes nothing at all. -/
theorem folding_settles_every_slot {values : Values} (hvalues : Reached values) {sheet : Stylesheet}
    (h : (sheet.foldIn values).fault? = none) :
    let folded := (sheet.foldIn values).tree
    (∀ e, folded.filledWith e = sheet.filledWith e) ∧
      List.Forall₂ (fun e e' => ∃ v n, e' = Expr.literal v n ∧ n.span = e.span)
        sheet.expressions folded.expressions ∧
      ∀ values', (folded.foldIn values').fault? = none ∧ (folded.foldIn values').tree = folded := by
  intro folded
  have hrun := sheet.foldIn_run hvalues
  rw [h] at hrun
  have hslots : List.Forall₂ Slot.SettlesTo sheet.slots folded.slots := hrun.settles
  refine ⟨fun e => sheet.filledWith_foldIn e values, ?_, ?_⟩
  · rw [← Stylesheet.slots_map_value, ← Stylesheet.slots_map_value, List.forall₂_map_left_iff,
      List.forall₂_map_right_iff]
    refine hslots.imp ?_
    intro slot slot' hsettles
    obtain ⟨v, n, hv, -⟩ := hsettles.settled
    have hspan := hsettles.span
    rw [hv] at hspan
    exact ⟨v, n, hv, hspan⟩
  · intro values'
    have hsettled : ∀ slot ∈ folded.slots, slot.IsSettled := by
      intro slot hslot
      obtain ⟨i, hi, rfl⟩ := List.mem_iff_getElem.1 hslot
      exact (hslots.get (hslots.length_eq ▸ hi) hi).settled
    obtain ⟨htree, hfault⟩ := Stmt.foldAll_of_settled values' 0 [] folded.body hsettled
    exact ⟨hfault, congrArg (Stylesheet.mk · folded.span) htree⟩

/-- Literals with problems attached, one of them assigned to a variable and one declared. -/
theorem folding_settles_every_slot_flawed :
    let n : Note := .clear .nowhere
    let flawed : Note := ⟨.nowhere, some (.invalidColor "color")⟩
    let five : Expr := .literal (.number .pixel 5) flawed
    let sum : Expr := .operation .add (.reference "W" n) five n
    let sheet : Stylesheet := ⟨[.assignment "W" five flawed,
      .rule (.tag "a") [.ifClause (.literal (.flag false) flawed) [.assignment "W" sum n] flawed,
        .declaration "width" (.reference "W" n) flawed, .declaration "color" five n] n], .nowhere⟩
    Reached .empty ∧ (sheet.foldIn .empty).fault? = none ∧
      (∀ e, (sheet.foldIn .empty).tree.filledWith e = sheet.filledWith e) ∧
      List.Forall₂ (fun e e' => ∃ v n, e' = Expr.literal v n ∧ n.span = e.span)
        sheet.expressions (sheet.foldIn .empty).tree.expressions ∧
      ∀ values', ((sheet.foldIn .empty).tree.foldIn values').fault? = none ∧
        ((sheet.foldIn .empty).tree.foldIn values').tree = (sheet.foldIn .empty).tree := by
  intro n flawed five sum sheet
  have hfold : (sheet.foldIn .empty).fault? = none := by decide
  exact ⟨.start, hfold, folding_settles_every_slot .start hfold⟩

end TypedCss
