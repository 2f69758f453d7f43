import TypedCss.Folding
import TypedCss.Typing

/-!
# Slots

The slots of a stylesheet are the places of its expressions: the right-hand sides of assignments, the
values of declarations and the conditions of if clauses, at any depth. `expressions` lists what stands in
them, and `slots` also where they stand.
-/

namespace TypedCss

def Expr.IsLiteral (e : Expr) : Prop := ∃ v n, e = literal v n

namespace Stmt

mutual

/-- The expressions in the slots of a statement, in the order of the source. -/
def expressions : Stmt → List Expr
  | assignment _ e _ => [e]
  | declaration _ e _ => [e]
  | rule _ body _ => allExpressions body
  | ifClause c body _ => c :: allExpressions body

def allExpressions : List Stmt → List Expr
  | [] => []
  | s :: ss => s.expressions ++ allExpressions ss

end

theorem mem_allExpressions {e : Expr} {ss : List Stmt} :
    e ∈ allExpressions ss ↔ ∃ s ∈ ss, e ∈ s.expressions := by
  induction ss with
  | nil => simp [allExpressions]
  | cons s ss ih => simp [allExpressions, ih]

end Stmt

def Stylesheet.expressions (sheet : Stylesheet) : List Expr := Stmt.allExpressions sheet.body

/-- An expression, the rules around it, innermost first, and the variable that it is assigned to. Rules
are numbered in the order in which they begin. -/
structure Slot where
  value : Expr
  rules : List Nat
  target? : Option String
  deriving DecidableEq, Repr

namespace Stmt

mutual

def ruleCount : Stmt → Nat
  | assignment .. => 0
  | declaration .. => 0
  | rule _ body _ => allRuleCount body + 1
  | ifClause _ body _ => allRuleCount body

def allRuleCount : List Stmt → Nat
  | [] => 0
  | s :: ss => s.ruleCount + allRuleCount ss

end

mutual

/-- The slots of a statement inside the given rules, where the next rule to begin has number `next`. -/
def slots (next : Nat) (rules : List Nat) : Stmt → List Slot
  | assignment x e _ => [⟨e, rules, some x⟩]
  | declaration _ e _ => [⟨e, rules, none⟩]
  | rule _ body _ => allSlots (next + 1) (next :: rules) body
  | ifClause c body _ => ⟨c, rules, none⟩ :: allSlots next rules body

def allSlots (next : Nat) (rules : List Nat) : List Stmt → List Slot
  | [] => []
  | s :: ss => s.slots next rules ++ allSlots (next + s.ruleCount) rules ss

end

mutual

theorem slots_map_value (next : Nat) (rules : List Nat) :
    (s : Stmt) → (s.slots next rules).map Slot.value = s.expressions
  | assignment .. => rfl
  | declaration .. => rfl
  | rule _ body _ => allSlots_map_value (next + 1) (next :: rules) body
  | ifClause c body _ => by rw [slots, List.map_cons, allSlots_map_value next rules body, expressions]

theorem allSlots_map_value (next : Nat) (rules : List Nat) :
    (ss : List Stmt) → (allSlots next rules ss).map Slot.value = allExpressions ss
  | [] => rfl
  | s :: ss => by
    rw [allSlots, List.map_append, slots_map_value next rules s, allSlots_map_value _ rules ss, allExpressions]

end

mutual

theorem lt_of_mem_slots {next : Nat} {rules : List Nat} (hrules : ∀ r ∈ rules, r < next) :
    (s : Stmt) → ∀ slot ∈ s.slots next rules, ∀ r ∈ slot.rules, r < next + s.ruleCount
  | assignment .. => by simpa [slots, ruleCount] using hrules
  | declaration .. => by simpa [slots, ruleCount] using hrules
  | rule s body n => by
    have hinner : ∀ r ∈ next :: rules, r < next + 1 := by
      intro r hr
      rcases List.mem_cons.1 hr with rfl | hr
      · omega
      · have := hrules r hr
        omega
    intro slot hslot r hr
    have := lt_of_mem_allSlots hinner body slot hslot r hr
    rw [ruleCount]
    omega
  | ifClause c body n => by
    intro slot hslot r hr
    rw [ruleCount]
    rcases List.mem_cons.1 hslot with rfl | hslot
    · have := hrules r hr
      omega
    · exact lt_of_mem_allSlots hrules body slot hslot r hr

theorem lt_of_mem_allSlots {next : Nat} {rules : List Nat} (hrules : ∀ r ∈ rules, r < next) :
    (ss : List Stmt) → ∀ slot ∈ allSlots next rules ss, ∀ r ∈ slot.rules, r < next + allRuleCount ss
  | [] => by simp [allSlots]
  | s :: ss => by
    intro slot hslot r hr
    rw [allRuleCount]
    rcases List.mem_append.1 hslot with hslot | hslot
    · have := lt_of_mem_slots hrules s slot hslot r hr
      omega
    · have hrest : ∀ r ∈ rules, r < next + s.ruleCount := by
        intro r hr
        have := hrules r hr
        omega
      have := lt_of_mem_allSlots hrest ss slot hslot r hr
      omega

end

end Stmt

def Stylesheet.slots (sheet : Stylesheet) : List Slot := Stmt.allSlots 0 [] sheet.body

theorem Stylesheet.slots_map_value (sheet : Stylesheet) : sheet.slots.map Slot.value = sheet.expressions :=
  Stmt.allSlots_map_value 0 [] sheet.body

end TypedCss
