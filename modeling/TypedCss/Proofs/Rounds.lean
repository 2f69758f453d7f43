import TypedCss.Grammar.Expression

/-!
# More rounds

The rounds in which an expression is read are only a bound. What is read in some rounds is read in more rounds too,
whatever the table says, and reading never goes back.
-/

namespace TypedCss.Grammar

open Parse

namespace Stream

theorem length_advance_le (s : Stream) : s.advance.rest.length ≤ s.rest.length := by
  rw [advance, List.length_tail]
  omega

/-- Only at the end of the tokens nothing is taken from them. -/
theorem length_advance_lt_or_eq (s : Stream) : s.advance.rest.length < s.rest.length ∨ s.advance = s := by
  obtain ⟨rest, last⟩ := s
  cases rest with
  | nil => exact .inr rfl
  | cons t ts => exact .inl (Nat.lt_succ_self ts.length)

end Stream

variable {α β : Type}

/-- Where `p` makes something, `q` makes the same and leaves the same tokens, which are no more than before. -/
def GrowsTo (p q : Parse α) : Prop :=
  ∀ (s s' : Stream) (a : α), p s = .ok a s' → q s = .ok a s' ∧ s'.rest.length ≤ s.rest.length

namespace GrowsTo

variable {p q : Parse α} {f g : α → Parse β}

theorem bind (hp : GrowsTo p q) (hf : ∀ a, GrowsTo (f a) (g a)) : GrowsTo (p >>= f) (q >>= g) := by
  intro s s'' b h
  obtain ⟨a, s', ha, hb⟩ := bind_eq_ok.1 h
  obtain ⟨hq, hle⟩ := hp s s' a ha
  obtain ⟨hg, hle'⟩ := hf a s' s'' b hb
  exact ⟨bind_eq_ok.2 ⟨a, s', hq, hg⟩, Nat.le_trans hle' hle⟩

theorem pure (a : α) : GrowsTo (pure a) (pure a) := by
  intro s s' b h
  obtain ⟨-, rfl⟩ := EStateM.Result.ok.inj h
  exact ⟨h, Nat.le_refl _⟩

theorem throw (fault : Fault) : GrowsTo (throw fault : Parse α) q := by
  intro s s' a h
  cases h

theorem runaway : GrowsTo (runaway : Parse α) q := by
  intro s s' a h
  cases h

theorem current : GrowsTo current current := by
  intro s s' t h
  obtain ⟨-, rfl⟩ := EStateM.Result.ok.inj h
  exact ⟨h, Nat.le_refl _⟩

theorem currentKind : GrowsTo currentKind currentKind := by
  intro s s' k h
  obtain ⟨-, rfl⟩ := EStateM.Result.ok.inj h
  exact ⟨h, Nat.le_refl _⟩

theorem advance : GrowsTo advance advance := by
  intro s s' t h
  obtain ⟨-, rfl⟩ := EStateM.Result.ok.inj h
  exact ⟨h, s.length_advance_le⟩

theorem expect (kind : Kind) : GrowsTo (expect kind) (expect kind) := by
  intro s s' t h
  obtain ⟨-, -, rfl⟩ := expect_eq_ok.1 h
  exact ⟨h, s.length_advance_le⟩

theorem failWith (message : String) : GrowsTo (failWith message : Parse α) q := by
  intro s s' a h
  cases h

end GrowsTo

variable {table : Table} {inner inner' : Parse Expr}

theorem primary_growsTo : GrowsTo primary primary := by
  refine .bind .current fun t => ?_
  cases operandOf t with
  | ok e => exact .bind .advance fun _ => .pure e
  | error fault => exact .throw fault

theorem grouping_growsTo (h : GrowsTo inner inner') : GrowsTo (grouping inner) (grouping inner') :=
  .bind .advance fun _ => .bind h fun e => .bind (.expect _) fun _ => .pure e

theorem operand_growsTo (h : GrowsTo inner inner') : GrowsTo (operand table inner) (operand table inner') := by
  refine .bind .currentKind fun kind => ?_
  cases table.operand? kind with
  | none => exact .failWith _
  | some form =>
    cases form with
    | primary => exact primary_growsTo
    | grouping => exact grouping_growsTo h

theorem binary_growsTo (left : Expr) (h : GrowsTo inner inner') :
    GrowsTo (binary left inner) (binary left inner') := by
  refine .bind .advance fun t => ?_
  cases t.kind with
  | operator op => exact .bind h fun _ => .pure _
  | _ => exact .throw _

mutual

/-- More rounds read the same expression. -/
theorem expressionWithin_growsTo : (n m : Nat) → n ≤ m → (power : Power) →
    GrowsTo (expressionWithin table n power) (expressionWithin table m power)
  | 0, _, _, power => by
    rw [expressionWithin]
    exact .runaway
  | n + 1, m + 1, h, power => by
    rw [expressionWithin, expressionWithin]
    have hnm := Nat.le_of_succ_le_succ h
    refine .bind (operand_growsTo (expressionWithin_growsTo n m hnm .default)) fun left => ?_
    exact extendWithin_growsTo n m hnm power left

theorem extendWithin_growsTo : (n m : Nat) → n ≤ m → (power : Power) → (left : Expr) →
    GrowsTo (extendWithin table n power left) (extendWithin table m power left)
  | 0, _, _, power, left => by
    rw [extendWithin]
    exact .runaway
  | n + 1, m + 1, h, power, left => by
    rw [extendWithin, extendWithin]
    have hnm := Nat.le_of_succ_le_succ h
    refine .bind .currentKind fun kind => ?_
    cases table.power? kind with
    | none => exact .pure left
    | some next =>
      by_cases hrank : next.rank ≤ power.rank
      · simp only [if_pos hrank]
        exact .pure left
      · simp only [if_neg hrank]
        refine .bind (binary_growsTo left (expressionWithin_growsTo n m hnm next)) fun e => ?_
        exact extendWithin_growsTo n m hnm power e

end

end TypedCss.Grammar
