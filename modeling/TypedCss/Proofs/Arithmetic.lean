import TypedCss.Proofs.WrapAround

/-!
# Laws of arithmetic

Whether an operation is defined, and in which measure, depends on the measures of its operands, and what it counts
depends on their words. So a law holds of values if it holds of words that wrap around, and of measures with both of
its sides defined or neither.
-/

namespace TypedCss

namespace Operator

theorem onMeasures_comm (op : Operator) (m n : Measure) : op.onMeasures m n = op.onMeasures n m := by
  cases op <;> cases m <;> cases n <;> rfl

theorem onMeasures_assoc (op : Operator) (m n k : Measure) :
    (op.onMeasures m n).bind (op.onMeasures · k) = (op.onMeasures n k).bind (op.onMeasures m ·) := by
  cases op <;> cases m <;> cases n <;> cases k <;> rfl

theorem onMeasures_distrib {op : Operator} (hop : op ≠ multiply) (m n k : Measure) :
    (op.onMeasures n k).bind (multiply.onMeasures m ·) =
      (multiply.onMeasures m n).bind fun u => (multiply.onMeasures m k).bind fun v => op.onMeasures u v := by
  cases op with
  | multiply => exact absurd rfl hop
  | add | subtract => cases m <;> cases n <;> cases k <;> rfl

/-- The operation on two outcomes, undefined if one of them is. -/
def onOutcomes (op : Operator) (x y : Option Value) : Option Value := x.bind fun a => y.bind fun b => op.apply a b

variable (op : Operator) (a b c : Value)

theorem apply_comm (hwords : ∀ x y, op.onWords x y = op.onWords y x) : op.apply a b = op.apply b a := by
  rcases number_or_unfit a with ⟨m, x, rfl⟩ | ha
  · rcases number_or_unfit b with ⟨n, y, rfl⟩ | hb
    · rw [apply_number, apply_number, onMeasures_comm, hwords]
    · rw [(hb op _).1, (hb op _).2]
  · rw [(ha op b).1, (ha op b).2]

theorem apply_assoc (hwords : ∀ x y z, op.onWords (op.onWords x y) z = op.onWords x (op.onWords y z)) :
    op.onOutcomes (op.apply a b) c = op.onOutcomes a (op.apply b c) := by
  rcases number_or_unfit a with ⟨m, x, rfl⟩ | ha
  · rcases number_or_unfit b with ⟨n, y, rfl⟩ | hb
    · rcases number_or_unfit c with ⟨k, z, rfl⟩ | hc
      · calc op.onOutcomes (op.apply (.number m x) (.number n y)) (some (.number k z))
          _ = ((op.onMeasures m n).bind (op.onMeasures · k)).map (.number · (op.onWords (op.onWords x y) z)) := by
            simp only [onOutcomes, apply_number, Option.bind_map, Option.map_bind, Option.bind_some, Function.comp_def]
          _ = ((op.onMeasures n k).bind (op.onMeasures m ·)).map (.number · (op.onWords x (op.onWords y z))) := by
            rw [onMeasures_assoc, hwords]
          _ = op.onOutcomes (some (.number m x)) (op.apply (.number n y) (.number k z)) := by
            simp only [onOutcomes, apply_number, Option.bind_map, Option.map_bind, Option.bind_some, Function.comp_def]
      · simp [onOutcomes, hc]
    · simp [onOutcomes, hb]
  · simp [onOutcomes, ha]

variable {op}

theorem apply_distrib (hop : op ≠ multiply)
    (hwords : ∀ x y z, multiply.onWords x (op.onWords y z) = op.onWords (multiply.onWords x y) (multiply.onWords x z)) :
    multiply.onOutcomes a (op.apply b c) = op.onOutcomes (multiply.apply a b) (multiply.apply a c) := by
  rcases number_or_unfit a with ⟨m, x, rfl⟩ | ha
  · rcases number_or_unfit b with ⟨n, y, rfl⟩ | hb
    · rcases number_or_unfit c with ⟨k, z, rfl⟩ | hc
      · calc multiply.onOutcomes (some (.number m x)) (op.apply (.number n y) (.number k z))
          _ = ((op.onMeasures n k).bind (multiply.onMeasures m ·)).map
              (.number · (multiply.onWords x (op.onWords y z))) := by
            simp only [onOutcomes, apply_number, Option.bind_map, Option.map_bind, Option.bind_some, Function.comp_def]
          _ = ((multiply.onMeasures m n).bind fun u => (multiply.onMeasures m k).bind fun v => op.onMeasures u v).map
              (.number · (op.onWords (multiply.onWords x y) (multiply.onWords x z))) := by
            rw [onMeasures_distrib hop, hwords]
          _ = op.onOutcomes (multiply.apply (.number m x) (.number n y))
              (multiply.apply (.number m x) (.number k z)) := by
            simp only [onOutcomes, apply_number, Option.bind_map, Option.map_bind, Function.comp_def]
      · simp [onOutcomes, hc]
    · simp [onOutcomes, hb]
  · simp [onOutcomes, ha]

end Operator

open Operator in
/-- Addition and multiplication of values are commutative and associative, and multiplication distributes over addition
and subtraction. Both sides of each law are the same value or are both undefined, also where words wrap around. -/
theorem arithmetic_obeys_ring_laws (a b c : Value) :
    add.apply a b = add.apply b a ∧
    multiply.apply a b = multiply.apply b a ∧
    add.onOutcomes (add.apply a b) c = add.onOutcomes a (add.apply b c) ∧
    multiply.onOutcomes (multiply.apply a b) c = multiply.onOutcomes a (multiply.apply b c) ∧
    multiply.onOutcomes a (add.apply b c) = add.onOutcomes (multiply.apply a b) (multiply.apply a c) ∧
    multiply.onOutcomes a (subtract.apply b c) = subtract.onOutcomes (multiply.apply a b) (multiply.apply a c) := by
  refine ⟨?_, ?_, ?_, ?_, ?_, ?_⟩
  · exact apply_comm add a b Int32.add_comm
  · exact apply_comm multiply a b Int32.mul_comm
  · exact apply_assoc add a b c Int32.add_assoc
  · exact apply_assoc multiply a b c Int32.mul_assoc
  · exact apply_distrib a b c (by decide) fun _ _ _ => Int32.mul_add
  · exact apply_distrib a b c (by decide) fun _ _ _ => Int32.mul_sub

/-- The sum wraps around to a negative number, and so do both products on the other side of the law. -/
example :
    let k : Value := .number .scalar 3
    let x : Value := .number .pixel 1500000000
    Operator.multiply.onOutcomes k (Operator.add.apply x x) = some (.number .pixel 410065408) ∧
      Operator.multiply.apply k x = some (.number .pixel 205032704) := by decide

end TypedCss
