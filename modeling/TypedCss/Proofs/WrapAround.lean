import Mathlib.Algebra.Group.Int.Defs
import Mathlib.Algebra.Group.Nat.Defs
import TypedCss.Folding

/-!
# Folding is arithmetic modulo 2^32

Every operation wraps around on its own. The number that an expression folds to is nevertheless its value over
the integers, reduced once into the range of 32-bit words, because reduction commutes with `+`, `-` and `*`.
-/

namespace TypedCss

namespace Value

/-- How many units of its measure a number counts. -/
def count? : Value → Option Int
  | number _ n => some n.toInt
  | _ => none

/-- What a number counts is a word already. -/
theorem bmod_of_count? {v : Value} {x : Int} (h : v.count? = some x) : x.bmod (2 ^ 32) = x := by
  cases v with
  | number m n =>
    obtain rfl := Option.some.inj h
    exact n.toInt_bmod
  | flag => cases h
  | color => cases h

end Value

namespace Operator

/-- The operation over the integers. -/
def exact : Operator → Int → Int → Int
  | add, x, y => x + y
  | subtract, x, y => x - y
  | multiply, x, y => x * y

/-- Reduction of the operands makes no difference to the reduced outcome. -/
theorem exact_bmod (op : Operator) (x y : Int) (size : Nat) :
    (op.exact (x.bmod size) (y.bmod size)).bmod size = (op.exact x y).bmod size := by
  cases op with
  | add => rw [exact, exact, Int.bmod_add_bmod, Int.add_bmod_bmod]
  | subtract => rw [exact, exact, Int.bmod_sub_bmod, Int.sub_bmod_bmod]
  | multiply => rw [exact, exact, Int.bmod_mul_bmod, Int.mul_bmod_bmod]

/-- The operation on words, which wraps around. -/
def onWords : Operator → Int32 → Int32 → Int32
  | add, x, y => x + y
  | subtract, x, y => x - y
  | multiply, x, y => x * y

theorem toInt_onWords (op : Operator) (x y : Int32) :
    (op.onWords x y).toInt = (op.exact x.toInt y.toInt).bmod (2 ^ 32) := by
  cases op with
  | add => exact Int32.toInt_add x y
  | subtract => exact Int32.toInt_sub x y
  | multiply => exact Int32.toInt_mul x y

/-- The measure of the outcome, if operands of these measures fit together. -/
def onMeasures : Operator → Measure → Measure → Option Measure
  | multiply, .scalar, n => some n
  | multiply, m, .scalar => some m
  | multiply, _, _ => none
  | _, m, n => if m = n then some m else none

theorem apply_number (op : Operator) (m n : Measure) (x y : Int32) :
    op.apply (.number m x) (.number n y) = (op.onMeasures m n).map (.number · (op.onWords x y)) := by
  cases op with
  | add | subtract => by_cases h : m = n <;> simp [apply, onMeasures, onWords, h]
  | multiply => cases m <;> cases n <;> rfl

/-- A value that is no number fits nothing. -/
theorem number_or_unfit (v : Value) : (∃ m x, v = .number m x) ∨
    ∀ (op : Operator) (w : Value), op.apply v w = none ∧ op.apply w v = none := by
  cases v with
  | number m x => exact .inl ⟨m, x, rfl⟩
  | flag | color => exact .inr fun op w => by cases op <;> cases w <;> exact ⟨rfl, rfl⟩

/-- Two operands that fit together are numbers, and what becomes of the numbers does not depend on their measures. -/
theorem apply_eq_some {op : Operator} {a b v : Value} (h : op.apply a b = some v) :
    ∃ m n unit x y, a = .number m x ∧ b = .number n y ∧ v = .number unit (op.onWords x y) := by
  rcases number_or_unfit a with ⟨m, x, rfl⟩ | ha
  · rcases number_or_unfit b with ⟨n, y, rfl⟩ | hb
    · rw [apply_number] at h
      obtain ⟨unit, -, rfl⟩ := Option.map_eq_some_iff.1 h
      exact ⟨m, n, unit, x, y, rfl, rfl, rfl⟩
    · rw [(hb op _).2] at h
      cases h
  · rw [(ha op b).1] at h
    cases h

end Operator

namespace Expr

/-- The value of the expression over the integers, where each variable counts what is stored for it. -/
def exactValue? (values : Values) : Expr → Option Int
  | literal v _ => v.count?
  | reference x _ => (values.resolve? x).bind Value.count?
  | operation op l r _ => do return op.exact (← l.exactValue? values) (← r.exactValue? values)

/-- An expression with a number for its value has a value over the integers, and the number is its reduction. -/
theorem exactValue?_of_eval {values : Values} {e : Expr} {v : Value} {x : Int} (h : e.eval values = .ok v)
    (hx : v.count? = some x) : ∃ z, e.exactValue? values = some z ∧ x = z.bmod (2 ^ 32) := by
  induction e generalizing v x with
  | literal w n =>
    obtain rfl := Except.ok.inj h
    exact ⟨x, hx, (Value.bmod_of_count? hx).symm⟩
  | reference y n =>
    refine ⟨x, ?_, (Value.bmod_of_count? hx).symm⟩
    rw [exactValue?, eval_reference_eq_ok.1 h, Option.bind_some, hx]
  | operation op l r n ihl ihr =>
    obtain ⟨a, b, hl, hr, hv⟩ := eval_operation_eq_ok.1 h
    obtain ⟨m, n, unit, i, j, rfl, rfl, rfl⟩ := Operator.apply_eq_some hv
    obtain ⟨y, hy, hi⟩ := ihl hl rfl
    obtain ⟨z, hz, hj⟩ := ihr hr rfl
    refine ⟨op.exact y z, ?_, ?_⟩
    · rw [exactValue?, hy, hz]
      rfl
    · obtain rfl := Option.some.inj hx
      rw [Operator.toInt_onWords, hi, hj, Operator.exact_bmod]

end Expr

/-- An expression that folds to a number has a value over the integers, and the number is this value reduced
modulo 2^32 into the range of words. In particular it is the value itself if that is a word, whatever overflows
on the way. -/
theorem folding_is_exact_modulo_words {values : Values} {e : Expr} {m : Measure} {n : Int32}
    (h : e.eval values = .ok (.number m n)) :
    ∃ z, e.exactValue? values = some z ∧ n.toInt = z.bmod (2 ^ 32) ∧
      (-2 ^ 31 ≤ z → z < 2 ^ 31 → n.toInt = z) := by
  obtain ⟨z, hz, hn⟩ := Expr.exactValue?_of_eval h rfl
  refine ⟨z, hz, hn, ?_⟩
  intro hlower hupper
  rw [hn]
  exact Int.bmod_eq_of_le_mul_two (by omega) (by omega)

/-- Both products leave the range of words and their difference lies in it. -/
theorem folding_is_exact_modulo_words_overflow :
    let n : Note := .clear .nowhere
    let x : Expr := .reference "X" n
    let values : Values := ⟨[[("X", .number .pixel 2000000000)]], [("K", .number .scalar 3)]⟩
    let e : Expr := .operation .subtract (.operation .multiply (.reference "K" n) x n)
      (.operation .multiply x (.literal (.number .scalar 2) n) n) n
    e.eval values = .ok (.number .pixel 2000000000) ∧
      ∃ z, e.exactValue? values = some z ∧ (2000000000 : Int32).toInt = z.bmod (2 ^ 32) ∧
        (-2 ^ 31 ≤ z → z < 2 ^ 31 → (2000000000 : Int32).toInt = z) := by
  intro n x values e
  have heval : e.eval values = .ok (.number .pixel 2000000000) := rfl
  exact ⟨heval, folding_is_exact_modulo_words heval⟩

end TypedCss
