/-!
Whole numbers of 32 bits in decimal notation.
-/

namespace TypedCss.Text

/-- The number that a non-empty run of ASCII digits writes. -/
def natural? (digits : List Char) : Option Nat :=
  if digits ≠ [] ∧ digits.all Char.isDigit then some (Nat.ofDigitChars 10 digits 0) else none

/-- The number in its 32-bit form, if it has one. -/
def toWord? (n : Int) : Option Int32 :=
  if Int32.minValue.toInt ≤ n ∧ n ≤ Int32.maxValue.toInt then some (Int32.ofInt n) else none

/-- Reads an optional sign and at least one digit, all within 32 bits. -/
def readWord? : List Char → Option Int32
  | '+' :: digits => (natural? digits).bind fun n => toWord? n
  | '-' :: digits => (natural? digits).bind fun n => toWord? (-n)
  | digits => (natural? digits).bind fun n => toWord? n

def writeWord (n : Int32) : String := n.toInt.repr

theorem toWord?_natCast (n : Nat) : toWord? n = if n < 2147483648 then some (Int32.ofNat n) else none := by
  have hmin : Int32.minValue.toInt = -2147483648 := by decide
  have hmax : Int32.maxValue.toInt = 2147483647 := by decide
  rw [toWord?, hmin, hmax, Int32.ofInt_eq_ofNat]
  by_cases h : n < 2147483648
  · rw [if_pos h, if_pos (by omega)]
  · rw [if_neg h, if_neg (by omega)]

/-- A run of digits has no sign. -/
theorem readWord?_digits {digits : List Char} (hne : digits ≠ []) (h : ∀ c ∈ digits, c.isDigit) :
    readWord? digits = toWord? (Nat.ofDigitChars 10 digits 0) := by
  have hnatural : natural? digits = some (Nat.ofDigitChars 10 digits 0) :=
    if_pos ⟨hne, List.all_eq_true.2 h⟩
  obtain ⟨c, cs, rfl⟩ := List.exists_cons_of_ne_nil hne
  have hc := h c List.mem_cons_self
  unfold readWord?
  split
  · simp_all [Char.isDigit]
  · simp_all [Char.isDigit]
  · rw [hnatural]
    rfl

end TypedCss.Text
