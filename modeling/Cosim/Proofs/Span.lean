import Cosim.Proofs.Number.Rounding
import Cosim.Span

/-!
# Seconds that are spans

A number of seconds has a span unless it is infinite or at least `2 ^ 64`.  Rounding to nanoseconds
makes no difference, since doubles that great are whole numbers.
-/

namespace Cosim

/-- A number that is infinite or at least `2 ^ 64`; a finite number stands for its coefficient times
two to `exponent - 1074`. -/
def Double.Overlong (x : Double) : Prop :=
  x.isNaN = false ∧ x.isNegative = false ∧
    (x.isInfinite = true ∨ 2 ^ 64 * 2 ^ 1074 ≤ x.coefficient * 2 ^ x.exponent)

instance (x : Double) : Decidable x.Overlong :=
  inferInstanceAs (Decidable (_ ∧ _ ∧ (_ ∨ _)))

namespace Span

/-- What is less than `2 ^ 64` and has 53 bits is less by `2 ^ 11` at least, whatever the unit. -/
theorem mul_pow_le {c e p : ℕ} (hc : c < 2 ^ 53) (h : c * 2 ^ e < 2 ^ 64 * 2 ^ p) :
  c * 2 ^ e ≤ (2 ^ 64 - 2 ^ 11) * 2 ^ p
  := by
  by_cases he : e ≤ 11 + p
  · calc c * 2 ^ e
      _ ≤ (2 ^ 53 - 1) * 2 ^ (11 + p) := by
        apply Nat.mul_le_mul
        · omega
        · apply Nat.pow_le_pow_right Nat.two_pos he
      _ = (2 ^ 64 - 2 ^ 11) * 2 ^ p := by
        rw [Nat.pow_add, ← Nat.mul_assoc]
        rfl
  · obtain ⟨k, rfl⟩ := Nat.exists_eq_add_of_le (Nat.le_of_not_le he)
    have hsplit : c * 2 ^ (11 + p + k) = c * 2 ^ k * 2 ^ 11 * 2 ^ p := by
      rw [Nat.pow_add, Nat.pow_add]
      ac_rfl
    rw [hsplit] at h ⊢
    apply Nat.mul_le_mul_right
    have hbelow := Nat.lt_of_mul_lt_mul_right h
    omega

theorem div_le_roundRatio (a b : ℕ) :
  a / b ≤ Double.roundRatio a b
  := by
  simp only [Double.roundRatio]
  split <;> omega

theorem roundRatio_le_div (a b : ℕ) :
  Double.roundRatio a b ≤ a / b + 1
  := by
  simp only [Double.roundRatio]
  split <;> omega

/-- Rounding to nanoseconds does not reach `2 ^ 64` seconds from below. -/
theorem le_roundRatio_iff {c e p : ℕ} (hc : c < 2 ^ 53) :
  Nat.pow 2 64 * Nat.pow 10 9 ≤
      Double.roundRatio (c * Nat.pow 2 e * Nat.pow 10 9) (Nat.pow 2 p) ↔
    2 ^ 64 * 2 ^ p ≤ c * 2 ^ e
  := by
  simp only [Nat.pow_eq]
  constructor
  · intro h
    by_contra hbelow
    have hgap := mul_pow_le hc (Nat.lt_of_not_le hbelow)
    have hquotient : c * 2 ^ e * 10 ^ 9 / 2 ^ p ≤ (2 ^ 64 - 2 ^ 11) * 10 ^ 9 := by
      apply Nat.div_le_of_le_mul
      calc c * 2 ^ e * 10 ^ 9
        _ ≤ (2 ^ 64 - 2 ^ 11) * 2 ^ p * 10 ^ 9 := Nat.mul_le_mul_right _ hgap
        _ = 2 ^ p * ((2 ^ 64 - 2 ^ 11) * 10 ^ 9) := by ac_rfl
    have hround := roundRatio_le_div (c * 2 ^ e * 10 ^ 9) (2 ^ p)
    omega
  · intro h
    apply Nat.le_trans _ (div_le_roundRatio _ _)
    rw [Nat.le_div_iff_mul_le (Nat.two_pow_pos p)]
    calc 2 ^ 64 * 10 ^ 9 * 2 ^ p
      _ = 2 ^ 64 * 2 ^ p * 10 ^ 9 := by ac_rfl
      _ ≤ c * 2 ^ e * 10 ^ 9 := Nat.mul_le_mul_right _ h

/-- A number that is not negative has a span exactly if it is not overlong. -/
theorem ofSeconds?_eq_none_iff {x : Double} (hnan : x.isNaN = false)
    (hnegative : x.isNegative = false) :
  ofSeconds? x = none ↔ x.Overlong
  := by
  rw [Double.Overlong, ofSeconds?]
  simp only [hnan, hnegative, le_roundRatio_iff x.coefficient_lt, Bool.false_or, Bool.false_and,
    Bool.false_eq_true, if_false, true_and]
  cases x.isInfinite with
  | true => simp only [if_true, true_or]
  | false =>
    simp only [Bool.false_eq_true, if_false, false_or, ite_eq_left_iff, reduceCtorEq, imp_false,
      not_not]

end Span

end Cosim
