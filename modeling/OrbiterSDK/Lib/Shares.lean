import Mathlib.Algebra.Order.Field.Basic
import Mathlib.Algebra.Order.Ring.Rat
import Mathlib.Tactic.Linarith
import Mathlib.Tactic.Ring

/-! Shares of a pool of two assets. Whoever puts in or takes out gets what is due rounded
down, so that what a share is worth only grows. The worth of the whole pool is the product
of the two assets. -/

namespace Lib.Shares

/-- The product of the assets over the square of the supply. -/
def value (first second supply : ℕ) : ℚ := first * second / (supply : ℚ) ^ 2

variable {first second supply first' second' supply' amount shares balance balance' : ℕ}

theorem value_le_iff (some_ : 0 < supply) (some_' : 0 < supply') : value first second supply ≤ value first' second' supply' ↔
    first * second * supply' ^ 2 ≤ first' * second' * supply ^ 2 := by
  have square : (0 : ℚ) < (supply : ℚ) ^ 2 := pow_pos (Nat.cast_pos.mpr some_) 2
  have square' : (0 : ℚ) < (supply' : ℚ) ^ 2 := pow_pos (Nat.cast_pos.mpr some_') 2
  unfold value
  rw [div_le_div_iff₀ square square']
  exact_mod_cast Iff.rfl

/-- A pool is worth more per share if each of the two assets is. -/
theorem value_le_of_each (some_ : 0 < supply) (some_' : 0 < supply') (left : first * supply' ≤ first' * supply)
    (right : second * supply' ≤ second' * supply) : value first second supply ≤ value first' second' supply' := by
  rw [value_le_iff some_ some_']
  calc first * second * supply' ^ 2 = (first * supply') * (second * supply') := by ring
    _ ≤ (first' * supply) * (second' * supply) := Nat.mul_le_mul left right
    _ = first' * second' * supply ^ 2 := by ring

theorem value_le_of_product (some_ : 0 < supply) (product : first * second ≤ first' * second') :
    value first second supply ≤ value first' second' supply :=
  (value_le_iff some_ some_).mpr (Nat.mul_le_mul_right _ product)

/-- The shares for a deposit are its part of the pool at most. -/
theorem deposit_le (due : shares * first ≤ amount * supply) : first * (supply + shares) ≤ (first + amount) * supply := by
  rw [Nat.mul_add, Nat.add_mul, Nat.mul_comm first shares]
  exact Nat.add_le_add_left due _

/-- What is paid out for shares is their part of the balance at most, which may be more than
what the pool counted. -/
theorem withdraw_le (counted : first ≤ balance) (due : amount * supply ≤ shares * balance) (burnt : supply' + shares = supply)
    (paid : balance ≤ balance' + amount) : first * supply' ≤ balance' * supply := by
  have all : balance * supply ≤ balance' * supply + amount * supply := by
    rw [← Nat.add_mul]
    exact Nat.mul_le_mul_right _ paid
  have parts : balance * supply = balance * supply' + shares * balance := by
    rw [← burnt]
    ring
  have left : balance * supply' ≤ balance' * supply := by omega
  exact (Nat.mul_le_mul_right _ counted).trans left

/-- A trade with a fee in thousandths keeps at least the product. -/
theorem trade_le {fee fee' : ℕ} (kept : first * second * 1000 * 1000 ≤ (balance * 1000 - fee) * (balance' * 1000 - fee')) :
    first * second ≤ balance * balance' := by
  have free : (balance * 1000 - fee) * (balance' * 1000 - fee') ≤ balance * 1000 * (balance' * 1000) :=
    Nat.mul_le_mul (Nat.sub_le _ _) (Nat.sub_le _ _)
  have scaled : first * second * 1000000 ≤ balance * balance' * 1000000 := by
    calc first * second * 1000000 = first * second * 1000 * 1000 := by ring
      _ ≤ balance * 1000 * (balance' * 1000) := kept.trans free
      _ = balance * balance' * 1000000 := by ring
  exact Nat.le_of_mul_le_mul_right scaled (by decide)

end Lib.Shares
