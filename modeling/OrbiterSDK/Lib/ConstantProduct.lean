import Mathlib.Tactic.Ring
import Mathlib.Tactic.Common

/-! Trades with a pool of two assets that keep the product of what it holds. Of each input only a
`part` in `whole` counts, and what is paid out is rounded down. -/

namespace Lib.ConstantProduct

/-- What an amount of the first asset gets. -/
def output (part whole first second amount : ℕ) : ℕ := amount * part * second / (first * whole + amount * part)

/-- What an amount of the second asset is asked for. -/
def input (part whole first second amount : ℕ) : ℕ := first * amount * whole / ((second - amount) * part) + 1

variable {part whole first second amount other : ℕ}

theorem le_output_iff (some_ : 0 < first * whole + amount * part) (below : other ≤ second) :
    other ≤ output part whole first second amount ↔ first * other * whole ≤ amount * ((second - other) * part) := by
  obtain ⟨rest, rfl⟩ := Nat.exists_eq_add_of_le below
  have left : other * (first * whole + amount * part) = first * other * whole + amount * part * other := by ring
  have right : amount * part * (other + rest) = amount * (rest * part) + amount * part * other := by ring
  rw [output, Nat.le_div_iff_mul_le some_, left, right, Nat.add_sub_cancel_left]
  exact Nat.add_le_add_iff_right

theorem output_lt (some_ : 0 < first * whole) (held : 0 < second) : output part whole first second amount < second := by
  apply Nat.div_lt_of_lt_mul
  exact Nat.mul_lt_mul_of_pos_right (by omega) held

/-- What is asked for an amount gets at least that. -/
theorem le_output_input (fee : 0 < part) (below : amount < second) :
    amount ≤ output part whole first second (input part whole first second amount) := by
  have some_ : 0 < (second - amount) * part := Nat.mul_pos (Nat.sub_pos_of_lt below) fee
  have asked : 0 < input part whole first second amount * part := Nat.mul_pos (Nat.succ_pos _) fee
  apply (le_output_iff (by omega) below.le).mpr
  have rounded : first * amount * whole < (second - amount) * part * input part whole first second amount :=
    Nat.lt_mul_div_succ (first * amount * whole) some_
  rw [Nat.mul_comm (input part whole first second amount)]
  exact rounded.le

/-- Two less do not. One less may still do, where the division leaves no rest. -/
theorem output_input_lt (fee : 0 < part) (below : amount < second) (more : 2 < input part whole first second amount) :
    output part whole first second (input part whole first second amount - 2) < amount := by
  have some_ : 0 < (second - amount) * part := Nat.mul_pos (Nat.sub_pos_of_lt below) fee
  have asked : 0 < (input part whole first second amount - 2) * part := Nat.mul_pos (by omega) fee
  by_contra enough
  have paid := (le_output_iff (by omega) below.le).mp (Nat.not_lt.mp enough)
  have rounded := Nat.div_mul_le_self (first * amount * whole) ((second - amount) * part)
  have fewer : input part whole first second amount - 2 < first * amount * whole / ((second - amount) * part) := by
    unfold input at more ⊢
    omega
  exact absurd (paid.trans_lt (Nat.mul_lt_mul_of_pos_right fewer some_)) (Nat.not_lt.mpr rounded)

/-- The product is kept, in parts of the whole. -/
theorem product_le_output : first * second * whole ≤
    (first * whole + amount * part) * (second - output part whole first second amount) := by
  have rounded : output part whole first second amount * (first * whole + amount * part) ≤ amount * part * second := Nat.div_mul_le_self _ _
  have split : (first * whole + amount * part) * second = first * second * whole + amount * part * second := by ring
  rw [Nat.mul_sub, Nat.mul_comm _ (output part whole first second amount), split]
  omega

/-- The amount of the second asset that goes with one of the first. -/
def proportional (first second amount : ℕ) : ℕ := amount * second / first

/-- If one side of a deposit is not enough for the other one, then the other one is enough for it. -/
theorem proportional_le (short : other < proportional first second amount) :
    proportional second first other ≤ amount := by
  have rounded : proportional first second amount * first ≤ amount * second := Nat.div_mul_le_self _ _
  have less : other * first ≤ amount * second := (Nat.mul_le_mul_right _ short.le).trans rounded
  apply Nat.div_le_of_le_mul
  rw [Nat.mul_comm second]
  exact less

end Lib.ConstantProduct
