import Mathlib.Algebra.Group.Pi.Basic
import Mathlib.Data.Int.Cast.Basic
import Mathlib.Tactic.Abel
import Mathlib.Tactic.Common

/-! Books of several assets in the hands of several holders. What a sequence of payments does
to them is the sum of what each of them does, so that what only passes through someone's
hands cancels. -/

namespace Lib

/-- By how much each holder's amount of each asset changes. -/
abbrev Flow (α η : Type) := α → η → ℤ

namespace Flow
variable {α η : Type} [DecidableEq α] [DecidableEq η]

def give (asset : α) (holder : η) (amount : ℕ) : Flow α η := fun other someone =>
  if other = asset ∧ someone = holder then (amount : ℤ) else 0

def pay (asset : α) (source target : η) (amount : ℕ) : Flow α η := give asset target amount - give asset source amount

variable {asset other : α} {holder source target : η} {amount more : ℕ}

theorem give_here : give asset holder amount asset holder = amount := if_pos ⟨rfl, rfl⟩

theorem give_asset (apart : other ≠ asset) : give asset holder amount other target = 0 := if_neg fun same => apart same.1

theorem give_holder (apart : target ≠ holder) : give asset holder amount other target = 0 := if_neg fun same => apart same.2

theorem give_nonneg : 0 ≤ give asset holder amount other target := by
  unfold give
  split
  · exact Int.natCast_nonneg amount
  · exact Int.le_refl 0

@[simp] theorem give_zero : give asset holder 0 = 0 := by
  funext other someone
  unfold give
  rw [Nat.cast_zero, ite_self]
  rfl

theorem give_add : give asset holder (amount + more) = give asset holder amount + give asset holder more := by
  funext other someone
  change give asset holder (amount + more) other someone = give asset holder amount other someone + give asset holder more other someone
  unfold give
  split
  · exact Nat.cast_add amount more
  · rfl

theorem pay_apply : pay asset source target amount other holder =
    give asset target amount other holder - give asset source amount other holder := rfl

@[simp] theorem pay_zero : pay asset source target 0 = 0 := by rw [pay, give_zero, give_zero, sub_zero]

theorem pay_add : pay asset source target (amount + more) = pay asset source target amount + pay asset source target more := by
  unfold pay
  rw [give_add, give_add]
  abel

/-- A payment to or from others. -/
theorem pay_holder (notTarget : holder ≠ target) (notSource : holder ≠ source) : pay asset source target amount other holder = 0 := by
  rw [pay_apply, give_holder notTarget, give_holder notSource, sub_zero]

theorem pay_asset (apart : other ≠ asset) : pay asset source target amount other holder = 0 := by
  rw [pay_apply, give_asset apart, give_asset apart, sub_zero]

/-! What is left with a holder, over all assets -/

theorem give_none_iff : (∀ other, give asset holder amount other target = 0) ↔ (target = holder → amount = 0) := by
  constructor
  · intro nothing same
    have here := nothing asset
    rw [same, give_here] at here
    exact Int.natCast_eq_zero.mp here
  · intro free other
    by_cases same : target = holder
    · rw [free same, give_zero]
      rfl
    · exact give_holder same

omit [DecidableEq α] [DecidableEq η] in
theorem add_none_iff {first second : Flow α η} (early : ∀ asset, 0 ≤ first asset holder) (late : ∀ asset, 0 ≤ second asset holder) :
    (∀ asset, (first + second) asset holder = 0) ↔ (∀ asset, first asset holder = 0) ∧ ∀ asset, second asset holder = 0 := by
  have apart : ∀ asset, (first + second) asset holder = 0 ↔ first asset holder = 0 ∧ second asset holder = 0 := by
    intro asset
    change first asset holder + second asset holder = 0 ↔ _
    have := early asset
    have := late asset
    omega
  simp only [apart, forall_and]

/-- What comes in of one asset goes out again, and nothing of the others comes in. -/
theorem balance_none_iff {rest : Flow α η} {spent : ℕ} (elsewhere : rest asset holder = 0) :
    (∀ other, (give asset holder amount - give asset holder spent + rest) other holder = 0) ↔
      amount = spent ∧ ∀ other, rest other holder = 0 := by
  have apart : ∀ other, (give asset holder amount - give asset holder spent + rest) other holder =
      give asset holder amount other holder - give asset holder spent other holder + rest other holder := fun _ => rfl
  simp only [apart]
  constructor
  · intro nothing
    have here := nothing asset
    rw [give_here, give_here, elsewhere] at here
    have same : amount = spent := by omega
    refine ⟨same, fun other => ?_⟩
    have there := nothing other
    rw [same] at there
    omega
  · rintro ⟨same, nothing⟩ other
    rw [same, nothing]
    omega

end Flow

/-- The books before and after a flow. -/
def Books {α η : Type} (flow : Flow α η) (before after : α → η → ℕ) : Prop :=
  ∀ asset holder, (after asset holder : ℤ) = before asset holder + flow asset holder

namespace Books
variable {α η : Type} {first second : Flow α η} {before between after : α → η → ℕ}

theorem refl (before : α → η → ℕ) : Books 0 before before := fun _ _ => (add_zero _).symm

theorem trans (early : Books first before between) (late : Books second between after) : Books (first + second) before after := by
  intro asset holder
  rw [late, early]
  exact add_assoc _ _ _

/-- The books tell the flow. -/
theorem unique (one : Books first before after) (other : Books second before after) : first = second := by
  funext asset holder
  exact add_left_cancel ((one asset holder).symm.trans (other asset holder))

theorem congr (books : Books first before after) (same : first = second) : Books second before after := same ▸ books

end Books
end Lib
