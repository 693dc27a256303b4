import Mathlib.Data.List.Nodup
import Mathlib.Tactic.Common

/-! Lists of values with keys, where no key has more values than a quota. -/

namespace Lib
variable {α κ : Type} [DecidableEq κ] (key : α → κ)

/-- The values with one key. -/
def withKey (values : List α) (k : κ) : List α := values.filter fun value => key value = k

variable {key} {quota : Nat}

theorem withKey_of_ne {values : List α} {k other : κ} (apart : k ≠ other) :
    withKey key (values.filter fun value => key value ≠ other) k = withKey key values k := by
  unfold withKey
  rw [List.filter_filter]
  apply List.filter_congr
  intro value _
  by_cases same : key value = k
  · simp [same, apart]
  · simp [same]

theorem length_split (values : List α) (k : κ) :
    values.length = (withKey key values k).length + (values.filter fun value => key value ≠ k).length := by
  have split := List.length_eq_length_filter_add (l := values) fun value => key value = k
  rw [split, withKey]
  congr 2
  apply List.filter_congr
  intro value _
  by_cases same : key value = k <;> simp [same]

/-- There are no more values than the quotas of all keys together, and when there are as many, each key has
as many as it may have. -/
theorem quotas (keys : List κ) : ∀ {values : List α}, keys.Nodup → (∀ value ∈ values, key value ∈ keys) →
    (∀ k ∈ keys, (withKey key values k).length ≤ quota) →
    values.length ≤ quota * keys.length ∧ (quota * keys.length ≤ values.length → ∀ k ∈ keys, (withKey key values k).length = quota) := by
  induction keys with
  | nil =>
    intro values _ inside _
    have empty : values = [] := List.eq_nil_iff_forall_not_mem.mpr fun value member => List.not_mem_nil (inside value member)
    rw [empty]
    exact ⟨Nat.le_refl _, fun _ k member => absurd member List.not_mem_nil⟩
  | cons first rest ih =>
    intro values nodup inside bounded
    obtain ⟨new, nodup⟩ := List.nodup_cons.mp nodup
    have apart {k : κ} (member : k ∈ rest) : k ≠ first := fun same => new (same ▸ member)
    have size : values.length = (withKey key values first).length + _ := length_split values first
    have here := bounded first List.mem_cons_self
    have others := @ih (values.filter fun value => key value ≠ first) nodup
    obtain ⟨below, reached⟩ := others
      (fun value member => by
        obtain ⟨member, other⟩ := List.mem_filter.mp member
        exact (List.mem_cons.mp (inside value member)).resolve_left (of_decide_eq_true other))
      (fun k member => by
        rw [withKey_of_ne (apart member)]
        exact bounded k (List.mem_cons_of_mem _ member))
    rw [List.length_cons, Nat.mul_succ]
    refine ⟨by omega, fun full k member => ?_⟩
    cases List.mem_cons.mp member with
    | inl same =>
      rw [same]
      omega
    | inr later =>
      rw [← withKey_of_ne (apart later)]
      exact reached (by omega) k later

end Lib
