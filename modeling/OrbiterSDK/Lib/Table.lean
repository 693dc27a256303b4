import Mathlib.Algebra.BigOperators.Group.Finset.Basic
import Mathlib.Algebra.BigOperators.Group.Finset.Piecewise
import Mathlib.Algebra.Order.BigOperators.Group.Finset
import Mathlib.Algebra.Ring.Nat
import Mathlib.Tactic.Common

/-! Maps whose subscript operator inserts a default entry, with sums over their
entries. Reading outside the key set yields the default, so a subscript that only
reads changes the key set and nothing else. -/

namespace Lib

/-- A finite map together with the fact that it is default outside its keys. -/
@[ext] structure Table (κ ν : Type) [Inhabited ν] where
  keys : Finset κ
  value : κ → ν
  absent : ∀ key, key ∉ keys → value key = default

namespace Table
variable {κ ν : Type} [Inhabited ν]

def empty : Table κ ν := ⟨∅, fun _ => default, fun _ _ => rfl⟩

instance : Inhabited (Table κ ν) := ⟨empty⟩

@[simp] theorem empty_keys : (empty : Table κ ν).keys = ∅ := rfl

/-- The sum of the entries under a weight that gives the default entry nothing. -/
def total (weight : ν → ℕ) (table : Table κ ν) : ℕ := ∑ key ∈ table.keys, weight (table.value key)

theorem total_eq_sum {weight : ν → ℕ} (zero : weight default = 0) (table : Table κ ν) {span : Finset κ}
    (covers : table.keys ⊆ span) : table.total weight = ∑ key ∈ span, weight (table.value key) := by
  refine Finset.sum_subset covers fun key _ outside => ?_
  rw [table.absent key outside, zero]

theorem weight_le_total {weight : ν → ℕ} (zero : weight default = 0) (table : Table κ ν) (key : κ) :
    weight (table.value key) ≤ table.total weight := by
  by_cases inside : key ∈ table.keys
  · exact Finset.single_le_sum (f := fun key => weight (table.value key)) (fun _ _ => Nat.zero_le _) inside
  · rw [table.absent key inside, zero]
    exact Nat.zero_le _

variable [DecidableEq κ]

def contains (table : Table κ ν) (key : κ) : Bool := key ∈ table.keys

def find (table : Table κ ν) (key : κ) : Option ν := if key ∈ table.keys then some (table.value key) else none

/-- `table[key]` used as an lvalue. -/
def modify (table : Table κ ν) (key : κ) (update : ν → ν) : Table κ ν where
  keys := insert key table.keys
  value := Function.update table.value key (update (table.value key))
  absent other outside := by
    rw [Finset.mem_insert, not_or] at outside
    rw [Function.update_of_ne outside.1]
    exact table.absent other outside.2

def erase (table : Table κ ν) (key : κ) : Table κ ν where
  keys := table.keys.erase key
  value := Function.update table.value key default
  absent other outside := by
    by_cases same : other = key
    · rw [same, Function.update_self]
    · rw [Function.update_of_ne same]
      exact table.absent other fun inside => outside (Finset.mem_erase.mpr ⟨same, inside⟩)

/-- Write one value to every key of a finite set, as a loop over distinct keys does. -/
def assign (table : Table κ ν) (targets : Finset κ) (update : κ → ν → ν) : Table κ ν where
  keys := table.keys ∪ targets
  value key := if key ∈ targets then update key (table.value key) else table.value key
  absent key outside := by
    rw [Finset.mem_union, not_or] at outside
    rw [if_neg outside.2]
    exact table.absent key outside.1

/-- Erase every key of a finite set. -/
def eraseKeys (table : Table κ ν) (targets : Finset κ) : Table κ ν where
  keys := table.keys \ targets
  value key := if key ∈ targets then default else table.value key
  absent key outside := by
    by_cases erased : key ∈ targets
    · rw [if_pos erased]
    · rw [if_neg erased]
      exact table.absent key fun inside => outside (Finset.mem_sdiff.mpr ⟨inside, erased⟩)

@[simp] theorem modify_keys (table : Table κ ν) (key : κ) (update : ν → ν) :
    (table.modify key update).keys = insert key table.keys := rfl

theorem modify_value (table : Table κ ν) (key other : κ) (update : ν → ν) :
    (table.modify key update).value other =
      if other = key then update (table.value key) else table.value other := by
  simp only [modify, Function.update_apply]

@[simp] theorem modify_value_self (table : Table κ ν) (key : κ) (update : ν → ν) :
    (table.modify key update).value key = update (table.value key) := by
  rw [modify_value, if_pos rfl]

theorem modify_value_of_ne (table : Table κ ν) {key other : κ} (update : ν → ν) (apart : other ≠ key) :
    (table.modify key update).value other = table.value other := by
  rw [modify_value, if_neg apart]

/-- A projection that the update respects reads the same everywhere. -/
theorem modify_project {β : Type} (project : ν → β) (table : Table κ ν) (key other : κ) {update : ν → ν}
    (kept : ∀ value, project (update value) = project value) :
    project ((table.modify key update).value other) = project (table.value other) := by
  rw [modify_value]
  split
  case isTrue same => rw [kept, same]
  case isFalse => rfl

theorem find_modify (table : Table κ ν) (key other : κ) (update : ν → ν) :
    (table.modify key update).find other = if other = key then some (update (table.value key)) else table.find other := by
  by_cases same : other = key
  · simp [find, modify, same]
  · simp [find, modify, same, Function.update_of_ne]

theorem find_erase (table : Table κ ν) (key other : κ) :
    (table.erase key).find other = if other = key then none else table.find other := by
  by_cases same : other = key
  · simp [find, erase, same]
  · simp [find, erase, same, Function.update_of_ne]

/-- Erasing every key on a list. -/
theorem find_eraseAll (table : Table κ ν) (erased : List κ) (key : κ) :
    (erased.foldl erase table).find key = if key ∈ erased then none else table.find key := by
  induction erased generalizing table with
  | nil => rfl
  | cons head rest ih =>
    rw [List.foldl_cons, ih, find_erase]
    by_cases here : key = head <;> simp [here]

theorem find_eraseKeys (table : Table κ ν) (targets : Finset κ) (key : κ) :
    (table.eraseKeys targets).find key = if key ∈ targets then none else table.find key := by
  by_cases erased : key ∈ targets
  · simp [find, eraseKeys, erased]
  · simp [find, eraseKeys, erased]

theorem find_assign (table : Table κ ν) (targets : Finset κ) (update : κ → ν → ν) (key : κ) :
    (table.assign targets update).find key = if key ∈ targets then some (update key (table.value key)) else table.find key := by
  by_cases assigned : key ∈ targets
  · simp [find, assign, assigned]
  · simp [find, assign, assigned]

theorem find_isSome (table : Table κ ν) (key : κ) : (table.find key).isSome ↔ key ∈ table.keys := by
  unfold find
  split <;> simp_all

/-- Two tables in which every key finds the same are the same. -/
theorem eq_of_find {first second : Table κ ν} (same : ∀ key, first.find key = second.find key) : first = second := by
  have keys : first.keys = second.keys := by
    ext key
    rw [← find_isSome, ← find_isSome, same]
  have value : first.value = second.value := by
    funext key
    have here := same key
    by_cases inside : key ∈ first.keys
    · have insideToo : key ∈ second.keys := keys ▸ inside
      simpa [find, inside, insideToo] using here
    · have outsideToo : key ∉ second.keys := keys ▸ inside
      rw [first.absent key inside, second.absent key outsideToo]
  exact Table.ext keys value

theorem find_eq_some {table : Table κ ν} {key : κ} {value : ν} (found : table.find key = some value) :
    key ∈ table.keys ∧ table.value key = value := by
  unfold find at found
  split at found
  case isTrue inside => exact ⟨inside, Option.some.inj found⟩
  case isFalse => cases found

theorem find_eq_none {table : Table κ ν} {key : κ} (missing : table.find key = none) : table.value key = default := by
  apply table.absent
  intro inside
  rw [find, if_pos inside] at missing
  cases missing

/-- Looking an entry up with a default of the table's own. -/
theorem find_getD (table : Table κ ν) (key : κ) : (table.find key).getD default = table.value key := by
  cases found : table.find key with
  | none => exact (find_eq_none found).symm
  | some value => exact (find_eq_some found).2.symm

theorem total_congr {weight : ν → ℕ} (zero : weight default = 0) {first second : Table κ ν}
    (same : ∀ key, weight (first.value key) = weight (second.value key)) :
    first.total weight = second.total weight := by
  have left : first.keys ⊆ first.keys ∪ second.keys := Finset.subset_union_left
  have right : second.keys ⊆ first.keys ∪ second.keys := Finset.subset_union_right
  rw [total_eq_sum zero first left, total_eq_sum zero second right]
  exact Finset.sum_congr rfl fun key _ => same key

/-- Two tables that weigh the same up to one amount at one key on each side. -/
theorem total_shift {weight : ν → ℕ} (zero : weight default = 0) {first second : Table κ ν} {left right : κ}
    {lost won : ℕ} (shift : ∀ key, weight (first.value key) + (if key = left then lost else 0) =
      weight (second.value key) + if key = right then won else 0) :
    first.total weight + lost = second.total weight + won := by
  let span := insert left (insert right (first.keys ∪ second.keys))
  have leftIn : left ∈ span := Finset.mem_insert_self _ _
  have rightIn : right ∈ span := Finset.mem_insert_of_mem (Finset.mem_insert_self _ _)
  have both : first.keys ∪ second.keys ⊆ span := (Finset.subset_insert _ _).trans (Finset.subset_insert _ _)
  rw [total_eq_sum zero first (Finset.subset_union_left.trans both),
    total_eq_sum zero second (Finset.subset_union_right.trans both)]
  have sums := Finset.sum_congr (rfl : span = span) fun key _ => shift key
  rwa [Finset.sum_add_distrib, Finset.sum_add_distrib, Finset.sum_ite_eq', Finset.sum_ite_eq', if_pos leftIn,
    if_pos rightIn] at sums

/-- One entry is replaced by another one. -/
theorem total_modify {weight : ν → ℕ} (zero : weight default = 0) (table : Table κ ν) (key : κ) (update : ν → ν) :
    (table.modify key update).total weight + weight (table.value key) =
      table.total weight + weight (update (table.value key)) := by
  have shift : ∀ other, weight ((table.modify key update).value other) + (if other = key then weight (table.value key) else 0) =
      weight (table.value other) + if other = key then weight (update (table.value key)) else 0 := by
    intro other
    rw [modify_value]
    by_cases same : other = key
    · rw [if_pos same, if_pos same, if_pos same, same, Nat.add_comm]
    · rw [if_neg same, if_neg same, if_neg same]
  exact total_shift zero shift

/-- Amounts that keys lose to other keys do not change the total. -/
theorem total_transfers {α : Type} {weight : ν → ℕ} (zero : weight default = 0) {first second : Table κ ν} {source target : α → κ}
    {amount : α → ℕ} (moves : List α)
    (shift : ∀ key, weight (first.value key) + (moves.map fun move => if key = source move then amount move else 0).sum =
      weight (second.value key) + (moves.map fun move => if key = target move then amount move else 0).sum) :
    first.total weight = second.total weight := by
  have moved : ∀ {side : α → κ} {span : Finset κ} (moves : List α), (moves.map side).toFinset ⊆ span →
      ∑ key ∈ span, (moves.map fun move => if key = side move then amount move else 0).sum = (moves.map amount).sum := by
    intro side span moves
    induction moves with
    | nil => exact fun _ => Finset.sum_const_zero
    | cons move rest ih =>
      intro covers
      rw [List.map_cons, List.toFinset_cons, Finset.insert_subset_iff] at covers
      have own : ∑ key ∈ span, (if key = side move then amount move else 0) = amount move := by
        rw [Finset.sum_ite_eq', if_pos covers.1]
      have parts : ∑ key ∈ span, ((move :: rest).map fun move => if key = side move then amount move else 0).sum =
          ∑ key ∈ span, ((if key = side move then amount move else 0) +
            (rest.map fun move => if key = side move then amount move else 0).sum) := rfl
      rw [parts, Finset.sum_add_distrib, own, ih covers.2, List.map_cons, List.sum_cons]
  let span := (first.keys ∪ second.keys) ∪ ((moves.map source).toFinset ∪ (moves.map target).toFinset)
  have sums := Finset.sum_congr (rfl : span = span) fun key _ => shift key
  rw [Finset.sum_add_distrib, Finset.sum_add_distrib, moved moves (Finset.subset_union_left.trans Finset.subset_union_right),
    moved moves (Finset.subset_union_right.trans Finset.subset_union_right)] at sums
  rw [total_eq_sum zero first (Finset.subset_union_left.trans Finset.subset_union_left),
    total_eq_sum zero second (Finset.subset_union_right.trans Finset.subset_union_left)]
  exact Nat.add_right_cancel sums

end Table
end Lib
