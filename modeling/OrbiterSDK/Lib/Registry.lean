import Mathlib.Data.List.Basic
import Mathlib.Tactic.Common

/-! Entries in the order in which they were made, looked up by their key. -/

namespace Lib

abbrev Registry (κ ν : Type) := List (κ × ν)

namespace Registry
variable {κ ν : Type} [DecidableEq κ]

def keys (registry : Registry κ ν) : List κ := registry.map Prod.fst

def find : Registry κ ν → κ → Option ν
  | [], _ => none
  | entry :: rest, key => if entry.1 = key then some entry.2 else find rest key

/-- The value of a key is replaced. -/
def update (registry : Registry κ ν) (key : κ) (change : ν → ν) : Registry κ ν :=
  registry.map fun entry => if entry.1 = key then (key, change entry.2) else entry

def add (registry : Registry κ ν) (key : κ) (value : ν) : Registry κ ν := registry ++ [(key, value)]

@[simp] theorem keys_update (registry : Registry κ ν) (key : κ) (change : ν → ν) : (registry.update key change).keys = registry.keys := by
  induction registry with
  | nil => rfl
  | cons entry rest ih =>
    simp only [update, keys, List.map_cons] at ih ⊢
    rw [ih]
    split
    case isTrue same => rw [same]
    case isFalse => rfl

omit [DecidableEq κ] in
@[simp] theorem keys_add (registry : Registry κ ν) (key : κ) (value : ν) : (registry.add key value).keys = registry.keys ++ [key] :=
  List.map_append

theorem find_update (registry : Registry κ ν) (key other : κ) (change : ν → ν) :
    (registry.update key change).find other = if other = key then (registry.find key).map change else registry.find other := by
  induction registry with
  | nil => simp [update, find]
  | cons entry rest ih =>
    simp only [update, List.map_cons, find] at ih ⊢
    by_cases here : entry.1 = key
    · simp only [if_pos here]
      by_cases same : other = key
      · simp only [same, if_true, Option.map_some]
      · have apart : ¬ entry.1 = other := fun found => same (found.symm.trans here)
        simp only [Ne.symm same, if_false, apart, same] at ih ⊢
        exact ih
    · simp only [if_neg here]
      by_cases same : other = key
      · simp only [same, here, if_false, if_true] at ih ⊢
        exact ih
      · simp only [same, if_false] at ih ⊢
        rw [ih]

theorem find_update_self (registry : Registry κ ν) (key : κ) (change : ν → ν) :
    (registry.update key change).find key = (registry.find key).map change := by
  rw [find_update, if_pos rfl]

theorem find_update_of_ne (registry : Registry κ ν) {key other : κ} (change : ν → ν) (apart : other ≠ key) :
    (registry.update key change).find other = registry.find other := by
  rw [find_update, if_neg apart]

theorem mem_keys {registry : Registry κ ν} {key : κ} : key ∈ registry.keys ↔ (registry.find key).isSome := by
  induction registry with
  | nil => simp [keys, find]
  | cons entry rest ih =>
    simp only [keys, List.map_cons, List.mem_cons, find] at ih ⊢
    by_cases here : entry.1 = key
    · simp [here]
    · simp [here, ih, Ne.symm here]

theorem find_add (registry : Registry κ ν) (key other : κ) (value : ν) :
    (registry.add key value).find other = (registry.find other).or (if key = other then some value else none) := by
  induction registry with
  | nil => simp [add, find]
  | cons entry rest ih =>
    simp only [add, List.cons_append, find] at ih ⊢
    split
    · rfl
    · exact ih

end Registry
end Lib
