import Mathlib.Data.List.Sort
import Mathlib.Tactic.Common

/-! Sets that are walked in ascending order. Two of them with the same elements are the same. -/

namespace Lib

/-- The elements of a set, each of them once and in ascending order. -/
structure OrderedSet (α : Type) [LinearOrder α] where
  elements : List α
  ascending : elements.Pairwise (· < ·)

variable {α : Type} [LinearOrder α]

def insertOrdered (value : α) : List α → List α
  | [] => [value]
  | first :: rest =>
    if value < first then value :: first :: rest
    else if first < value then first :: insertOrdered value rest
    else first :: rest

theorem mem_insertOrdered {value other : α} {elements : List α} : other ∈ insertOrdered value elements ↔ other = value ∨ other ∈ elements := by
  induction elements with
  | nil => rw [insertOrdered, List.mem_singleton, or_iff_left List.not_mem_nil]
  | cons first rest ih =>
    unfold insertOrdered
    split
    case isTrue => exact List.mem_cons
    case isFalse below =>
      split
      case isTrue => rw [List.mem_cons, ih, List.mem_cons, or_left_comm]
      case isFalse above =>
        have same : value = first := le_antisymm (not_lt.mp above) (not_lt.mp below)
        rw [same, List.mem_cons, or_self_left]

theorem insertOrdered_ascending (value : α) {elements : List α} (ascending : elements.Pairwise (· < ·)) :
    (insertOrdered value elements).Pairwise (· < ·) := by
  induction elements with
  | nil => exact List.pairwise_singleton _ value
  | cons first rest ih =>
    obtain ⟨later, others⟩ := List.pairwise_cons.mp ascending
    unfold insertOrdered
    split
    case isTrue below =>
      apply List.pairwise_cons.mpr
      refine ⟨fun other member => ?_, ascending⟩
      cases List.mem_cons.mp member with
      | inl same => exact same ▸ below
      | inr inside => exact below.trans (later other inside)
    case isFalse =>
      split
      case isTrue above =>
        apply List.pairwise_cons.mpr
        refine ⟨fun other member => ?_, ih others⟩
        cases mem_insertOrdered.mp member with
        | inl same => exact same ▸ above
        | inr inside => exact later other inside
      case isFalse => exact ascending

namespace OrderedSet

def empty : OrderedSet α := ⟨[], List.Pairwise.nil⟩

def insert (set : OrderedSet α) (value : α) : OrderedSet α := ⟨insertOrdered value set.elements, insertOrdered_ascending value set.ascending⟩

def ofList (values : List α) : OrderedSet α := values.foldl insert empty

theorem mem_ofList {values : List α} {value : α} : value ∈ (ofList values).elements ↔ value ∈ values := by
  have inserted : ∀ set : OrderedSet α, value ∈ (values.foldl insert set).elements ↔ value ∈ set.elements ∨ value ∈ values := by
    induction values with
    | nil =>
      intro set
      rw [List.foldl_nil, or_iff_left List.not_mem_nil]
    | cons first rest ih =>
      intro set
      rw [List.foldl_cons, ih, List.mem_cons, insert, mem_insertOrdered, or_assoc, or_left_comm]
  rw [ofList, inserted, empty, or_iff_right List.not_mem_nil]

theorem nodup (set : OrderedSet α) : set.elements.Nodup := set.ascending.imp ne_of_lt

theorem eq_of_mem_iff {first second : OrderedSet α} (same : ∀ value, value ∈ first.elements ↔ value ∈ second.elements) : first = second := by
  obtain ⟨firsts, ascending⟩ := first
  obtain ⟨seconds, ascendingToo⟩ := second
  cases List.Pairwise.eq_of_mem_iff ascending ascendingToo same
  rfl

end OrderedSet
end Lib
