import Mathlib.Data.List.Sort
import Mathlib.Order.Defs.LinearOrder
import Mathlib.Tactic.Common

/-! Containers that are walked in the order of a key. Elements with the same key stay in the
order in which they were put in. -/

namespace Lib.MultiIndex

variable {α κ ρ : Type} [LinearOrder κ] [LinearOrder ρ] (key : α → κ)

def ordered (elements : List α) : List α := elements.insertionSort fun first second => key first ≤ key second

/-- From the first element whose key is not less. -/
def lowerBound (bound : κ) (elements : List α) : List α := (ordered key elements).dropWhile fun element => key element < bound

variable {key} {elements : List α}

theorem perm_ordered : (ordered key elements).Perm elements := List.perm_insertionSort _ _

theorem mem_ordered {element : α} : element ∈ ordered key elements ↔ element ∈ elements := perm_ordered.mem_iff

theorem ordered_sorted : (ordered key elements).Pairwise fun first second => key first ≤ key second := by
  have total : Std.Total fun first second : α => key first ≤ key second := ⟨fun _ _ => le_total _ _⟩
  have trans : IsTrans α fun first second => key first ≤ key second := ⟨fun _ _ _ => le_trans⟩
  exact List.pairwise_insertionSort _ _

theorem mem_dropWhile_iff {bound : κ} {element : α} {walk : List α} (sorted : walk.Pairwise fun first second => key first ≤ key second) :
    element ∈ walk.dropWhile (fun other => key other < bound) ↔ element ∈ walk ∧ bound ≤ key element := by
  induction walk with
  | nil => simp
  | cons first rest ih =>
    obtain ⟨least, sorted⟩ := List.pairwise_cons.mp sorted
    rw [List.dropWhile_cons]
    split
    case isTrue below =>
      rw [ih sorted, List.mem_cons]
      constructor
      · exact fun later => ⟨.inr later.1, later.2⟩
      · intro either
        refine ⟨either.1.resolve_left fun same => ?_, either.2⟩
        exact absurd (of_decide_eq_true below) (not_lt.mpr (same ▸ either.2))
    case isFalse reached =>
      have bounded : bound ≤ key first := not_lt.mp fun below => reached (decide_eq_true below)
      constructor
      · intro member
        refine ⟨member, ?_⟩
        cases List.mem_cons.mp member with
        | inl same => exact same ▸ bounded
        | inr later => exact le_trans bounded (least element later)
      · exact And.left

/-- Elements with the same key keep the relation that they were put in with. -/
theorem ordered_stable {r : α → α → Prop} (related : elements.Pairwise r) :
    (ordered key elements).Pairwise fun first second => key first < key second ∨ key first = key second ∧ r first second := by
  induction elements with
  | nil => exact .nil
  | cons element rest ih =>
    obtain ⟨ahead, related⟩ := List.pairwise_cons.mp related
    have before := ih related
    have sorted : (ordered key rest).Pairwise fun first second => key first ≤ key second := ordered_sorted
    unfold ordered at before sorted ⊢
    rw [List.insertionSort_cons_eq_take_drop]
    generalize split : rest.insertionSort (fun first second => key first ≤ key second) = others at before sorted ⊢
    have inside {other : α} (listed : other ∈ others) : r element other :=
      ahead other ((List.mem_insertionSort _).mp (split ▸ listed))
    -- The new element goes before those of its own key.
    simp only [not_le]
    have parts := @List.takeWhile_append_dropWhile _ (fun other => decide (key other < key element)) others
    rw [← parts] at before
    obtain ⟨front, back, apart⟩ := List.pairwise_append.mp before
    apply List.pairwise_append.mpr
    refine ⟨front, List.pairwise_cons.mpr ⟨fun other listed => ?_, back⟩, fun other low third listed => ?_⟩
    · obtain ⟨listed, least⟩ := (mem_dropWhile_iff sorted).mp listed
      exact (lt_or_eq_of_le least).imp_right fun level => ⟨level, inside listed⟩
    · cases List.mem_cons.mp listed with
      | inr behind => exact apart other low third behind
      | inl same => exact .inl (same ▸ of_decide_eq_true (List.all_eq_true.mp List.all_takeWhile other low))

theorem mem_lowerBound {bound : κ} {element : α} : element ∈ lowerBound key bound elements ↔ element ∈ elements ∧ bound ≤ key element := by
  rw [lowerBound, mem_dropWhile_iff ordered_sorted, mem_ordered]

/-- A walk that ends at the first element above a limit, where elements with the same key do not fall. -/
theorem mem_takeWhile_iff {rank : α → ρ} {limit : ρ} {walk : List α} {element : α}
    (sorted : walk.Pairwise fun first second => key first < key second ∨ key first = key second ∧ rank first ≤ rank second) :
    element ∈ walk.takeWhile (fun other => rank other ≤ limit) ↔
      element ∈ walk ∧ rank element ≤ limit ∧ ∀ other ∈ walk, key other < key element → rank other ≤ limit := by
  induction walk with
  | nil => simp
  | cons first rest ih =>
    obtain ⟨least, sorted⟩ := List.pairwise_cons.mp sorted
    rw [List.takeWhile_cons]
    split
    case isTrue below =>
      have bounded : rank first ≤ limit := of_decide_eq_true below
      rw [List.mem_cons, ih sorted, List.mem_cons]
      constructor
      · intro either
        cases either with
        | inl same =>
          refine ⟨.inl same, same ▸ bounded, fun other member less => ?_⟩
          cases List.mem_cons.mp member with
          | inl equal => exact equal ▸ bounded
          | inr later =>
            rw [same] at less
            cases least other later with
            | inl above => exact absurd less (lt_asymm above)
            | inr level => exact absurd level.1 less.ne'
        | inr later =>
          obtain ⟨member, low, clear⟩ := later
          refine ⟨.inr member, low, fun other among less => ?_⟩
          cases List.mem_cons.mp among with
          | inl equal => exact equal ▸ bounded
          | inr behind => exact clear other behind less
      · intro walked
        obtain ⟨member, low, clear⟩ := walked
        exact member.imp_right fun later => ⟨later, low, fun other among => clear other (List.mem_cons_of_mem _ among)⟩
    case isFalse above =>
      constructor
      · exact nofun
      · intro walked
        obtain ⟨member, low, clear⟩ := walked
        have high : ¬ rank first ≤ limit := fun bounded => above (decide_eq_true bounded)
        cases List.mem_cons.mp member with
        | inl same => exact absurd (same ▸ low) high
        | inr later =>
          cases least element later with
          | inl less => exact absurd (clear first List.mem_cons_self less) high
          | inr level => exact absurd (le_trans level.2 low) high

end Lib.MultiIndex
