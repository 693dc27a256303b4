import OrbiterSDK.Lib.Table

/-! Loops that write to a map, one entry of a list at a time, and what one place holds
afterwards. -/

namespace Lib

section Loops
variable {σ ε γ : Type} {step : σ → ε → σ} {project : σ → γ} {hits : ε → Prop} {entries : List ε}

/-- A loop leaves alone what none of its steps hits. -/
theorem foldl_kept (keeps : ∀ state, ∀ entry ∈ entries, ¬ hits entry → project (step state entry) = project state)
    (missed : ∀ entry ∈ entries, ¬ hits entry) (state : σ) : project (entries.foldl step state) = project state := by
  induction entries generalizing state with
  | nil => rfl
  | cons entry rest ih =>
    have here := keeps state entry List.mem_cons_self (missed entry List.mem_cons_self)
    apply Eq.trans _ here
    apply ih
    · exact fun state other later => keeps state other (List.mem_cons_of_mem _ later)
    · exact fun other later => missed other (List.mem_cons_of_mem _ later)

/-- A loop whose steps all write the same to a place leaves that there, if one of them hits it. -/
theorem foldl_written {target : γ} (writes : ∀ state, ∀ entry ∈ entries, hits entry → project (step state entry) = target)
    (keeps : ∀ state, ∀ entry ∈ entries, ¬ hits entry → project (step state entry) = project state)
    (hit : ∃ entry ∈ entries, hits entry) (state : σ) : project (entries.foldl step state) = target := by
  induction entries generalizing state with
  | nil =>
    obtain ⟨_, none, _⟩ := hit
    cases none
  | cons entry rest ih =>
    have later : ∀ {other}, other ∈ rest → other ∈ entry :: rest := List.mem_cons_of_mem _
    by_cases again : ∃ other ∈ rest, hits other
    · apply ih
      · exact fun state other member => writes state other (later member)
      · exact fun state other member => keeps state other (later member)
      · exact again
    · have missed : ∀ other ∈ rest, ¬ hits other := fun other member hits => again ⟨other, member, hits⟩
      have here : hits entry := by
        obtain ⟨other, member, isHit⟩ := hit
        cases member with
        | head => exact isHit
        | tail _ member => exact absurd isHit (missed other member)
      apply Eq.trans _ (writes state entry List.mem_cons_self here)
      exact foldl_kept (fun state other member => keeps state other (later member)) missed _

/-- A loop whose hits all write what is wanted, and that starts with it if there is none. -/
theorem foldl_wanted {target : γ} (writes : ∀ state, ∀ entry ∈ entries, hits entry → project (step state entry) = target)
    (keeps : ∀ state, ∀ entry ∈ entries, ¬ hits entry → project (step state entry) = project state) (state : σ)
    (already : (∀ entry ∈ entries, ¬ hits entry) → project state = target) : project (entries.foldl step state) = target := by
  by_cases hit : ∃ entry ∈ entries, hits entry
  · exact foldl_written writes keeps hit state
  · have missed : ∀ entry ∈ entries, ¬ hits entry := fun entry member isHit => hit ⟨entry, member, isHit⟩
    exact (foldl_kept keeps missed state).trans (already missed)

end Loops

namespace Table
variable {κ ν ε γ : Type} [DecidableEq κ] [Inhabited ν] (place : ε → κ) (update : ε → ν → ν)

/-- One update for every entry of a list. -/
def modifyEach (entries : List ε) (table : Table κ ν) : Table κ ν :=
  entries.foldl (fun table entry => table.modify (place entry) (update entry)) table

theorem modifyEach_keys (entries : List ε) (table : Table κ ν) :
    (table.modifyEach place update entries).keys = table.keys ∪ (entries.map place).toFinset := by
  induction entries generalizing table with
  | nil => simp [modifyEach]
  | cons entry rest ih =>
    rw [List.map_cons, List.toFinset_cons, Finset.union_insert, ← Finset.insert_union]
    exact ih _

variable {place update} {entries : List ε} (project : ν → γ)

/-- A projection that all updates respect. -/
theorem modifyEach_project (kept : ∀ entry value, project (update entry value) = project value) (table : Table κ ν) (key : κ) :
    project ((table.modifyEach place update entries).value key) = project (table.value key) := by
  induction entries generalizing table with
  | nil => rfl
  | cons entry rest ih =>
    apply (ih _).trans
    exact modify_project project table (place entry) key (kept entry)

/-- A projection that all updates of one key respect, but for those that write what is wanted. -/
theorem modifyEach_wanted {wanted : γ} {key : κ} (hits : ε → Prop) (here : ∀ entry ∈ entries, hits entry → place entry = key)
    (writes : ∀ entry ∈ entries, hits entry → ∀ value, project (update entry value) = wanted)
    (keeps : ∀ entry ∈ entries, place entry = key → ¬ hits entry → ∀ value, project (update entry value) = project value)
    (table : Table κ ν) (already : (∀ entry ∈ entries, ¬ hits entry) → project (table.value key) = wanted) :
    project ((table.modifyEach place update entries).value key) = wanted := by
  have written : ∀ (table : Table κ ν), ∀ entry ∈ entries, hits entry →
      project ((table.modify (place entry) (update entry)).value key) = wanted := by
    intro table entry member hit
    rw [here entry member hit, modify_value_self]
    exact writes entry member hit _
  have kept : ∀ (table : Table κ ν), ∀ entry ∈ entries, ¬ hits entry →
      project ((table.modify (place entry) (update entry)).value key) = project (table.value key) := by
    intro table entry member missed
    rw [modify_value]
    split
    case isTrue same =>
      rw [keeps entry member same.symm missed, same]
    case isFalse => rfl
  exact @foldl_wanted _ _ _ _ (fun table : Table κ ν => project (table.value key)) hits _ _ written kept table already

end Table
end Lib
