import Mathlib.Logic.Function.Basic
import Mathlib.Data.List.Nodup
import Mathlib.Tactic.Common

/-! Maps whose `insert` keeps what is there already. -/

namespace Lib

/-- A map with the entries that were put in first. -/
abbrev Index (κ ν : Type) := κ → Option ν

namespace Index
variable {κ ν : Type} [DecidableEq κ]

def insert (index : Index κ ν) (key : κ) (value : ν) : Index κ ν :=
  if (index key).isSome then index else Function.update index key (some value)

def erase (index : Index κ ν) (key : κ) : Index κ ν := Function.update index key none

def insertAll (index : Index κ ν) (entries : List (κ × ν)) : Index κ ν :=
  entries.foldl (fun index entry => index.insert entry.1 entry.2) index

def eraseAll (index : Index κ ν) (keys : List κ) : Index κ ν := keys.foldl erase index

/-- The value of a key, which is put in if it is missing. -/
def getOrInsert (index : Index κ ν) (key : κ) (missing : ν) : ν × Index κ ν :=
  match index key with
  | some value => (value, index)
  | none => (missing, Function.update index key (some missing))

/-- The value of a key that has to be there. -/
def get {ε : Type} (index : Index κ ν) (key : κ) (missing : ε) : Except ε ν :=
  match index key with
  | some value => .ok value
  | none => .error missing

variable {index : Index κ ν} {key other : κ} {value : ν}

omit [DecidableEq κ] in
theorem get_of_some {ε : Type} (there : index key = some value) (missing : ε) : index.get key missing = .ok value := by
  rw [get, there]

theorem insert_apply_iff {found : ν} : index.insert key value other = some found ↔
    index other = some found ∨ other = key ∧ index key = none ∧ value = found := by
  unfold insert
  cases present : index key with
  | some first =>
    simp only [Option.isSome_some, if_true, reduceCtorEq, false_and, and_false, or_false]
  | none =>
    simp only [Option.isSome_none, Bool.false_eq_true, if_false, true_and]
    by_cases same : other = key
    · rw [same, Function.update_self, present]
      simp
    · rw [Function.update_of_ne same]
      simp [same]

/-- The value is the only one that the key can have. -/
theorem insert_once_iff {found : ν} (once : ∀ first, index key = some first → first = value) :
    index.insert key value other = some found ↔ index other = some found ∨ other = key ∧ value = found := by
  apply insert_apply_iff.trans
  constructor
  · exact Or.imp_right fun new => ⟨new.1, new.2.2⟩
  · intro either
    cases either with
    | inl older => exact .inl older
    | inr new =>
      obtain ⟨rfl, rfl⟩ := new
      cases present : index other with
      | none => exact .inr ⟨rfl, rfl, rfl⟩
      | some first => exact .inl (once first present ▸ rfl)

theorem insert_new (new : index key = none) : index.insert key value = Function.update index key (some value) := by
  unfold insert
  rw [new]
  rfl

theorem erase_apply_iff {found : ν} : index.erase key other = some found ↔ other ≠ key ∧ index other = some found := by
  unfold erase
  by_cases same : other = key
  · rw [same, Function.update_self]
    simp
  · rw [Function.update_of_ne same]
    simp [same]

theorem eraseAll_apply_iff {keys : List κ} {found : ν} : ∀ {index : Index κ ν},
    index.eraseAll keys other = some found ↔ other ∉ keys ∧ index other = some found := by
  induction keys with
  | nil =>
    intro index
    rw [eraseAll, List.foldl_nil]
    simp
  | cons key rest ih =>
    intro index
    rw [eraseAll, List.foldl_cons, ← eraseAll, ih, erase_apply_iff, List.mem_cons, not_or, ← and_assoc, and_comm (a := other ∉ rest)]

/-- Entries that give no key two values. -/
theorem insertAll_iff {entries : List (κ × ν)} {found : ν} : ∀ {index : Index κ ν},
    (∀ {key first second}, (key, first) ∈ entries → (key, second) ∈ entries → first = second) →
    (index.insertAll entries other = some found ↔ index other = some found ∨ index other = none ∧ (other, found) ∈ entries) := by
  induction entries with
  | nil =>
    intro index _
    rw [insertAll, List.foldl_nil]
    simp
  | cons entry rest ih =>
    obtain ⟨key, value⟩ := entry
    intro index once
    have later : ∀ {key first second}, (key, first) ∈ rest → (key, second) ∈ rest → first = second :=
      fun first second => once (List.mem_cons_of_mem _ first) (List.mem_cons_of_mem _ second)
    rw [insertAll, List.foldl_cons, ← insertAll, ih later, insert_apply_iff, List.mem_cons]
    by_cases same : other = key
    · cases same
      cases present : index other with
      | some first =>
        rw [insert, present]
        simp [present]
      | none =>
        rw [insert_new present, Function.update_self]
        simp only [reduceCtorEq, true_and, false_and, false_or, or_false, Prod.mk.injEq]
        constructor
        · exact fun first => .inl first.symm
        · intro either
          cases either with
          | inl first => exact first.symm
          | inr again => exact once List.mem_cons_self (List.mem_cons_of_mem _ again)
    · have unchanged : index.insert key value other = index other := by
        unfold insert
        split
        · rfl
        · exact Function.update_of_ne same _ _
      simp [unchanged, same]

theorem insertAll_empty_iff {entries : List (κ × ν)} {found : ν}
    (once : ∀ {key first second}, (key, first) ∈ entries → (key, second) ∈ entries → first = second) :
    insertAll (fun _ => none) entries other = some found ↔ (other, found) ∈ entries := by
  rw [insertAll_iff once]
  simp

/-- Entries with keys of their own, none of which is there already. -/
theorem insertAll_apply_iff {entries : List (κ × ν)} {found : ν} (nodup : (entries.map Prod.fst).Nodup)
    (new : ∀ entry ∈ entries, index entry.1 = none) :
    index.insertAll entries other = some found ↔ index other = some found ∨ (other, found) ∈ entries := by
  rw [insertAll_iff]
  · apply or_congr_right
    constructor
    · exact And.right
    · exact fun member => ⟨new (other, found) member, member⟩
  · intro key first second left right
    cases List.inj_on_of_nodup_map nodup left right rfl
    rfl

theorem getOrInsert_of_some (there : index key = some value) (missing : ν) : index.getOrInsert key missing = (value, index) := by
  rw [getOrInsert, there]

end Index
end Lib
