import OrbiterSDK.Lib.Table

/-! Values with an original and a current version, and the loops that bring the
two together for the keys on a list. A key may stand on its list many times. -/

namespace Lib

@[ext] structure Versioned (α : Type) where
  first : α
  second : α
  deriving DecidableEq

namespace Versioned
variable {α : Type}

instance [Inhabited α] : Inhabited (Versioned α) := ⟨⟨default, default⟩⟩

def InStep (pair : Versioned α) : Prop := pair.first = pair.second

def write (pair : Versioned α) (value : α) : Versioned α := { pair with second := value }

def commit (pair : Versioned α) : Versioned α := { pair with first := pair.second }

def revert (pair : Versioned α) : Versioned α := { pair with second := pair.first }

theorem commit_commit (pair : Versioned α) : pair.commit.commit = pair.commit := rfl

theorem revert_revert (pair : Versioned α) : pair.revert.revert = pair.revert := rfl

theorem commit_eq_iff {pair : Versioned α} : pair.commit = pair ↔ pair.InStep :=
  ⟨fun equal => (congrArg first equal).symm, fun level => Versioned.ext level.symm rfl⟩

theorem revert_eq_iff {pair : Versioned α} : pair.revert = pair ↔ pair.InStep :=
  ⟨fun equal => congrArg second equal, fun level => Versioned.ext rfl level⟩

end Versioned

namespace Table
variable {κ ν : Type} [DecidableEq κ] [Inhabited ν]

/-- One update at every key on a list, in order and with repetitions. -/
def modifyAll (table : Table κ ν) (touched : List κ) (update : ν → ν) : Table κ ν :=
  touched.foldl (fun table key => table.modify key update) table

@[simp] theorem modifyAll_nil (table : Table κ ν) (update : ν → ν) : table.modifyAll [] update = table := rfl

@[simp] theorem modifyAll_cons (table : Table κ ν) (key : κ) (rest : List κ) (update : ν → ν) :
    table.modifyAll (key :: rest) update = (table.modify key update).modifyAll rest update := rfl

theorem modifyAll_keys (table : Table κ ν) (touched : List κ) (update : ν → ν) :
    (table.modifyAll touched update).keys = table.keys ∪ touched.toFinset := by
  induction touched generalizing table with
  | nil => simp
  | cons key rest ih =>
    rw [modifyAll_cons, ih, modify_keys, List.toFinset_cons, Finset.insert_union, Finset.union_insert]

theorem modifyAll_value (table : Table κ ν) (touched : List κ) (update : ν → ν)
    (idempotent : ∀ value, update (update value) = update value) (key : κ) :
    (table.modifyAll touched update).value key =
      if key ∈ touched then update (table.value key) else table.value key := by
  induction touched generalizing table with
  | nil => simp
  | cons head rest ih =>
    rw [modifyAll_cons, ih, modify_value]
    by_cases here : key = head
    · subst here
      simp [idempotent]
    · simp [here]

theorem modifyAll_project {β : Type} (project : ν → β) (table : Table κ ν) (touched : List κ) {update : ν → ν}
    (kept : ∀ value, project (update value) = project value) (key : κ) :
    project ((table.modifyAll touched update).value key) = project (table.value key) := by
  induction touched generalizing table with
  | nil => rfl
  | cons head rest ih => rw [modifyAll_cons, ih, modify_project project table head key kept]

end Table
end Lib
