import OrbiterSDK.Lib.Writes

/-! Stores in which writes are staged: they can be read at once, and later all of them
are committed or all of them are given up. -/

namespace Lib

/-- The committed contents of a store, and the contents that readers see. -/
@[ext] structure Staged (κ ν : Type) where
  committed : κ → ν
  current : κ → ν

inductive StagedCall (κ ν : Type) where
  | write (key : κ) (value : ν)
  | read (key : κ)
  | commit
  | revert

namespace StagedCall
variable {κ ν : Type}

/-- Commits and reverts, which leave nothing staged. -/
def isBoundary : StagedCall κ ν → Bool
  | commit | revert => true
  | write _ _ | read _ => false

/-- The writes since the last boundary, after those that were staged before. -/
def pending (before : List (κ × ν)) : List (StagedCall κ ν) → List (κ × ν)
  | [] => before
  | write key value :: rest => pending (before ++ [(key, value)]) rest
  | read _ :: rest => pending before rest
  | commit :: rest => pending [] rest
  | revert :: rest => pending [] rest

/-- The calls before the last commit, if there is one. -/
def beforeCommit : List (StagedCall κ ν) → Option (List (StagedCall κ ν))
  | [] => none
  | call :: rest =>
    match beforeCommit rest, call with
    | some front, _ => some (call :: front)
    | none, commit => some []
    | none, _ => none

end StagedCall

namespace Staged
variable {κ ν : Type} [DecidableEq κ]
open StagedCall

def step (store : Staged κ ν) : StagedCall κ ν → Staged κ ν
  | .write key value => { store with current := Function.update store.current key value }
  | .read _ => store
  | .commit => { store with committed := store.current }
  | .revert => { store with current := store.committed }

def run (store : Staged κ ν) (calls : List (StagedCall κ ν)) : Staged κ ν := calls.foldl step store

@[simp] theorem run_nil (store : Staged κ ν) : store.run [] = store := rfl

@[simp] theorem run_cons (store : Staged κ ν) (call : StagedCall κ ν) (rest : List (StagedCall κ ν)) :
    store.run (call :: rest) = (store.step call).run rest := rfl

/-- What is committed is what readers saw at the last commit. -/
theorem run_committed (calls : List (StagedCall κ ν)) : ∀ store : Staged κ ν,
    (store.run calls).committed =
      match beforeCommit calls with
      | some front => (store.run front).current
      | none => store.committed := by
  induction calls with
  | nil => exact fun _ => rfl
  | cons call rest ih =>
    intro store
    have next := ih (store.step call)
    rw [run_cons, next]
    cases last : beforeCommit rest with
    | some front => simp only [beforeCommit, last, run_cons]
    | none => cases call <;> simp only [beforeCommit, last, step, run_nil]

private theorem committed_kept (calls : List (StagedCall κ ν)) : ∀ store : Staged κ ν, calls.any isBoundary = false →
    (store.run calls).committed = store.committed := by
  induction calls with
  | nil => exact fun _ _ => rfl
  | cons call rest ih =>
    intro store inside
    rw [List.any_cons, Bool.or_eq_false_iff] at inside
    refine (ih (store.step call) inside.2).trans ?_
    cases call with
    | write key value => rfl
    | read key => rfl
    | commit => cases inside.1
    | revert => cases inside.1

/-- Readers see the writes since the last boundary over what was committed then, or over
the contents at the start if there was no boundary. -/
theorem run_current (calls : List (StagedCall κ ν)) : ∀ (store : Staged κ ν) (base : κ → ν) (staged : List (κ × ν)),
    store.current = overlay staged base →
    (store.run calls).current = overlay (pending staged calls)
      (if calls.any isBoundary then (store.run calls).committed else base) := by
  induction calls with
  | nil => exact fun store base staged shown => shown
  | cons call rest ih =>
    intro store base staged shown
    -- At a boundary current and committed contents are the same, and nothing is staged.
    have boundary : ∀ store : Staged κ ν, store.current = store.committed →
        (store.run rest).current = overlay (pending [] rest) (store.run rest).committed := by
      intro store level
      refine (ih store store.committed [] level).trans ?_
      cases inside : rest.any isBoundary with
      | true => rfl
      | false => rw [committed_kept rest store inside]; rfl
    cases call with
    | write key value =>
      refine ih (store.step (.write key value)) base _ ?_
      rw [overlay_append, ← shown]
      rfl
    | read key => exact ih store base staged shown
    | commit => exact boundary (store.step .commit) rfl
    | revert => exact boundary (store.step .revert) rfl

end Staged
end Lib
