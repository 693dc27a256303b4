import Mathlib.Logic.Function.Basic
import Mathlib.Tactic.Common

/-! Sequences of writes to a store. Of all writes to a key only the last one counts. -/

namespace Lib

variable {κ ν : Type} [DecidableEq κ]

/-- The store after some writes, in order. -/
def overlay (writes : List (κ × ν)) (before : κ → ν) : κ → ν :=
  writes.foldl (fun store write => Function.update store write.1 write.2) before

/-- The last value that is written to a key, if any. -/
def lastWrite : List (κ × ν) → κ → Option ν
  | [], _ => none
  | write :: rest, key => (lastWrite rest key).or (if key = write.1 then some write.2 else none)

theorem overlay_append (first second : List (κ × ν)) (before : κ → ν) :
    overlay (first ++ second) before = overlay second (overlay first before) := List.foldl_append

theorem overlay_apply (writes : List (κ × ν)) (before : κ → ν) (key : κ) :
    overlay writes before key = (lastWrite writes key).getD (before key) := by
  induction writes generalizing before with
  | nil => rfl
  | cons write rest ih =>
    refine (ih (Function.update before write.1 write.2)).trans ?_
    rw [lastWrite, Function.update_apply]
    cases lastWrite rest key with
    | some value => rfl
    | none =>
      simp only [Option.none_or, Option.getD_none]
      split
      · rfl
      · rfl

/-- Writes leave a store as it was exactly if the last one to each key restores its value. -/
theorem overlay_eq_self_iff (writes : List (κ × ν)) (before : κ → ν) :
    overlay writes before = before ↔ ∀ key value, lastWrite writes key = some value → value = before key := by
  constructor
  · intro same key value last
    have here := congrFun same key
    rwa [overlay_apply, last] at here
  · intro restores
    funext key
    rw [overlay_apply]
    cases last : lastWrite writes key with
    | none => rfl
    | some value => exact restores key value last

end Lib
