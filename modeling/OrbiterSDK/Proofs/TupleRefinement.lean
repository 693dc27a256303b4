import OrbiterSDK.SafeTuple
import OrbiterSDK.SafeArray
import OrbiterSDK.Lib.Simulation

/-! Safe tuples and arrays, and pairs of ordinary ones. They agree as long as uncommitted tuples
are not compared, tuples only change places over equal committed ones, nothing is moved out of a
variable, and an array has its map when it is filled or committed. -/

namespace OrbiterSDK
open Lib

/-- Two ordinary values: what is committed, and what is worked on. -/
structure WorkingPair (α : Type) where
  committed : α
  working : α

namespace WorkingPair
variable {α : Type}

def work (pair : WorkingPair α) (working : α) : WorkingPair α := { pair with working }

def commit (pair : WorkingPair α) : WorkingPair α := { pair with committed := pair.working }

def revert (pair : WorkingPair α) : WorkingPair α := { pair with working := pair.committed }

end WorkingPair

namespace SafeTuple
variable {n : Nat} {Types : Fin n → Type} [∀ index, DecidableEq (Types index)] [∀ index, LT (Types index)]
  [∀ index, DecidableLT (Types index)] {Variable : Type} [DecidableEq Variable]

/-- Nothing is written that is not committed. -/
def Settled (var : SafeTuple Types) : Prop := var.written = var.tuple

instance (var : SafeTuple Types) : Decidable var.Settled := inferInstanceAs (Decidable (_ = _))

/-- When a call is answered as on ordinary tuples, before and after the next revert. -/
def Allowed (vars : Variable → SafeTuple Types) : TupleCall Types Variable → Prop
  | .compare _ var other => (vars var).Settled ∧ (vars other).Settled
  | .swap var other => var = other ∨ (vars var).tuple = (vars other).tuple
  | .moveFrom var other _ => var = other
  | _ => True

instance (vars : Variable → SafeTuple Types) : (call : TupleCall Types Variable) → Decidable (Allowed vars call)
  | .compare _ var other => inferInstanceAs (Decidable ((vars var).Settled ∧ (vars other).Settled))
  | .swap var other => inferInstanceAs (Decidable (var = other ∨ (vars var).tuple = (vars other).tuple))
  | .moveFrom var other _ => inferInstanceAs (Decidable (var = other))
  | .get _ _ _ | .assign _ _ | .assignFrom _ _ | .commit _ | .revert _ => isTrue trivial

end SafeTuple

namespace SafeArray
variable {α : Type} [Inhabited α] {size : Nat}

def plainAt (pair : WorkingPair (Fin size → α)) (pos : Nat) (use : α → α) : ArrayAnswer α × WorkingPair (Fin size → α) :=
  if inside : pos < size then
    (.ok (.element (pair.working ⟨pos, inside⟩)), pair.work (Function.update pair.working ⟨pos, inside⟩ (use (pair.working ⟨pos, inside⟩))))
  else (.error "Index out of range", pair)

/-- There is a map where one is needed. -/
def Allowed (var : SafeArray α size) : ArrayCall α → Prop
  | .fill _ => size ≠ 0 → var.tmp.isSome = true
  | .commit => var.tmp.isSome = true
  | _ => True

instance (var : SafeArray α size) : (call : ArrayCall α) → Decidable (var.Allowed call)
  | .fill _ => inferInstanceAs (Decidable (size ≠ 0 → var.tmp.isSome = true))
  | .commit => inferInstanceAs (Decidable (var.tmp.isSome = true))
  | .«at» _ _ | .subscript _ _ | .empty | .size | .revert => isTrue trivial

end SafeArray
end OrbiterSDK

namespace OrbiterSDK.Proofs.TupleRefinement
open Lib

section Tuples
variable {n : Nat} {Types : Fin n → Type} {Variable : Type} [DecidableEq Variable]

variable {vars : Variable → SafeTuple Types} {pairs : Variable → WorkingPair (Tuple Types)} {var other : Variable}

variable [∀ index, DecidableEq (Types index)] [∀ index, LT (Types index)] [∀ index, DecidableLT (Types index)]

end Tuples

section Arrays
variable {α : Type} [Inhabited α] {size : Nat} {var : SafeArray α size} {pair : WorkingPair (Fin size → α)}

/-- A safe array stands for two arrays. The map has no other indices. -/
structure ArrayShows (var : SafeArray α size) (pair : WorkingPair (Fin size → α)) : Prop where
  committed : var.array = pair.committed
  working : ∀ index : Fin size, (var.written.find index).getD (var.array index) = pair.working index

theorem checkIndexAndCopy_loads {pos : Nat} (inside : pos < size) (shown : ArrayShows var pair) :
    ∃ loaded, var.checkIndexAndCopy pos = (.ok (), loaded) ∧ ArrayShows loaded pair ∧
      loaded.written.find pos = some (pair.working ⟨pos, inside⟩) := by
  have before := shown.working ⟨pos, inside⟩
  unfold SafeArray.checkIndexAndCopy
  rw [dif_pos inside]
  cases found : var.written.find pos with
  | some value =>
    have here : var.check.written.contains pos = true := decide_eq_true (Table.find_eq_some found).1
    refine ⟨var.check, if_pos here, ⟨shown.committed, shown.working⟩, ?_⟩
    rw [found] at before
    exact found.trans (congrArg some before)
  | none =>
    have absent : ¬ var.check.written.contains pos = true := by
      intro contained
      have some : (var.written.find pos).isSome = true := (Table.find_isSome _ _).mpr (of_decide_eq_true contained)
      rw [found] at some
      cases some
    rw [found] at before
    refine ⟨_, if_neg absent, ⟨shown.committed, ?_⟩, ?_⟩
    · intro index
      have loaded := Table.find_modify var.written pos index fun _ => var.array ⟨pos, inside⟩
      refine (congrArg (fun entry : Option α => entry.getD (var.array index)) loaded).trans ?_
      by_cases same : (index : Nat) = pos
      · rw [if_pos same]
        have equal : index = ⟨pos, inside⟩ := Fin.ext same
        rw [equal]
        exact before
      · rw [if_neg same]
        exact shown.working index
    · refine (Table.find_modify var.written pos pos fun _ => var.array ⟨pos, inside⟩).trans ?_
      rw [if_pos rfl]
      exact congrArg some before

theorem at_agrees (pos : Nat) (use : α → α) (shown : ArrayShows var pair) :
    (var.«at» pos use).1 = (SafeArray.plainAt pair pos use).1 ∧ ArrayShows (var.«at» pos use).2 (SafeArray.plainAt pair pos use).2 := by
  unfold SafeArray.«at» SafeArray.plainAt
  by_cases inside : pos < size
  · obtain ⟨loaded, load, shows, found⟩ := checkIndexAndCopy_loads inside shown
    have value := (Table.find_eq_some found).2
    rw [load, dif_pos inside]
    refine ⟨congrArg (fun value => Except.ok (ArrayReply.element value)) value, shows.committed, ?_⟩
    intro index
    have written := Table.find_modify loaded.written pos index use
    refine (congrArg (fun entry : Option α => entry.getD (loaded.array index)) written).trans ?_
    by_cases same : (index : Nat) = pos
    · have equal : index = ⟨pos, inside⟩ := Fin.ext same
      rw [if_pos same, value, equal]
      exact (Function.update_self (⟨pos, inside⟩ : Fin size) _ pair.working).symm
    · have apart : index ≠ ⟨pos, inside⟩ := fun equal => same (congrArg Fin.val equal)
      rw [if_neg same]
      exact (shows.working index).trans (Function.update_of_ne apart _ pair.working).symm
  · have refused : var.checkIndexAndCopy pos = (.error "Index out of range", var.check) := dif_neg inside
    rw [refused, dif_neg inside]
    exact ⟨rfl, shown.committed, shown.working⟩

end Arrays

/-- What a call says about a variable whose elements are numbers. -/
def TupleReply.shown : TupleReply (fun _ : Fin 1 => Nat) → Nat
  | .done => 0
  | .element _ value => value
  | .flag value => value.toNat

end OrbiterSDK.Proofs.TupleRefinement
