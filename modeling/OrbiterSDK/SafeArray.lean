import OrbiterSDK.Variables
import OrbiterSDK.Lib.Table
import Mathlib.Data.Finset.Sort

/-! Arrays of contracts. Elements that are written or loaded stand in a map from indices; some
functions take for granted that there is one. -/

namespace OrbiterSDK
open Lib

structure SafeArray (α : Type) [Inhabited α] (size : Nat) where
  base : SafeBase
  array : Fin size → α
  tmp : Option (Table Nat α)

/-- A call of a member function. A reference that is returned may be used at once to write the element. -/
inductive ArrayCall (α : Type) where
  | «at» (pos : Nat) (use : α → α)
  | subscript (pos : Nat) (use : α → α)
  | empty
  | size
  | fill (value : α)
  | commit
  | revert

inductive ArrayReply (α : Type) where
  | done
  | flag (value : Bool)
  | index (value : Nat)
  | element (value : α)
  deriving DecidableEq

abbrev ArrayAnswer (α : Type) := Except Exception (ArrayReply α)

namespace SafeArray
variable {α : Type} [Inhabited α] {size : Nat}

/-- An access through a null pointer. -/
def nullPointer : Exception := "segmentation fault"

/-- `tmp_->emplace(index, value)` for every index, in a map that has none of them. -/
def whole (values : Fin size → α) : Table Nat α :=
  (default : Table Nat α).assign (Finset.range size) fun index _ => if inside : index < size then values ⟨index, inside⟩ else default

/-- The constructor with an owner. It does not initialize the array itself. -/
def ofOwner (array values : Fin size → α) : SafeArray α size := { base := { owned := true }, array, tmp := some (whole values) }

/-- The map as it is after `check()`. -/
def written (var : SafeArray α size) : Table Nat α := var.tmp.getD default

def check (var : SafeArray α size) : SafeArray α size := { var with tmp := some var.written }

def markAsUsed (var : SafeArray α size) : SafeArray α size := { var with base := var.base.markAsUsed }

def checkIndexAndCopy (var : SafeArray α size) (index : Nat) : Except Exception Unit × SafeArray α size :=
  let var := var.check
  if inside : index < size then
    if var.written.contains index then (.ok (), var)
    else (.ok (), { var with tmp := some (var.written.modify index fun _ => var.array ⟨index, inside⟩) })
  else (.error "Index out of range", var)

def «at» (var : SafeArray α size) (pos : Nat) (use : α → α) : ArrayAnswer α × SafeArray α size :=
  match var.checkIndexAndCopy pos with
  | (.error what, var) => (.error what, var)
  | (.ok (), var) =>
    let var := var.markAsUsed
    (.ok (.element (var.written.value pos)), { var with tmp := some (var.written.modify pos use) })

/-- The loop over all indices does not check that there is a map. Nothing is marked. -/
def fill (var : SafeArray α size) (value : α) : ArrayAnswer α × SafeArray α size :=
  if size = 0 then (.ok .done, var)
  else match var.tmp with
    | none => (.error nullPointer, var)
    | some tmp => (.ok .done, { var with tmp := some (tmp.assign (Finset.range size) fun _ _ => value) })

/-- The map is kept, and the variable stays registered. -/
def commit (var : SafeArray α size) : ArrayAnswer α × SafeArray α size :=
  match var.tmp with
  | none => (.error nullPointer, var)
  | some tmp => (.ok .done, { var with array := fun index => (tmp.find index).getD (var.array index) })

def revert (var : SafeArray α size) : SafeArray α size := { var with tmp := none }

def step (var : SafeArray α size) : ArrayCall α → ArrayAnswer α × SafeArray α size
  | .«at» pos use => var.«at» pos use
  | .subscript pos use => var.«at» pos use
  | .empty => (.ok (.flag (size = 0)), var)
  | .size => (.ok (.index size), var)
  | .fill value => var.fill value
  | .commit => var.commit
  | .revert => (.ok .done, var.revert)

end SafeArray
end OrbiterSDK
