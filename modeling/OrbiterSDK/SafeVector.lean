import OrbiterSDK.Variables
import OrbiterSDK.Lib.Table
import Mathlib.Data.Finset.Sort
import Mathlib.Order.Interval.Finset.Nat

/-! Vectors of contracts. What is written or loaded stands in a map from indices, beside the
size that the vector has with it. -/

namespace OrbiterSDK
open Lib

structure SafeVector (α : Type) [Inhabited α] where
  base : SafeBase
  vector : List α := []
  tmp : Option (Table Nat α) := none
  maxIndex : Nat := 0
  clear : Bool := false

/-- An argument that is passed by reference. It may be an element of the vector itself, or a part of one. -/
inductive VectorArg (α β : Type) where
  | value (value : β)
  | own (index : Nat) (read : α → β)

/-- A call of a member function. A reference that is returned may be used at once to write the element. An own
element is not assigned, as it would be gone before it is read. -/
inductive VectorCall (α : Type) where
  | assign (count : Nat) (value : α)
  | assignRange (values : List α)
  | «at» (pos : Nat) (use : α → α)
  | subscript (pos : Nat) (use : α → α)
  | empty
  | size
  | clear
  | insert (pos : VectorArg α Nat) (value : VectorArg α α)
  | erase (pos : Nat)
  | eraseRange (first last : Nat)
  | pushBack (value : VectorArg α α)
  | emplaceBack (value : α)
  | popBack
  | resize (count : Nat)
  | resizeWith (count : Nat) (value : VectorArg α α)
  | get
  | commit
  | revert

inductive VectorReply (α : Type) where
  | done
  | flag (value : Bool)
  | index (value : Nat)
  | element (value : α)
  | elements (values : List α)
  deriving DecidableEq

abbrev VectorAnswer (α : Type) := Except Exception (VectorReply α)

namespace SafeVector
variable {α : Type} [Inhabited α]

/-- An access of `vector_` behind its end. -/
def pastEnd : Exception := "segmentation fault"

def ofOwner : SafeVector α := { base := { owned := true } }

/-- The map as it is after `check()`. -/
def written (var : SafeVector α) : Table Nat α := var.tmp.getD default

def check (var : SafeVector α) : SafeVector α :=
  match var.tmp with
  | some _ => var
  | none => { var with tmp := some default, maxIndex := var.vector.length }

theorem check_written (var : SafeVector α) : var.check.written = var.written := by
  unfold check written
  cases tmp : var.tmp with
  | none => rfl
  | some map => simp [tmp]

/-- The copy constructor, which gives the copy and leaves the original checked. The vector behind the map and
the mark that it is to be cleared do not go over. -/
def copied (var : SafeVector α) : SafeVector α × SafeVector α :=
  ({ base := { owned := false }, tmp := some var.check.written, maxIndex := var.check.maxIndex }, var.check)

def markAsUsed (var : SafeVector α) : SafeVector α := { var with base := var.base.markAsUsed }

/-- `tmp_->insert_or_assign(index, value)`. -/
def put (var : SafeVector α) (index : Nat) (value : α) : SafeVector α :=
  { var with tmp := some (var.written.modify index fun _ => value) }

/-- `tmp_->emplace(index, value)` for all indices of a range, which keeps what is there. -/
def emplaceAll (tmp : Table Nat α) (indices : Finset Nat) (value : Nat → α) : Table Nat α :=
  tmp.assign (indices \ tmp.keys) fun index _ => value index

def checkIndexAndCopy (var : SafeVector α) (index : Nat) : Except Exception Unit × SafeVector α :=
  let var := var.check
  if var.maxIndex ≤ index then (.error "Index out of range", var)
  else if var.written.contains index then (.ok (), var)
  else match var.vector[index]? with
    | none => (.error pastEnd, var)
    | some value => (.ok (), var.put index value)

def assignRange (var : SafeVector α) (values : List α) : SafeVector α :=
  { var.check with
    tmp := some (emplaceAll default (Finset.range values.length) fun index => values.getD index default)
    maxIndex := values.length
    clear := true }

def assign (var : SafeVector α) (count : Nat) (value : α) : SafeVector α :=
  { var.check with
    tmp := some (emplaceAll default (Finset.range count) fun _ => value)
    maxIndex := count
    clear := true }

def «at» (var : SafeVector α) (pos : Nat) (use : α → α) : VectorAnswer α × SafeVector α :=
  match var.checkIndexAndCopy pos with
  | (.error what, var) => (.error what, var)
  | (.ok (), var) =>
    let var := var.markAsUsed
    (.ok (.element (var.written.value pos)), { var with tmp := some (var.written.modify pos use) })

def empty (var : SafeVector α) : Bool := var.maxIndex = 0

def size (var : SafeVector α) : Nat × SafeVector α := (var.check.maxIndex, var.check)

def clearAll (var : SafeVector α) : SafeVector α := { var.check.markAsUsed with tmp := some default, maxIndex := 0, clear := true }

/-- An element as the loops that shift elements look for it. -/
def source (vector : List α) (tmp : Table Nat α) (index : Nat) : Option α :=
  match tmp.find index with
  | some value => some value
  | none => vector[index]?

/-- What is behind a reference. -/
def read {β : Type} (tmp : Table Nat α) : VectorArg α β → β
  | .value value => value
  | .own index read => read (tmp.value index)

/-- An argument is evaluated before the call: an own element is brought into the map, where the reference stays. -/
def passing {β : Type} (var : SafeVector α) (call : SafeVector α → VectorAnswer α × SafeVector α) :
    VectorArg α β → VectorAnswer α × SafeVector α
  | .value _ => call var
  | .own index _ =>
    match var.checkIndexAndCopy index with
    | (.error what, var) => (.error what, var)
    | (.ok (), var) => call var.markAsUsed

/-- The loop of `insert`, down from the end as long as it is above `pos`. -/
def shiftRight (vector : List α) (pos : VectorArg α Nat) : Nat → Table Nat α → Except Exception (Table Nat α)
  | 0, tmp => .ok tmp
  | i + 1, tmp =>
    if read tmp pos ≤ i then
      match source vector tmp i with
      | none => .error pastEnd
      | some value => shiftRight vector pos i (tmp.modify (i + 1) fun _ => value)
    else .ok tmp

/-- The loop of `erase`, upwards, where elements go down by `gap`. -/
def shiftLeft (vector : List α) (gap : Nat) : Nat → Nat → Table Nat α → Except Exception (Table Nat α)
  | 0, _, tmp => .ok tmp
  | count + 1, index, tmp =>
    match source vector tmp (index + gap) with
    | none => .error pastEnd
    | some value => shiftLeft vector gap count (index + 1) (tmp.modify index fun _ => value)

/-- The references are read as they are by now. -/
def putIn (var : SafeVector α) (pos : VectorArg α Nat) (value : VectorArg α α) (tmp : Table Nat α) : VectorAnswer α × SafeVector α :=
  let inserted := tmp.modify (read tmp pos) fun _ => read tmp value
  (.ok (.index (read inserted pos)), { var with tmp := some inserted, maxIndex := var.maxIndex + 1 })

def insert (var : SafeVector α) (pos : VectorArg α Nat) (value : VectorArg α α) : VectorAnswer α × SafeVector α :=
  let var := var.check.markAsUsed
  if read var.written pos = var.maxIndex then var.putIn pos value var.written
  else if read var.written pos < var.maxIndex then
    match shiftRight var.vector pos var.maxIndex var.written with
    | .error what => (.error what, var)
    | .ok tmp => var.putIn pos value tmp
  else (.error "pos out of range", var)

def erase (var : SafeVector α) (pos : Nat) : VectorAnswer α × SafeVector α :=
  match var.checkIndexAndCopy pos with
  | (.error what, var) => (.error what, var)
  | (.ok (), var) =>
    let var := var.markAsUsed
    match shiftLeft var.vector 1 (var.maxIndex - 1 - pos) pos var.written with
    | .error what => (.error what, var)
    | .ok tmp => (.ok (.index pos), { var with tmp := some (tmp.erase (var.maxIndex - 1)), maxIndex := var.maxIndex - 1 })

def eraseRange (var : SafeVector α) (first last : Nat) : VectorAnswer α × SafeVector α :=
  let var := var.check.markAsUsed
  if last < first ∨ var.maxIndex < last then (.error "Indices out of range", var)
  else
    let numToRemove := last - first
    match shiftLeft var.vector numToRemove (var.maxIndex - numToRemove - first) first var.written with
    | .error what => (.error what, var)
    | .ok tmp =>
      (.ok (.index first), { var with
        tmp := some (tmp.eraseKeys (Finset.Ico (var.maxIndex - numToRemove) var.maxIndex))
        maxIndex := var.maxIndex - numToRemove })

/-- Nothing is changed before the reference is read, here and in `resize`. -/
def pushBack (var : SafeVector α) (value : α) : SafeVector α :=
  let var := var.check.markAsUsed
  { var with tmp := some (emplaceAll var.written {var.maxIndex} fun _ => value), maxIndex := var.maxIndex + 1 }

/-- The index before that of an empty vector is the greatest one of 64 bits. -/
def popBack (var : SafeVector α) : SafeVector α :=
  let var := var.check.markAsUsed
  let last := if var.maxIndex = 0 then 2 ^ 64 - 1 else var.maxIndex - 1
  { var with tmp := some (var.written.erase last), maxIndex := last }

def resizeWith (var : SafeVector α) (count : Nat) (value : α) : SafeVector α :=
  let var := var.check
  let tmp :=
    if count < var.maxIndex then var.written.eraseKeys (Finset.Ico count var.maxIndex)
    else emplaceAll var.written (Finset.Ico var.maxIndex count) fun _ => value
  { var with tmp := some tmp, maxIndex := count, base := var.base.markAsUsed }

def resize (var : SafeVector α) (count : Nat) : SafeVector α := var.resizeWith count default

/-- One entry of the map, in the order of the indices. -/
def commitEntry (vector : List α) (entry : Nat × α) : List α :=
  if entry.1 < vector.length then vector.set entry.1 entry.2 else vector ++ [entry.2]

/-- The map is kept, and the variable stays registered. -/
def commit (var : SafeVector α) : SafeVector α :=
  let var := var.check
  let vector := (if var.clear then [] else var.vector).take var.maxIndex
  let vector := (var.written.keys.sort.map fun index => (index, var.written.value index)).foldl commitEntry vector
  { var with vector, clear := false, maxIndex := vector.length }

def revert (var : SafeVector α) : SafeVector α := { var with tmp := none, clear := false, maxIndex := var.vector.length }

def step (var : SafeVector α) : VectorCall α → VectorAnswer α × SafeVector α
  | .assign count value => (.ok .done, var.assign count value)
  | .assignRange values => (.ok .done, var.assignRange values)
  | .«at» pos use => var.«at» pos use
  | .subscript pos use => var.«at» pos use
  | .empty => (.ok (.flag var.empty), var)
  | .size =>
    let (size, var) := var.size
    (.ok (.index size), var)
  | .clear => (.ok .done, var.clearAll)
  | .insert pos value => var.passing (fun var => var.passing (fun var => var.insert pos value) value) pos
  | .erase pos => var.erase pos
  | .eraseRange first last => var.eraseRange first last
  | .pushBack value => var.passing (fun var => (.ok .done, var.pushBack (read var.written value))) value
  | .emplaceBack value => (.ok .done, var.pushBack value)
  | .popBack => (.ok .done, var.popBack)
  | .resize count => (.ok .done, var.resize count)
  | .resizeWith count value => var.passing (fun var => (.ok .done, var.resizeWith count (read var.written value))) value
  | .get => (.ok (.elements var.vector), var)
  | .commit => (.ok .done, var.commit)
  | .revert => (.ok .done, var.revert)

end SafeVector
end OrbiterSDK
