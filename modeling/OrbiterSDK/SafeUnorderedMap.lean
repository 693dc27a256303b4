import OrbiterSDK.Variables
import OrbiterSDK.Lib.Table

/-! Maps of contracts. Writes go to a second map and erased keys to a set, until both are
committed or reverted. -/

namespace OrbiterSDK
open Lib

structure SafeUnorderedMap (κ ν : Type) [Inhabited ν] where
  base : SafeBase
  map : Table κ ν
  mapPtr : Option (Table κ ν) := none
  erasedKeys : Option (Finset κ) := none

/-- A call of a member function. A reference or an iterator that is returned may be used at once
to write the value that it points to. -/
inductive MapCall (κ ν : Type) where
  | find (key : κ) (use : ν → ν)
  | contains (key : κ)
  | count (key : κ)
  | «at» (key : κ) (use : ν → ν)
  | subscript (key : κ) (use : ν → ν)
  | insert (key : κ) (value : ν)
  | insertRange (entries : List (κ × ν))
  | insertOrAssign (key : κ) (value : ν)
  | emplace (key : κ) (value : ν)
  | erase (key : κ)
  /-- With a key that is given away, and what is left of it then. -/
  | eraseMoved (key left : κ)
  | empty
  | commit
  | revert

inductive MapReply (ν : Type) where
  | done
  | flag (value : Bool)
  | size (value : Nat)
  /-- What an iterator points to, unless it is the end. -/
  | entry (value : Option ν)
  /-- What the iterator of an insertion points to, and whether the entry is new. -/
  | placed (value : ν) (inserted : Bool)
  deriving DecidableEq

abbrev MapAnswer (ν : Type) := Except Exception (MapReply ν)

namespace SafeUnorderedMap
variable {κ ν : Type} [DecidableEq κ] [Inhabited ν]

/-- The constructor with an owner. -/
def ofOwner (map : Table κ ν) : SafeUnorderedMap κ ν := { base := { owned := true }, map }

/-- The constructor without one, whose map is not committed. -/
def ofMap (map : Table κ ν) : SafeUnorderedMap κ ν := { base := { owned := false }, map := default, mapPtr := some map }

/-- The overlays as they are after `check()`. -/
def written (var : SafeUnorderedMap κ ν) : Table κ ν := var.mapPtr.getD default

def erased (var : SafeUnorderedMap κ ν) : Finset κ := var.erasedKeys.getD ∅

def check (var : SafeUnorderedMap κ ν) : SafeUnorderedMap κ ν :=
  { var with mapPtr := some var.written, erasedKeys := some var.erased }

/-- The copy constructor, which gives the copy and leaves the original checked. -/
def copied (var : SafeUnorderedMap κ ν) : SafeUnorderedMap κ ν × SafeUnorderedMap κ ν :=
  ({ base := { owned := false }, map := var.map, mapPtr := some var.written, erasedKeys := some var.erased }, var.check)

def markAsUsed (var : SafeUnorderedMap κ ν) : SafeUnorderedMap κ ν := { var with base := var.base.markAsUsed }

/-- `(*mapPtr_)[key] = value`, and writes through references to it. -/
def write (var : SafeUnorderedMap κ ν) (key : κ) (update : ν → ν) : SafeUnorderedMap κ ν :=
  { var with mapPtr := some (var.written.modify key update) }

def checkKeyAndCopy (var : SafeUnorderedMap κ ν) (key : κ) : SafeUnorderedMap κ ν :=
  let var := var.check
  if var.written.contains key then var
  else match var.map.find key with
    | none => var
    | some value => if key ∈ var.erased then var else var.write key fun _ => value

def checkKeyAndCreate (var : SafeUnorderedMap κ ν) (key : κ) : SafeUnorderedMap κ ν :=
  let var := var.check
  if var.written.contains key then var
  else match var.map.find key with
    | none => var.write key fun _ => default
    | some value => var.write key fun _ => if key ∈ var.erased then default else value

def checkKeyAndThrow (var : SafeUnorderedMap κ ν) (key : κ) : Except Exception Unit × SafeUnorderedMap κ ν :=
  let var := var.check
  if var.written.contains key then (.ok (), var)
  else match var.map.find key with
    | none => (.error "Key not found", var)
    | some value =>
      if key ∈ var.erased then (.error "Key not found", var) else (.ok (), var.write key fun _ => value)

def find (var : SafeUnorderedMap κ ν) (key : κ) (use : ν → ν) : MapAnswer ν × SafeUnorderedMap κ ν :=
  let var := (var.checkKeyAndCopy key).markAsUsed
  match var.written.find key with
  | none => (.ok (.entry none), var)
  | some value => (.ok (.entry (some value)), var.write key use)

def count (var : SafeUnorderedMap κ ν) (key : κ) : Nat × SafeUnorderedMap κ ν :=
  let var := var.checkKeyAndCopy key
  (if var.written.contains key then 1 else 0, var)

def contains (var : SafeUnorderedMap κ ν) (key : κ) : Bool × SafeUnorderedMap κ ν :=
  let var := var.checkKeyAndCopy key
  (var.written.contains key, var)

/-- A reference into the overlay. -/
def reference (var : SafeUnorderedMap κ ν) (key : κ) (use : ν → ν) : MapAnswer ν × SafeUnorderedMap κ ν :=
  (.ok (.entry (some (var.written.value key))), var.write key use)

def «at» (var : SafeUnorderedMap κ ν) (key : κ) (use : ν → ν) : MapAnswer ν × SafeUnorderedMap κ ν :=
  match var.checkKeyAndThrow key with
  | (.error what, var) => (.error what, var)
  | (.ok (), var) => var.markAsUsed.reference key use

def subscript (var : SafeUnorderedMap κ ν) (key : κ) (use : ν → ν) : MapAnswer ν × SafeUnorderedMap κ ν :=
  (var.checkKeyAndCreate key).markAsUsed.reference key use

/-- `mapPtr_->insert`, for the variants that end there. -/
def place (var : SafeUnorderedMap κ ν) (key : κ) (value : ν) : MapAnswer ν × SafeUnorderedMap κ ν :=
  match var.written.find key with
  | some present => (.ok (.placed present false), var)
  | none => (.ok (.placed value true), var.write key fun _ => value)

def insert (var : SafeUnorderedMap κ ν) (key : κ) (value : ν) : MapAnswer ν × SafeUnorderedMap κ ν :=
  var.check.markAsUsed.place key value

/-- One entry after the other. -/
def insertRange (var : SafeUnorderedMap κ ν) (entries : List (κ × ν)) : SafeUnorderedMap κ ν :=
  entries.foldl (fun var entry => (var.place entry.1 entry.2).2) var.check.markAsUsed

def insertOrAssign (var : SafeUnorderedMap κ ν) (key : κ) (value : ν) : MapAnswer ν × SafeUnorderedMap κ ν :=
  let var := var.check.markAsUsed
  (.ok (.placed value (!var.written.contains key)), var.write key fun _ => value)

def emplace (var : SafeUnorderedMap κ ν) (key : κ) (value : ν) : MapAnswer ν × SafeUnorderedMap κ ν :=
  var.check.markAsUsed.place key value

/-- One key goes to the set, one is erased from the overlay. -/
def drop (var : SafeUnorderedMap κ ν) (key left : κ) : Nat × SafeUnorderedMap κ ν :=
  (if var.written.contains left then 1 else 0,
    { var with mapPtr := some (var.written.erase left), erasedKeys := some (Insert.insert key var.erased) })

def erase (var : SafeUnorderedMap κ ν) (key : κ) : Nat × SafeUnorderedMap κ ν := var.check.markAsUsed.drop key key

/-- A key that the set has already is not moved from. -/
def eraseMoved (var : SafeUnorderedMap κ ν) (key left : κ) : Nat × SafeUnorderedMap κ ν :=
  let var := var.check.markAsUsed
  var.drop key (if key ∈ var.erased then key else left)

def empty (var : SafeUnorderedMap κ ν) : Bool × SafeUnorderedMap κ ν :=
  let var := var.check
  (decide (var.map.keys = ∅ ∨ var.written.keys = ∅), var)

/-- Of the committed map alone. -/
def size (var : SafeUnorderedMap κ ν) : Nat × SafeUnorderedMap κ ν := (var.map.keys.card, var.check)

/-- Nodes of new keys are moved, the other ones copied, and erased keys go last. Nothing empties the set of them. -/
def commit (var : SafeUnorderedMap κ ν) : SafeUnorderedMap κ ν :=
  let var := var.check
  let merged := var.map.assign (var.written.keys \ var.map.keys) fun key _ => var.written.value key
  let assigned := merged.assign (var.written.keys ∩ var.map.keys) fun key _ => var.written.value key
  { var with
    map := assigned.eraseKeys var.erased
    mapPtr := none
    base := var.base.unregister }

def revert (var : SafeUnorderedMap κ ν) : SafeUnorderedMap κ ν :=
  { var with mapPtr := none, erasedKeys := none, base := var.base.unregister }

def step (var : SafeUnorderedMap κ ν) : MapCall κ ν → MapAnswer ν × SafeUnorderedMap κ ν
  | .find key use => var.find key use
  | .contains key =>
    let (value, var) := var.contains key
    (.ok (.flag value), var)
  | .count key =>
    let (value, var) := var.count key
    (.ok (.size value), var)
  | .«at» key use => var.«at» key use
  | .subscript key use => var.subscript key use
  | .insert key value => var.insert key value
  | .insertRange entries => (.ok .done, var.insertRange entries)
  | .insertOrAssign key value => var.insertOrAssign key value
  | .emplace key value => var.emplace key value
  | .erase key =>
    let (value, var) := var.erase key
    (.ok (.size value), var)
  | .eraseMoved key left =>
    let (value, var) := var.eraseMoved key left
    (.ok (.size value), var)
  | .empty =>
    let (value, var) := var.empty
    (.ok (.flag value), var)
  | .commit => (.ok .done, var.commit)
  | .revert => (.ok .done, var.revert)

end SafeUnorderedMap
end OrbiterSDK
