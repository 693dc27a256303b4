import OrbiterSDK.Utils

/-! What all safe variables of a contract have in common, and the variables with a single value. -/

namespace OrbiterSDK

/-- `SafeBase`: whether a contract owns the variable, whether the call that runs has it on its
list, and whether it may be put there. -/
structure SafeBase where
  owned : Bool
  registered : Bool := false
  shouldRegister : Bool := false
  deriving DecidableEq

namespace SafeBase

def enableRegister (base : SafeBase) : SafeBase := { base with shouldRegister := true }

/-- Whether `registerVariableUse` is called. -/
def registers (base : SafeBase) : Bool := base.owned && !base.registered && base.shouldRegister

def markAsUsed (base : SafeBase) : SafeBase := if base.registers then { base with registered := true } else base

/-- What most variables do at the end of `commit()` and `revert()`. -/
def unregister (base : SafeBase) : SafeBase := { base with registered := false }

end SafeBase

/-- A variable with a single value, and the copy of it that is worked on. -/
structure SafeScalar (α : Type) where
  base : SafeBase
  value : α
  valuePtr : Option α := none
  deriving DecidableEq

/-- A call of a member function. Functions that change the value may throw before they mark the variable and after it. -/
inductive ScalarCall (α : Type) where
  | get
  | mutate (refuse : α → Option Exception) (op : α → Except Exception α)

namespace SafeScalar
variable {α : Type}

/-- The copy as it is after `check()`. -/
def written (var : SafeScalar α) : α := var.valuePtr.getD var.value

def check (var : SafeScalar α) : SafeScalar α := { var with valuePtr := some var.written }

def markAsUsed (var : SafeScalar α) : SafeScalar α := { var with base := var.base.markAsUsed }

def get (var : SafeScalar α) : α × SafeScalar α := (var.written, var.check)

def mutate (var : SafeScalar α) (refuse : α → Option Exception) (op : α → Except Exception α) : Except Exception α × SafeScalar α :=
  let var := var.check
  match refuse var.written with
  | some what => (.error what, var)
  | none =>
    let var := var.markAsUsed
    match op var.written with
    | .error what => (.error what, var)
    | .ok value => (.ok value, { var with valuePtr := some value })

/-- A variable of a contract that is deployed: it was committed by the constructor, which let it be registered from then on. -/
def deployed (value : α) : SafeScalar α := { base := { owned := true, shouldRegister := true }, value }

def step (var : SafeScalar α) : ScalarCall α → Except Exception α × SafeScalar α
  | .get => (.ok var.get.1, var.get.2)
  | .mutate refuse op => var.mutate refuse op

/-- Whether the copy stays, and whether the variable is unregistered. -/
def commitWith (keeps unregisters : Bool) (var : SafeScalar α) : SafeScalar α where
  base := if unregisters then var.base.unregister else var.base
  value := var.written
  valuePtr := if keeps then some var.written else none

def revertWith (unregisters : Bool) (var : SafeScalar α) : SafeScalar α where
  base := if unregisters then var.base.unregister else var.base
  value := var.value

end SafeScalar

def SafeUint_t.commit {α : Type} : SafeScalar α → SafeScalar α := SafeScalar.commitWith false true
def SafeUint_t.revert {α : Type} : SafeScalar α → SafeScalar α := SafeScalar.revertWith true

def SafeInt_t.commit {α : Type} : SafeScalar α → SafeScalar α := SafeScalar.commitWith false true
def SafeInt_t.revert {α : Type} : SafeScalar α → SafeScalar α := SafeScalar.revertWith true

def SafeBool.commit : SafeScalar Bool → SafeScalar Bool := SafeScalar.commitWith false true
def SafeBool.revert : SafeScalar Bool → SafeScalar Bool := SafeScalar.revertWith true

/-- The copy of a string stays, with the value that was committed. -/
def SafeString.commit : SafeScalar Bytes → SafeScalar Bytes := SafeScalar.commitWith true true
def SafeString.revert : SafeScalar Bytes → SafeScalar Bytes := SafeScalar.revertWith true

/-- An address is not unregistered. -/
def SafeAddress.commit : SafeScalar Address → SafeScalar Address := SafeScalar.commitWith false false
def SafeAddress.revert : SafeScalar Address → SafeScalar Address := SafeScalar.revertWith false

end OrbiterSDK
