import OrbiterSDK.SafeIntArithmetic
import OrbiterSDK.SafeUnorderedMap
import OrbiterSDK.Lib.Enlisted

/-! The variables of all contracts, and the logger that a call of a contract collects them in. The
list of the library is `usedVars_`, and the groups are the contracts of the manager, the recent
ones `recentContracts_`. -/

namespace OrbiterSDK
open Lib

def SafeScalar.kind (α : Type) (commit revert : SafeScalar α → SafeScalar α) : Enlisting Exception where
  Value := α
  Object := SafeScalar α
  Call := ScalarCall α
  Reply := α
  make := deployed
  step := step
  listed var := var.base.registered
  close kept var := if kept then commit var else revert var

/-- Commits and reverts, which contracts do not call. -/
def MapCall.closes {κ ν : Type} : MapCall κ ν → Bool
  | commit | revert => true
  | find _ _ | contains _ | count _ | «at» _ _ | subscript _ _ | insert _ _ | insertRange _ | insertOrAssign _ _ | emplace _ _
  | erase _ | eraseMoved _ _ | empty => false

namespace SafeUnorderedMap
variable (κ ν : Type) [DecidableEq κ] [Inhabited ν]

/-- A map of a contract that is deployed. -/
def deployed {κ ν : Type} [Inhabited ν] (map : Table κ ν) : SafeUnorderedMap κ ν := { base := { owned := true, shouldRegister := true }, map }

def kind : Enlisting Exception where
  Value := Table κ ν
  Object := SafeUnorderedMap κ ν
  Call := { call : MapCall κ ν // call.closes = false }
  Reply := MapReply ν
  make := deployed
  step var call := var.step call.1
  listed var := var.base.registered
  close kept var := if kept then var.commit else var.revert

end SafeUnorderedMap

/-- The class of a variable. -/
inductive SafeVariable where
  | uint (Size : Nat)
  | int (Size : Nat)
  | bool
  | string
  | address
  | unorderedMap (Key Value : Type) [DecidableEq Key] [Inhabited Value]

def SafeVariable.kind : SafeVariable → Enlisting Exception
  | uint Size => SafeScalar.kind (BitVec Size) SafeUint_t.commit SafeUint_t.revert
  | int Size => SafeScalar.kind (SafeInt_t.Value Size) SafeInt_t.commit SafeInt_t.revert
  | bool => SafeScalar.kind Bool SafeBool.commit SafeBool.revert
  | string => SafeScalar.kind Bytes SafeString.commit SafeString.revert
  | address => SafeScalar.kind Address SafeAddress.commit SafeAddress.revert
  | unorderedMap Key Value => SafeUnorderedMap.kind Key Value

variable {Variable : Type} [DecidableEq Variable] (classes : Variable → SafeVariable) (owner : Variable → Address)

/-- The contracts of the manager with all their variables. -/
abbrev ContractVariables := Enlisting.Objects (fun var => (classes var).kind) Address

/-- What a call does with variables, of whatever contracts: those that it enters, enters from there or creates. -/
abbrev VariableProgram := Enlisting.Script (fun var => (classes var).kind) Address

namespace ContractCallLogger

def setting : Enlisting.Setting Exception Variable Address where
  group := owner
  absent := "callContractFunction: Contract does not exist"
  taken := "Contract already exists as a Dynamic Contract"

variable {classes}

/-- `callContract` for a transaction: only if nothing is thrown the destructor of the logger commits. -/
def callContract (state : ContractVariables classes) (program : VariableProgram classes) : Except Exception Unit × ContractVariables classes :=
  state.serve (setting owner) program false

/-- The logger of a call that is only tried is never told to commit. -/
def validateCallContractWithTx (state : ContractVariables classes) (program : VariableProgram classes) :
    Except Exception Unit × ContractVariables classes := state.serve (setting owner) program true

/-- One call after the other, each of them tried or for a transaction. -/
def step (state : ContractVariables classes) (request : VariableProgram classes × Bool) : Except Exception Unit × ContractVariables classes :=
  if request.2 then validateCallContractWithTx owner state request.1 else callContract owner state request.1

end ContractCallLogger
end OrbiterSDK
