import OrbiterSDK.ContractManager

/-! Calls between contracts. An object of a contract has one place for the origin, the caller
and the value of a call, which is written whenever the contract is entered. -/

namespace OrbiterSDK
open Lib

structure ContractLocals where
  origin : Address
  caller : Address
  value : Uint256
  deriving DecidableEq

/-- One execution of a contract function that was called with a value: the functions that it calls,
in their order, and what it throws after them. How it decides on them does not matter here. -/
inductive ContractCall where
  | call (target : Address) (value : Uint256) (inner : List ContractCall) (thrown : Option Exception)

/-- A contract that has control again, with what its getters said before the inner call and what they say after it. -/
structure Return where
  contract : Address
  before : ContractLocals
  after : ContractLocals
  deriving DecidableEq

namespace ContractCallLogger

def setContractVars (locals : Address → ContractLocals) (contract origin caller : Address) (value : Uint256) :
    Address → ContractLocals :=
  Function.update locals contract ⟨origin, caller, value⟩

end ContractCallLogger

/-- What the calls of one transaction work on. -/
structure CallState where
  locals : Address → ContractLocals
  logger : ContractCallLogger := {}

structure CallOutcome where
  result : Except Exception Unit
  returns : List Return
  state : CallState

namespace ContractManagerInterface

/-- The accounts of the state, and the addresses with a contract. -/
structure Surroundings where
  accounts : Table Address EVMAccount
  contracts : Address → Bool

variable (around : Surroundings)

/-- The payment of a call, if it carries a value. -/
def pay (fromAddr targetAddr : Address) (value : Uint256) (logger : ContractCallLogger) : Except Exception ContractCallLogger :=
  if value = 0 then .ok logger else logger.sendTokens around.accounts fromAddr targetAddr value

/-- What happens before the function runs. -/
def enter (txOrigin fromAddr targetAddr : Address) (value : Uint256) (state : CallState) : Except Exception CallState := do
  let logger ← pay around fromAddr targetAddr value state.logger
  if !around.contracts targetAddr then throw "callContractFunction: Contract does not exist"
  else pure { locals := ContractCallLogger.setContractVars state.locals targetAddr txOrigin fromAddr value, logger }

/-- How a function ends after its calls. -/
def finish (thrown : Option Exception) (outcome : CallOutcome) : CallOutcome :=
  match outcome.result, thrown with
  | .ok (), some what => { outcome with result := .error what }
  | _, _ => outcome

mutual

/-- A call that contract `self` makes. It hands on the origin that it was entered with. -/
def callContractFunction (self : Address) : ContractCall → CallState → CallOutcome
  | .call target value inner thrown, state =>
    match enter around (state.locals self).origin self target value state with
    | .error what => ⟨.error what, [], state⟩
    | .ok entered => finish thrown (callAll target inner entered)

/-- The calls of a function of `self`. No contract catches an exception. -/
def callAll (self : Address) : List ContractCall → CallState → CallOutcome
  | [], state => ⟨.ok (), [], state⟩
  | call :: rest, state =>
    let first := callContractFunction self call state
    match first.result with
    | .error what => ⟨.error what, first.returns, first.state⟩
    | .ok () =>
      let later := callAll self rest first.state
      { later with returns := first.returns ++ ⟨self, state.locals self, first.state.locals self⟩ :: later.returns }

end

/-- `ContractManager::callContract`, for a transaction to a contract whose function makes these calls. -/
def callContract (tx : TxBlock) (inner : List ContractCall) (thrown : Option Exception) (locals : Address → ContractLocals) : CallOutcome :=
  if !around.contracts tx.to then ⟨.error "callContract(void): Contract does not exist", [], { locals }⟩
  else finish thrown (callAll around tx.to inner { locals := ContractCallLogger.setContractVars locals tx.to tx.from tx.from tx.value })

end ContractManagerInterface

/-- `callContractFunction` as far as the manager of the balances is concerned. The part of the called
contract is followed by the rest of the caller's. -/
def ContractProgram.callContractFunction {World : Type} (contracts : Address → Bool) (fromAddr targetAddr : Address) (value : Uint256)
    (called : ContractProgram World) : ContractProgram World :=
  let entered := if contracts targetAddr then called else .throw "callContractFunction: Contract does not exist"
  if value = 0 then entered else .sendTokens fromAddr targetAddr value entered

end OrbiterSDK
