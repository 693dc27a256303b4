import OrbiterSDK.EVMHost
import OrbiterSDK.Lib.MultiIndex

/-! Built-in contracts, behind their manager. What a contract computes belongs to
the contract; the manager decides which one runs, gives it balances to work on and
keeps or discards its variables, its events and those balances as a whole. -/

namespace OrbiterSDK
open Lib

structure Event where
  name : String
  logIndex : UInt64
  txHash : Hash
  txIndex : UInt64
  blockHash : Hash
  blockIndex : UInt64
  address : Address
  data : Bytes
  topics : List Hash
  anonymous : Bool
  deriving DecidableEq

def Event.setStateData (event : Event) (logIndex : UInt64) (txHash : Hash) (txIndex : UInt64) (blockHash : Hash)
    (blockIndex : UInt64) : Event :=
  { event with logIndex, txHash, txIndex, blockHash, blockIndex }

structure ContractGlobals where
  coinbase : Address := 0
  blockHash : Hash := 0
  blockHeight : UInt64 := 0
  blockTimestamp : UInt64 := 0
  deriving DecidableEq

/-- Both containers list their events in the order in which they were put in. -/
structure EventManager where
  events : List Event := []
  tempEvents : List Event := []
  deriving DecidableEq

namespace EventManager

def registerEvent (manager : EventManager) (event : Event) : EventManager :=
  { manager with tempEvents := manager.tempEvents ++ [event] }

def commitEvent (manager : EventManager) (event : Event) : EventManager :=
  { manager with events := manager.events ++ [event] }

/-- A walk over a container is in the order of the block indices, which the events of contracts get only here. -/
def byBlockIndex (events : List Event) : List Event := MultiIndex.ordered (fun event => event.blockIndex.toNat) events

def commitEvents (manager : EventManager) (globals : ContractGlobals) (txHash : Hash) (txIndex : UInt64) : EventManager :=
  { events := manager.events ++ (byBlockIndex manager.tempEvents).mapIdx fun logIndex event =>
      event.setStateData (UInt64.ofNat logIndex) txHash txIndex globals.blockHash globals.blockHeight
    tempEvents := [] }

def revertEvents (manager : EventManager) : EventManager := { manager with tempEvents := [] }

end EventManager

/-- A run of contract code: it returns, with the contract variables that are left when
they are committed, it throws, it writes variables, or it asks its manager for something.
No contract catches an exception. -/
inductive ContractProgram (World : Type) where
  | done (world : World)
  | throw (what : Exception)
  | write (world : World) (next : ContractProgram World)
  | getBalance (address : Address) (next : Uint256 → ContractProgram World)
  | sendTokens («from» «to» : Address) (amount : Uint256) (next : ContractProgram World)
  | emitEvent (event : Event) (next : ContractProgram World)

/-- The contracts themselves. `World` holds their variables, which of these are registered,
and which contracts are deployed. -/
structure Contracts (World : Type) where
  isDeployed : World → Address → Bool
  isPayableFunction : World → Address → Functor → Bool
  createContractFunc : World → ContractGlobals → Functor → Option (EthCallInfo → ContractProgram World)
  ethCall : World → ContractGlobals → EthCallInfo → ContractProgram World
  ethCallView : World → ContractGlobals → EthCallInfo → Except Exception Bytes
  /-- What the destructor of a call logger that is not to commit makes of the variables: it reverts
  those that were registered with it, and no others. -/
  reverted : World → World := fun world => world

/-- What one call collects before it is committed or reverted. -/
structure ContractCallLogger where
  balances : Table Address Uint256 := default
  tempEvents : List Event := []

namespace ContractCallLogger

/-- What the accounts of the state say, without creating one. -/
def stateBalance (accounts : Table Address EVMAccount) (address : Address) : Uint256 :=
  match accounts.find address with
  | some acc => acc.balance.second
  | none => 0

def populateBalance (logger : ContractCallLogger) (accounts : Table Address EVMAccount) (address : Address) :
    ContractCallLogger :=
  if logger.balances.contains address then logger
  else { logger with balances := logger.balances.modify address fun _ => stateBalance accounts address }

def sendTokens (logger : ContractCallLogger) (accounts : Table Address EVMAccount) («from» «to» : Address)
    (amount : Uint256) : Except Exception ContractCallLogger :=
  let logger := (logger.populateBalance accounts «from»).populateBalance accounts «to»
  if logger.balances.value «from» < amount then .error "ContractManager::sendTokens: Not enough balance"
  else do
    let rest ← Uint256.sub (logger.balances.value «from») amount
    let balances := logger.balances.modify «from» fun _ => rest
    let sum ← Uint256.add (balances.value «to») amount
    pure { logger with balances := balances.modify «to» fun _ => sum }

end ContractCallLogger

def ContractProgram.run {World : Type} (accounts : Table Address EVMAccount) :
    ContractProgram World → ContractCallLogger → Except Exception (World × ContractCallLogger)
  | done world, logger => .ok (world, logger)
  | throw what, _ => .error what
  | write _ next, logger => next.run accounts logger
  | getBalance address next, logger =>
      let logger := logger.populateBalance accounts address
      (next (logger.balances.value address)).run accounts logger
  | sendTokens «from» «to» amount next, logger =>
      match logger.sendTokens accounts «from» «to» amount with
      | .error what => .error what
      | .ok logger => next.run accounts logger
  | emitEvent event next, logger => next.run accounts { logger with tempEvents := logger.tempEvents ++ [event] }

/-- The variables as they are when a run ends, whether it returns or throws, before the logger is destroyed. -/
def ContractProgram.written {World : Type} (accounts : Table Address EVMAccount) :
    ContractProgram World → World → ContractCallLogger → World
  | done _, world, _ => world
  | throw _, world, _ => world
  | write world next, _, logger => next.written accounts world logger
  | getBalance address next, world, logger =>
      let logger := logger.populateBalance accounts address
      (next (logger.balances.value address)).written accounts world logger
  | sendTokens «from» «to» amount next, world, logger =>
      match logger.sendTokens accounts «from» «to» amount with
      | .error _ => world
      | .ok logger => next.written accounts world logger
  | emitEvent event next, world, logger => next.written accounts world { logger with tempEvents := logger.tempEvents ++ [event] }

/-- The protocol contracts. -/
def rdPoSAddress : Address := 0xb23aa52dbeda59277ab8a962c69f5971f22904cf
def contractManagerAddress : Address := 0x0001cb47ea6d8b55fe44fdd6b1bdb579efb43e61

structure ContractManager (World : Type) where
  world : World
  eventManager : EventManager := {}
  globals : ContractGlobals := {}

namespace ContractManager
variable {World : Type} (contracts : Contracts World) (chainOwner : Address)

/-- The manager's own entry point, which creates contracts. -/
def ethCall (manager : ContractManager World) (callInfo : EthCallInfo) : ContractProgram World :=
  if callInfo.from ≠ chainOwner then .throw "Only chainOwner can call ContractManager functions"
  else
    match contracts.createContractFunc manager.world manager.globals callInfo.functor with
    | none => .throw ("Invalid function call with functor: " ++ Utils.hexFromBytes (Utils.uintToBytes 4 callInfo.functor.toNat))
    | some create => create callInfo

def isPayable (manager : ContractManager World) (callInfo : EthCallInfo) : Bool :=
  contracts.isDeployed manager.world callInfo.to &&
    contracts.isPayableFunction manager.world callInfo.to callInfo.functor

def isContractAddress (manager : ContractManager World) (address : Address) : Bool :=
  address = rdPoSAddress || address = contractManagerAddress || contracts.isDeployed manager.world address

def isContractCall (manager : ContractManager World) (tx : TxBlock) : Bool :=
  isContractAddress contracts manager tx.to

/-- The code that a call from a transaction reaches. -/
def called (manager : ContractManager World) (callInfo : EthCallInfo) : ContractProgram World :=
  if callInfo.to = contractManagerAddress then manager.ethCall contracts chainOwner callInfo
  else if callInfo.to = rdPoSAddress then .throw "Derived Class from Contract does not override ethCall()"
  else if !contracts.isDeployed manager.world callInfo.to then .throw "callContract(void): Contract does not exist"
  else contracts.ethCall manager.world manager.globals callInfo

/-- Whether the manager hands the balances of a finished call back to the state. It
asks the contract object found before the call, whose functions are fixed. -/
def settles (manager : ContractManager World) (callInfo : EthCallInfo) : Bool :=
  callInfo.to ≠ contractManagerAddress && callInfo.to ≠ rdPoSAddress && isPayable contracts manager callInfo

/-- The view call of `eth_call`. -/
def callContractView (manager : ContractManager World) (callInfo : EthCallInfo) : Except Exception Bytes :=
  if callInfo.to ≠ contractManagerAddress ∧ callInfo.to ≠ rdPoSAddress ∧
      !contracts.isDeployed manager.world callInfo.to then
    .error "callContract(Bytes): Contract does not exist"
  else contracts.ethCallView manager.world manager.globals callInfo

/-- What is left of code whose logger is reverted. -/
def discard (manager : ContractManager World) (accounts : Table Address EVMAccount) (program : ContractProgram World)
    (logger : ContractCallLogger) : ContractManager World :=
  { manager with
    world := contracts.reverted (program.written accounts manager.world logger)
    eventManager := manager.eventManager.revertEvents }

/-- The balances that a dry run starts from, where the value has moved. -/
def paidLogger (accounts : Table Address EVMAccount) (callInfo : EthCallInfo) : Except Exception ContractCallLogger :=
  if callInfo.value = 0 then .ok {}
  else do
    let logger := (ContractCallLogger.populateBalance {} accounts callInfo.from).populateBalance accounts callInfo.to
    let rest ← Uint256.sub (logger.balances.value callInfo.from) callInfo.value
    let balances := logger.balances.modify callInfo.from fun _ => rest
    let sum ← Uint256.add (balances.value callInfo.to) callInfo.value
    pure { logger with balances := balances.modify callInfo.to fun _ => sum }

/-- A dry run, whose logger is always reverted. -/
def validateCallContractWithTx (manager : ContractManager World) (accounts : Table Address EVMAccount)
    (callInfo : EthCallInfo) : Except Exception Bool × ContractManager World :=
  let manager := { manager with eventManager := manager.eventManager.revertEvents }
  match paidLogger accounts callInfo with
  | .error what => (.error what, manager)
  | .ok logger =>
    if callInfo.to ≠ contractManagerAddress ∧ callInfo.to ≠ rdPoSAddress ∧
        !contracts.isDeployed manager.world callInfo.to then (.ok false, manager)
    else
      let program := called contracts chainOwner manager callInfo
      ((program.run accounts logger).map fun _ => true, discard contracts manager accounts program logger)

end ContractManager
/-! The creation of built-in contracts. The manager keeps them under their addresses,
here in the order of their creation; a call that is reverted erases those it created. -/

/-- The bytes that are hashed are laid out as in the host, with the number of contracts in the place of the nonce. -/
def ContractManager.deriveContractAddress (sha3 : Bytes → Hash) (caller : Address) (contracts : List Address) : Address :=
  EVMHost.deriveContractAddress sha3 contracts.length caller

namespace ContractFactory

/-- Where a new contract goes. -/
def setupNewContract (sha3 : Bytes → Hash) (contractCreator origin caller : Address) (contracts : List Address) :
    Except Exception Address :=
  if origin ≠ contractCreator then .error "Only contract creator can create new contracts"
  else
    let derivedAddress := ContractManager.deriveContractAddress sha3 caller contracts
    if derivedAddress ∈ contracts then .error "Contract already exists as a Dynamic Contract"
    else if derivedAddress = rdPoSAddress ∨ derivedAddress = contractManagerAddress then
      .error "Contract already exists as a Protocol Contract"
    else .ok derivedAddress

/-- The contracts after a creation. Whether the arguments decode and what the constructor
does with them belongs to the contract. -/
def createNewContract (sha3 : Bytes → Hash) (contractCreator origin caller : Address)
    (construct : Address → Except Exception Unit) (contracts : List Address) : Except Exception (List Address) := do
  let derivedAddress ← setupNewContract sha3 contractCreator origin caller contracts
  construct derivedAddress
  pure (contracts ++ [derivedAddress])

end ContractFactory
end OrbiterSDK
