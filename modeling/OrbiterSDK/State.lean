import OrbiterSDK.Block
import OrbiterSDK.ContractManager
import OrbiterSDK.Lib.Action

/-! The state of the chain and the processing of one transaction. -/

namespace OrbiterSDK
open Lib

/-- Why a call stops early: it throws, or it waits forever for a mutex it holds itself. -/
inductive Stop where
  | exception (what : Exception)
  | deadlock
  deriving DecidableEq

inductive TxInvalid where
  | notInvalid | invalidNonce | invalidBalance
  deriving DecidableEq

/-- How the calling thread holds a `std::shared_mutex`. -/
inductive Mutex where
  | free | shared | unique
  deriving DecidableEq

/-- The blocks of the storage, the latest of them apart. -/
structure Chain where
  older : List Block
  latest : Block

/-- Everything around the state: libraries, contracts, options and consensus. A
checked `+=` or `-=` that throws leaves its operand with a value that the integer
library does not specify, `overflowed` and `underflowed`. -/
structure Env (World : Type) where
  vm : Vm
  contracts : Contracts World
  chainOwner : Address
  chainID : Uint256
  rdposValidateBlock : Hash → Block → Bool
  overflowed : Uint256 → Uint256 → Uint256
  underflowed : Uint256 → Uint256 → Uint256

structure State (World : Type) where
  evmHost : EVMHost
  contractManager : ContractManager World
  /-- `bestRandomSeed_` of the consensus, which determines its random list. -/
  rdposSeed : Hash
  mempool : List (Hash × TxBlock) := []
  processingPayable : Bool := false
  storage : Chain
  stateMutex : Mutex := .free

/-- The parameters of `processTransaction` that come from the block. -/
structure BlockContext where
  blockHash : Hash
  blockHeight : UInt64
  blockCoinbase : Address
  blockTimestamp : UInt64
  blockGasLimit : UInt64
  chainId : Uint256

abbrev Act (World α : Type) := Action (State World) Stop α

namespace State
variable {World : Type}

def balanceOf (state : State World) (addr : Address) : Uint256 := state.evmHost.balanceOf addr

def nonceOf (state : State World) (addr : Address) : UInt64 := (state.evmHost.account addr).nonce.second

def latest (state : State World) : Block := state.storage.latest

def inMempool (state : State World) (hash : Hash) : Bool := state.mempool.any (·.1 = hash)

/-- The checks of a transaction that the mempool does not hold already. -/
def validateAgainstAccounts (state : State World) (tx : TxBlock) : Except Exception TxInvalid :=
  match state.evmHost.accounts.find tx.from with
  | none => .ok .invalidBalance
  | some acc => do
    let fees ← Uint256.mul tx.gasLimit tx.maxFeePerGas
    let txWithFees ← Uint256.add tx.value fees
    if acc.balance.second < txWithFees then pure .invalidBalance
    else if acc.nonce.second.toNat ≠ tx.nonce.toNat then pure .invalidNonce
    else pure .notInvalid

def validateTransactionInternal (state : State World) (tx : TxBlock) : Except Exception TxInvalid :=
  if state.inMempool tx.hash then .ok .notInvalid else state.validateAgainstAccounts tx

/-! Statements. -/

def onHost (update : EVMHost → EVMHost) : Act World Unit :=
  modify fun state => { state with evmHost := update state.evmHost }

def raise {α : Type} (what : Exception) : Act World α := throw (.exception what)

/-- The value of a checked expression. -/
def checked {α : Type} : Except Exception α → Act World α
  | .ok value => pure value
  | .error what => raise what

/-- `catch (const std::exception& e)`. -/
def catching {α : Type} (body : Act World α) (handler : Exception → Act World α) : Act World α :=
  tryCatch body fun
    | .exception what => handler what
    | .deadlock => throw .deadlock

section Balances
variable (env : Env World)

/-- `accounts[addr].balance.second += amount`. -/
def credit (addr : Address) (amount : Uint256) : Act World Unit := do
  let balance := (← get).balanceOf addr
  match Uint256.add balance amount with
  | .ok sum => onHost (·.setBalance addr sum)
  | .error what =>
    onHost (·.setBalance addr (env.overflowed balance amount))
    raise what

/-- `accounts[addr].balance.second -= amount`. -/
def debit (addr : Address) (amount : Uint256) : Act World Unit := do
  let balance := (← get).balanceOf addr
  match Uint256.sub balance amount with
  | .ok rest => onHost (·.setBalance addr rest)
  | .error what =>
    onHost (·.setBalance addr (env.underflowed balance amount))
    raise what

end Balances

def pushBalance (addr : Address) : Act World Unit :=
  onHost fun host => { host with accessedAccountsBalances := host.accessedAccountsBalances ++ [addr] }

def pushNonce (addr : Address) : Act World Unit :=
  onHost fun host => { host with accessedAccountsNonces := host.accessedAccountsNonces ++ [addr] }

def hostExecute (env : Env World) (callInfo : EthCallInfo) : Act World EvmcResult := do
  let (result, host) := (← get).evmHost.execute env.vm callInfo
  onHost fun _ => host
  checked result

def setProcessingPayable (value : Bool) : Act World Unit :=
  modify fun state => { state with processingPayable := value }

/-- Every entry of the map becomes the current balance of its account, and for every
one of them the address of the contract manager is noted as accessed. -/
def processContractPayable (payableMap : Table Address Uint256) : Act World Unit := do
  if !(← get).processingPayable then
    raise "Uh oh, contracts are going haywire! Cannot change State while not processing a payable contract."
  else onHost fun host => { host with
    accessedAccountsBalances :=
      host.accessedAccountsBalances ++ List.replicate payableMap.keys.card contractManagerAddress
    accounts := host.accounts.assign payableMap.keys fun address acc =>
      { acc with balance := acc.balance.write (payableMap.value address) } }

/-- The balances of a finished call go back to the state if its function is payable. -/
def settle (env : Env World) (callInfo : EthCallInfo) (balances : Table Address Uint256) : Act World Unit := do
  if (← get).contractManager.settles env.contracts callInfo then processContractPayable balances else pure ()

/-- `ContractManager::callContract` for a transaction. -/
def callContract (env : Env World) (tx : TxBlock) (txIndex : UInt64) : Act World Unit := do
  let state ← get
  let manager := state.contractManager
  let callInfo := tx.txToCallInfo
  let program := manager.called env.contracts env.chainOwner callInfo
  match program.run state.evmHost.accounts {} with
  | .error what =>
    let discarded := manager.discard env.contracts state.evmHost.accounts program {}
    modify fun state => { state with contractManager := discarded }
    raise what
  | .ok (world, logger) =>
    settle env callInfo logger.balances
    let emitted := { manager.eventManager with tempEvents := manager.eventManager.tempEvents ++ logger.tempEvents }
    modify fun state => { state with contractManager :=
      { manager with world, eventManager := emitted.commitEvents manager.globals tx.hash txIndex } }

variable (env : Env World) (tx : TxBlock) (block : BlockContext) (txIndex : UInt64)

/-- Where the value of a transaction to the machine goes. -/
def realTo : Address :=
  if tx.to = 0 then EVMHost.deriveContractAddress env.vm.sha3 tx.nonce.toNat tx.from else tx.to

def isEvmTransaction (state : State World) : Bool := state.evmHost.isEvmContract tx.to || tx.to = 0

def sdkEvent (logIndex : Nat) (emittedEvent : EVMEvent) : Event where
  name := ""
  logIndex := UInt64.ofNat logIndex
  txHash := tx.hash
  txIndex := txIndex
  blockHash := block.blockHash
  blockIndex := block.blockHeight
  address := emittedEvent.creator
  data := emittedEvent.data
  topics := emittedEvent.topics
  anonymous := false

/-- Log the emitted events under the transaction, in order. -/
def registerEvents : Act World Unit :=
  modify fun state =>
    let sdkEvents := state.evmHost.emittedEvents.mapIdx (sdkEvent tx block txIndex)
    let eventManager := sdkEvents.foldl EventManager.commitEvent state.contractManager.eventManager
    { state with contractManager := { state.contractManager with eventManager } }

def transferValue : Act World Unit :=
  if tx.value = 0 then pure ()
  else do
    credit env (realTo env tx) tx.value
    debit env tx.from tx.value
    pushBalance tx.to

def prepareMachine : Act World Unit :=
  onHost fun host => { host.setTxContext tx.txToCallInfo block.blockHeight block.blockCoinbase block.blockTimestamp
    block.blockGasLimit block.chainId with currentTxHash := tx.hash }

def chargeFee (evmCallResult : EvmcResult) : Act World Unit :=
  if evmCallResult.gasLeft < 0 then
    raise "Error when executing EVM contract, gas limit is lower than gas left"
  else do
    let gasUsed ← checked (Uint256.sub tx.gasLimit (BitVec.ofInt 256 evmCallResult.gasLeft))
    let fee ← checked (Uint256.mul gasUsed tx.maxFeePerGas)
    debit env tx.from fee

def executionError (evmCallResult : EvmcResult) : Exception :=
  "Error when executing EVM contract, evmCallResult.status_code: " ++
    env.vm.statusCodeToString evmCallResult.statusCode ++ " bytes: " ++ Utils.hexFromBytes evmCallResult.outputData

/-- Keep what the machine did, unless it failed. -/
def settleMachine (evmCallResult : EvmcResult) : Act World Unit := do
  if evmCallResult.statusCode ≠ .success ∨ (← get).evmHost.shouldRevert = true then
    raise (executionError env evmCallResult)
  else do
    registerEvents tx block txIndex
    onHost (·.commit)
    onHost (·.commitCode)

/-- The `try` block of the machine's branch. -/
def evmBody : Act World Unit := do
  prepareMachine tx block
  let evmCallResult ← hostExecute env tx.txToCallInfo
  chargeFee env tx evmCallResult
  settleMachine env tx block txIndex evmCallResult

def evmRollback : Act World Unit := do
  onHost fun host => { host with shouldRevert := false }
  credit env tx.from tx.value
  debit env (realTo env tx) tx.value
  onHost (·.revert)
  onHost (·.revertCode)

def enterMachine : Act World Unit := do
  pushBalance tx.from
  transferValue env tx

def evmTransaction : Act World Unit := do
  enterMachine env tx
  catching (evmBody env tx block txIndex) fun _ => evmRollback env tx

def markPayable : Act World Unit := do
  if (← get).contractManager.isPayable env.contracts tx.txToCallInfo then setProcessingPayable true else pure ()

def contractPart : Act World Unit := do
  if (← get).contractManager.isContractCall env.contracts tx then do
    markPayable env tx
    callContract env tx txIndex
    setProcessingPayable false
  else pure ()

def classicTransfer : Act World Unit := do
  let fees ← checked (Uint256.mul tx.gasLimit tx.maxFeePerGas)
  let txValueWithFees ← checked (Uint256.add tx.value fees)
  debit env tx.from txValueWithFees
  credit env tx.to tx.value

def classicBody : Act World Unit := do
  classicTransfer env tx
  contractPart env tx txIndex
  pushBalance tx.to
  onHost (·.commit)

def payableRollback : Act World Unit := do
  if (← get).processingPayable then do
    credit env tx.from tx.value
    debit env tx.to tx.value
    setProcessingPayable false
  else pure ()

def classicRollback : Act World Unit := do
  payableRollback env tx
  credit env tx.from tx.value

def classicTransaction : Act World Unit :=
  catching (classicBody env tx txIndex) fun _ => classicRollback env tx

def finishTransaction : Act World Unit := do
  onHost fun host => { host with accounts := host.accounts.modify tx.from fun acc =>
    { acc with nonce := acc.nonce.write (acc.nonce.second + 1) } }
  pushNonce tx.from
  onHost (·.commitNonce)
  onHost (·.commitBalance)

/-- The entry of the sender is found, not created; validation has made sure that it exists. -/
def enterTransaction : Act World Unit := do
  onHost (·.touch tx.to)
  pushBalance tx.from
  pushNonce tx.from

def dispatch : Act World Unit := do
  if isEvmTransaction tx (← get) then evmTransaction env tx block txIndex
  else classicTransaction env tx txIndex

def processTransaction : Act World Unit := do
  enterTransaction tx
  dispatch env tx block txIndex
  finishTransaction tx

end State
end OrbiterSDK
