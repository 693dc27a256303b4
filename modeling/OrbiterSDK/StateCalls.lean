import OrbiterSDK.State

/-! The public methods of the state, with the sections in which they hold its mutex. -/

namespace OrbiterSDK.State
open Lib

variable {World : Type}

/-! Construction from the database, whose entries are read in order. -/

structure Database where
  accountsCode : List (Address × Bytes) := []
  accountsHashcode : List (Address × Hash) := []
  contractAddresses : List (Hash × Address) := []
  accountsStorage : List (Address × Hash × Hash) := []
  /-- The native accounts, which are the genesis balances with nonce zero in a fresh database. -/
  nativeAccounts : List (Address × Uint256 × UInt64) := []

def loadHost (db : Database) : EVMHost :=
  let accounts : Table Address EVMAccount := default
  let accounts := db.accountsCode.foldl (fun accounts (addr, value) =>
    accounts.modify addr fun acc => { acc with code := ⟨value, value⟩ }) accounts
  let accounts := db.accountsHashcode.foldl (fun accounts (addr, value) =>
    accounts.modify addr fun acc => { acc with codeHash := ⟨value, value⟩ }) accounts
  let contractAddresses := db.contractAddresses.foldl (fun contractAddresses (txHash, addr) =>
    contractAddresses.modify txHash fun _ => addr) default
  let accounts := db.accountsStorage.foldl (fun accounts (addr, key, value) =>
    accounts.modify addr fun acc => { acc with storage := acc.storage.modify key fun _ => ⟨value, value⟩ }) accounts
  { accounts, contractAddresses }

def construct (db : Database) (world : World) (events : List Event) (rdposSeed : Hash) (storage : Chain) : State World :=
  let host := loadHost db
  let accounts := db.nativeAccounts.foldl (fun accounts (addr, balance, nonce) =>
    accounts.modify addr fun acc => { acc with balance := ⟨balance, balance⟩, nonce := ⟨nonce, nonce⟩ }) host.accounts
  let latest := storage.latest
  { evmHost := { ({ host with accounts }.commitBalance).commitNonce with randomGen := latest.blockRandomness }
    contractManager :=
      { world
        eventManager := { events }
        globals := ⟨latest.validator, latest.hash, latest.nHeight, latest.timestamp⟩ }
    rdposSeed
    storage }

/-! Locking. A lock object releases the mutex when its scope is left, also by a throw. -/

def release : Act World Unit := modify fun state => { state with stateMutex := .free }

def acquire (mode : Mutex) : Act World Unit := do
  if (← get).stateMutex = .free then modify fun state => { state with stateMutex := mode }
  else throw .deadlock

def holding {α : Type} (mode : Mutex) (body : Act World α) : Act World α := do
  acquire mode
  let result ← catching body fun what => do
    release
    raise what
  release
  pure result

/-! Readers. -/

def getNativeBalance (addr : Address) : Act World Uint256 := holding .shared do
  return (← get).balanceOf addr

def getNativeNonce (addr : Address) : Act World UInt64 := holding .shared do
  return (← get).nonceOf addr

def getMempool : Act World (List (Hash × TxBlock)) := holding .shared do
  return (← get).mempool

def getMempoolSize : Act World Nat := holding .shared do
  return (← get).mempool.length

def fillBlockWithTransactions (block : Block) : Act World Block := holding .shared do
  return (← get).mempool.foldl (fun block (_, tx) => (block.appendTx tx).2) block

def isTxInMempool (txHash : Hash) : Act World Bool := holding .shared do
  return (← get).inMempool txHash

def getTxFromMempool (txHash : Hash) : Act World (Option TxBlock) := holding .shared do
  return ((← get).mempool.find? (·.1 = txHash)).map (·.2)

def isEvmContract (addr : Address) : Act World Bool := holding .shared do
  return (← get).evmHost.isEvmContract addr

/-- Reads through the subscript operator, which creates a missing account. -/
def getContractCode (addr : Address) : Act World Bytes := holding .shared do
  onHost (·.touch addr)
  return ((← get).evmHost.account addr).code.second

/-- Reads through the subscript operator, which creates a missing entry. -/
def getEvmContractAddress (txHash : Hash) : Act World Address := holding .shared do
  onHost fun host => { host with contractAddresses := host.contractAddresses.modify txHash id }
  return (← get).evmHost.contractAddresses.value txHash

def getContracts (contracts : World → List (String × Address)) : Act World (List (String × Address)) := holding .shared do
  return contracts (← get).contractManager.world

/-- The addresses that are recorded under some transaction. -/
def getEvmContracts : Act World (Finset Address) := holding .shared do
  let contractAddresses := (← get).evmHost.contractAddresses
  return contractAddresses.keys.image contractAddresses.value

def getEvents (query : List Event → Except Exception (List Event)) : Act World (List Event) := holding .shared do
  checked (query (← get).contractManager.eventManager.events)

/-! The mempool. -/

def validateTransaction (tx : TxBlock) : Act World TxInvalid := holding .shared do
  checked ((← get).validateTransactionInternal tx)

/-- The consensus keeps validator transactions itself; what it answers is its own affair. -/
def addValidatorTx (answer : State World → TxValidator → Bool) (tx : TxValidator) : Act World Bool := holding .unique do
  return answer (← get) tx

/-- `unordered_map::insert`, which keeps an entry that is already there. -/
def insertTx (mempool : List (Hash × TxBlock)) (hash : Hash) (tx : TxBlock) : List (Hash × TxBlock) :=
  if mempool.any (·.1 = hash) then mempool else mempool ++ [(hash, tx)]

def addToMempool (tx : TxBlock) : Act World Unit :=
  modify fun state => { state with mempool := insertTx state.mempool tx.hash tx }

def addTx (tx : TxBlock) : Act World TxInvalid := do
  let txInvalid ← validateTransaction tx
  if txInvalid ≠ .notInvalid then pure txInvalid
  else do
    holding .unique (addToMempool tx)
    pure txInvalid

/-- Put one transaction of the old mempool back if it is still valid. -/
def revalidateOne (hash : Hash) (tx : TxBlock) : Act World Unit := do
  let txInvalid ← checked ((← get).validateTransactionInternal tx)
  if txInvalid = .notInvalid then modify fun state => { state with mempool := insertTx state.mempool hash tx }
  else pure ()

def revalidate : List (Hash × TxBlock) → Act World Unit
  | [] => pure ()
  | (hash, tx) :: rest => do
    revalidateOne hash tx
    revalidate rest

def refreshMempool (block : Block) : Act World Unit := do
  let mempoolCopy := (← get).mempool.filter fun entry => !block.txs.any (·.hash = entry.1)
  modify fun state => { state with mempool := [] }
  revalidate mempoolCopy

/-! Blocks. -/

variable (env : Env World)

/-- The checks of `validateNextBlock` before it takes the mutex. -/
def validateHeader (state : State World) (block : Block) : Bool :=
  block.nHeight = state.latest.nHeight + 1 && block.prevBlockHash = state.latest.hash &&
    state.latest.timestamp ≤ block.timestamp && block.finalized && env.rdposValidateBlock state.rdposSeed block

/-- The checks of `validateNextBlock` under the mutex. -/
def validateTxs (state : State World) : List TxBlock → Except Exception Bool
  | [] => .ok true
  | tx :: rest => do
    if (← state.validateTransactionInternal tx) ≠ .notInvalid then pure false else state.validateTxs rest

def validateNextBlock (block : Block) : Act World Bool := do
  if !(← get).validateHeader env block then pure false
  else holding .shared do
    checked ((← get).validateTxs block.txs)

def blockContext (block : Block) : BlockContext where
  blockHash := block.hash
  blockHeight := block.nHeight
  blockCoinbase := block.validator
  blockTimestamp := block.timestamp
  blockGasLimit := 100000000
  chainId := env.chainID

def processTransactions (block : BlockContext) : List TxBlock → UInt64 → Act World Unit
  | [], _ => pure ()
  | tx :: rest, txIndex => do
    processTransaction env tx block txIndex
    processTransactions block rest (txIndex + 1)

def beginBlock (block : Block) : Act World Unit :=
  modify fun state => { state with
    contractManager := { state.contractManager with
      globals := ⟨block.validator, block.hash, block.nHeight, block.timestamp⟩ }
    evmHost := { state.evmHost with randomGen := block.blockRandomness } }

def rdposProcessBlock (block : Block) : Act World Unit :=
  if !block.finalized then raise "Block is not finalized."
  else modify fun state => { state with rdposSeed := block.blockRandomness }

def pushBack (block : Block) : Act World Unit := do
  let latest := (← get).latest
  if latest.hash ≠ block.prevBlockHash then
    raise ("Block " ++ Utils.hexFromBytes block.hash.get ++ " does not have the correct previous block hash.")
  else if block.nHeight ≠ latest.nHeight + 1 then
    raise ("Block " ++ Utils.hexFromBytes block.hash.get ++ " does not have the correct height.")
  else modify fun state => { state with storage := ⟨state.storage.older ++ [state.latest], block⟩ }

/-- The part of `processNextBlock` under the exclusive lock. -/
def executeBlock (block : Block) : Act World Unit := do
  beginBlock block
  processTransactions env (blockContext env block) block.txs 0
  rdposProcessBlock block
  refreshMempool block
  pushBack block

def processNextBlock (block : Block) : Act World Unit := do
  if !(← validateNextBlock env block) then
    raise "Invalid block detected during processNextBlock sanity check"
  else holding .unique (executeBlock env block)

/-- `accounts[addr].balance.first += amount`. -/
def creditFirst (addr : Address) (amount : Uint256) : Act World Unit := do
  let balance := ((← get).evmHost.account addr).balance.first
  match Uint256.add balance amount with
  | .ok sum => onHost (·.setFirstBalance addr sum)
  | .error what =>
    onHost (·.setFirstBalance addr (env.overflowed balance amount))
    raise what

/-- A thousand coins. -/
def faucet : Uint256 := 1000000000000000000000

def addBalance (addr : Address) : Act World Unit := holding .unique do
  creditFirst env addr faucet
  credit env addr faucet

/-! Calls that are meant to leave no trace. -/

variable (callInfo : EthCallInfo)

def resetRandomGen : Act World Unit :=
  modify fun state => { state with evmHost := { state.evmHost with randomGen := state.latest.blockRandomness } }

/-- Where the value goes. For a creation the nonce of the sender is read through the
public getter, under the exclusive lock of the caller. -/
def dryRealTo : Act World Address :=
  if callInfo.to = 0 then do
    let nonce ← getNativeNonce callInfo.from
    pure (EVMHost.deriveContractAddress env.vm.sha3 nonce.toNat callInfo.from)
  else pure callInfo.to

/-- Move the value as the transaction would. -/
def dryTransfer : Act World Unit :=
  if callInfo.value = 0 then pure ()
  else do
    let realTo ← dryRealTo env callInfo
    debit env callInfo.from callInfo.value
    credit env realTo callInfo.value
    pushBalance callInfo.from
    pushBalance realTo

/-- The greatest gas limit passed on to the machine. -/
def gasCap : Uint256 := 2 ^ 63 - 11

def cappedCall : EthCallInfo := if gasCap < callInfo.gasLimit then { callInfo with gasLimit := gasCap } else callInfo

/-- The section under the exclusive lock up to the rollback. -/
def dryExecute : Act World EvmcResult := do
  resetRandomGen
  dryTransfer env callInfo
  let latestBlock := (← get).latest
  onHost (EVMHost.setTxContext (cappedCall callInfo) latestBlock.nHeight latestBlock.validator latestBlock.timestamp
    100000000 env.chainID)
  let evmCallResult ← hostExecute env (cappedCall callInfo)
  onHost (·.revert)
  onHost (·.revertCode)
  onHost (·.revertBalance)
  pure evmCallResult

def statusError (evmCallResult : EvmcResult) : Exception :=
  "Error when estimating gas, evmCallResult.status_code: " ++ env.vm.statusCodeToString evmCallResult.statusCode ++
    " bytes: " ++ Utils.hexFromBytes evmCallResult.outputData

/-- What the section under the shared lock decides. -/
inductive CallPath where
  | answer (bytes : Bytes)
  | evm
  | nothing

def ethCallPath : Act World CallPath := do
  let state ← get
  if state.contractManager.isContractAddress env.contracts callInfo.to then do
    resetRandomGen
    let bytes ← checked (state.contractManager.callContractView env.contracts callInfo)
    pure (.answer bytes)
  else if state.evmHost.isEvmContract callInfo.to || callInfo.to = 0 then pure .evm
  else pure .nothing

def ethCallEvm : Act World Bytes := do
  let evmCallResult ← dryExecute env callInfo
  if evmCallResult.statusCode ≠ .success then raise (statusError env evmCallResult)
  else pure evmCallResult.outputData

def ethCall : Act World Bytes := do
  match ← holding .shared (ethCallPath env callInfo) with
  | .answer bytes => pure bytes
  | .evm => holding .unique (ethCallEvm env callInfo)
  | .nothing => pure []

/-- Whether the sender could not pay, if the request names one and moves value. -/
def cannotPay (state : State World) : Except Exception Bool :=
  if callInfo.from = 0 ∨ callInfo.value = 0 then .ok false
  else do
    let totalGas ← if callInfo.gasLimit = 0 ∨ callInfo.gasPrice = 0 then .ok 0
      else Uint256.mul callInfo.gasLimit callInfo.gasPrice
    match state.evmHost.accounts.find callInfo.from with
    | none => pure true
    | some acc =>
      let needed ← Uint256.add callInfo.value totalGas
      pure (acc.balance.second < needed)

def dryCallContract : Act World Unit := do
  let state ← get
  if state.contractManager.isContractAddress env.contracts callInfo.to then do
    resetRandomGen
    let (result, contractManager) :=
      state.contractManager.validateCallContractWithTx env.contracts env.chainOwner state.evmHost.accounts callInfo
    modify fun state => { state with contractManager }
    let _ ← checked result
    pure ()
  else pure ()

/-- The section of `estimateGas` under the shared lock: its answer, unless the machine has to run. -/
def estimateGasPath : Act World (Option Uint256) := do
  if ← checked ((← get).cannotPay callInfo) then pure (some 0)
  else do
    dryCallContract env callInfo
    if (← get).evmHost.isEvmContract callInfo.to || callInfo.to = 0 then pure none
    else pure (some 21000)

def estimateGasEvm : Act World Uint256 := do
  let evmCallResult ← dryExecute env callInfo
  if evmCallResult.gasLeft < 0 then raise "Error when estimating gas, gasLimit is lower than gas left"
  else if evmCallResult.statusCode ≠ .success then raise (statusError env evmCallResult)
  else do
    let gasUsed ← checked (Uint256.sub (cappedCall callInfo).gasLimit (BitVec.ofInt 256 evmCallResult.gasLeft))
    checked (Uint256.add gasUsed 21000)

def estimateGas : Act World Uint256 := do
  match ← holding .shared (estimateGasPath env callInfo) with
  | some answer => pure answer
  | none => holding .unique (estimateGasEvm env callInfo)

end OrbiterSDK.State
