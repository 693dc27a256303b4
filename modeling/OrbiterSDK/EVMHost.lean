import OrbiterSDK.EVMC
import OrbiterSDK.Lib.Versioned

/-! The host of the virtual machine: accounts with original and current values,
the lists of what was accessed, and the callbacks. -/

namespace OrbiterSDK
open Lib

structure EVMAccount where
  nonce : Versioned UInt64 := default
  code : Versioned Bytes := default
  codeHash : Versioned Hash := default
  balance : Versioned Uint256 := default
  storage : Table Hash (Versioned Hash) := default
  transientStorage : Table Hash Hash := default

instance : Inhabited EVMAccount := ⟨{}⟩

structure EVMEvent where
  creator : Address
  data : Bytes
  topics : List Hash
  deriving DecidableEq

/-- The members of the host that outlive a callback. The two result buffers, which
only keep returned memory alive, are left out. -/
structure EVMHost where
  /-- The seed of the generator that the `RandomGen` pointer refers to. -/
  randomGen : Hash := 0
  accounts : Table Address EVMAccount := default
  accessedAccountsBalances : List Address := []
  accessedAccountsCode : List Address := []
  accessedAccountsNonces : List Address := []
  accessedStorages : List (Address × Hash) := []
  contractAddresses : Table Hash Address := default
  recentlyCreatedContracts : List Hash := []
  accessedTransients : List Address := []
  currentTxContext : EvmcTxContext := default
  currentTxHash : Hash := 0
  emittedEvents : List EVMEvent := []
  shouldRevert : Bool := false

def ECRECOVER_ADDRESS : Address := 0x1000000000000000000000000000100000000001
def ABI_PACK : Address := 0x1000000000000000000000000000100000000002
def RANDOM : Address := 0x1000000000000000000000000000100000000003

/-! The precompiles. A successful one returns one word and all of its gas. -/
namespace Precompile

def revert : EvmcResult := ⟨.revert, 0, []⟩

def word (msg : EvmcMessage) (hash : Hash) : EvmcResult := ⟨.success, msg.gas, hash.get⟩

/-- The `index`-th 32-byte argument behind the functor. -/
def argument (msg : EvmcMessage) (index : Nat) : Bytes := (msg.inputData.drop (4 + 32 * index)).take 32

def ecrecover (vm : Vm) (msg : EvmcMessage) : EvmcResult :=
  if msg.inputData.length ≠ 132 then revert
  else
    let msgHash := Hash.ofBytes (argument msg 0)
    let v := Utils.bytesToUint (argument msg 1)
    let r : Uint256 := Hash.ofBytes (argument msg 2)
    let s : Uint256 := Hash.ofBytes (argument msg 3)
    if v ≠ 27 ∧ v ≠ 28 then revert
    else
      let parity : Bool := v = 28
      if !vm.verifySig r s parity then revert
      else
        match vm.recover r s parity msgHash with
        | .error _ => revert
        | .ok addr => word msg (addr.setWidth 256)

def packAndHash (vm : Vm) (msg : EvmcMessage) : EvmcResult :=
  if msg.inputData.length ≠ 100 then revert
  else word msg (vm.sha3 (argument msg 0 ++ (argument msg 1).drop 12 ++ argument msg 2))

def keccakSolSign (vm : Vm) (msg : EvmcMessage) : EvmcResult :=
  if msg.inputData.length ≠ 36 then revert
  else word msg (vm.sha3 (0x19 :: ("Ethereum Signed Message:\n32".toUTF8.toList ++ argument msg 0)))

/-- More input than the functor is refused, and without any the decoder throws. -/
def keccak (_ : EvmcMessage) : EvmcResult := revert

def getRandom (vm : Vm) (msg : EvmcMessage) (random : Hash) : EvmcResult × Hash :=
  if msg.inputData.length ≠ 4 then (revert, random)
  else
    let seed := vm.sha3 random.get
    (word msg seed, seed)

end Precompile

namespace EVMHost

/-- `this->accounts[addr]` read as an rvalue: the entry exists afterwards. -/
def touch (host : EVMHost) (addr : Address) : EVMHost := { host with accounts := host.accounts.modify addr id }

def account (host : EVMHost) (addr : Address) : EVMAccount := host.accounts.value addr

def setBalance (host : EVMHost) (addr : Address) (balance : Uint256) : EVMHost :=
  { host with accounts := host.accounts.modify addr fun acc => { acc with balance := acc.balance.write balance } }

def setFirstBalance (host : EVMHost) (addr : Address) (balance : Uint256) : EVMHost :=
  { host with accounts := host.accounts.modify addr fun acc =>
      { acc with balance := ⟨balance, acc.balance.second⟩ } }

/-- The current balance of an account, zero if there is none. -/
def balanceOf (host : EVMHost) (addr : Address) : Uint256 := (host.account addr).balance.second

def isEvmContract (host : EVMHost) (addr : Address) : Bool :=
  match host.accounts.find addr with
  | none => false
  | some acc => 0 < acc.code.second.length

def deriveContractAddress (sha3 : Bytes → Hash) (nonce : Nat) (address : Address) : Address :=
  let rlpSize := 0xc0 + 20 + (if nonce < 0x80 then 1 else 1 + Utils.bytesRequired nonce)
  let rlp := UInt8.ofNat rlpSize :: (address.get ++
    [UInt8.ofNat (if nonce < 0x80 then nonce else 0x80 + Utils.bytesRequired nonce)])
  (sha3 rlp).setWidth 160

def setTxContext (tx : EthCallInfo) (blockHeight : UInt64) (blockCoinbase : Address)
    (blockTimestamp blockGasLimit : UInt64) (chainId : Uint256) (host : EVMHost) : EVMHost :=
  { host with currentTxContext :=
      { txGasPrice := tx.gasPrice
        txOrigin := tx.from
        blockCoinbase
        blockNumber := blockHeight
        blockTimestamp
        blockGasLimit
        blockPrevRandao := 0
        chainId
        blockBaseFee := 0
        blobBaseFee := 0 } }

def accountExists (host : EVMHost) (addr : Address) : Bool := host.accounts.contains addr

def getStorage (host : EVMHost) (addr : Address) (key : Hash) : Hash := ((host.account addr).storage.value key).second

/-- The status of a write that changes the current value, after EIP-1283. -/
def storageStatus (old : Versioned Hash) (value : Hash) : StorageStatus :=
  if old.first = old.second then
    if old.second = 0 then .added
    else if value ≠ 0 then .modified
    else .deleted
  else .assigned

def setStorage (addr : Address) (key value : Hash) (host : EVMHost) : StorageStatus × EVMHost :=
  let host := { host with
    accounts := host.accounts.modify addr fun acc => { acc with storage := acc.storage.modify key id }
    accessedStorages := host.accessedStorages ++ [(addr, key)] }
  let old := (host.account addr).storage.value key
  if old.second = value then (.assigned, host)
  else (storageStatus old value, { host with
    accounts := host.accounts.modify addr fun acc => { acc with storage := acc.storage.modify key (·.write value) } })

def getCodeSize (host : EVMHost) (addr : Address) : Nat := (host.account addr).code.second.length

def getCodeHash (host : EVMHost) (addr : Address) : Hash := (host.account addr).codeHash.second

def copyCode (host : EVMHost) (addr : Address) (codeOffset bufferSize : Nat) : Bytes :=
  ((host.account addr).code.second.drop codeOffset).take bufferSize

def selfdestruct (host : EVMHost) : Bool × EVMHost := (false, { host with shouldRevert := true })

/-- The conversion of a negative number throws, and the handler notes it. -/
def getBlockHash (host : EVMHost) (number : Int) : Hash × EVMHost :=
  if number < 0 then (0, { host with shouldRevert := true }) else (BitVec.ofInt 256 number, host)

def emitLog (addr : Address) (data : Bytes) (topics : List Hash) (host : EVMHost) : EVMHost :=
  { host with emittedEvents := host.emittedEvents ++ [⟨addr, data, topics⟩] }

def getTransientStorage (host : EVMHost) (addr : Address) (key : Hash) : Hash :=
  (host.account addr).transientStorage.value key

def setTransientStorage (addr : Address) (key value : Hash) (host : EVMHost) : EVMHost :=
  { host with
    accessedTransients := host.accessedTransients ++ [addr]
    accounts := host.accounts.modify addr fun acc =>
      { acc with transientStorage := acc.transientStorage.modify key fun _ => value } }

/-- The dispatch of the virtual machine's callbacks. -/
def answer (host : EVMHost) : (request : HostRequest) → request.Reply × EVMHost
  | .accountExists addr => (host.accountExists addr, host)
  | .getStorage addr key => (host.getStorage addr key, host)
  | .setStorage addr key value => host.setStorage addr key value
  | .getBalance addr => (host.balanceOf addr, host)
  | .getCodeSize addr => (host.getCodeSize addr, host)
  | .getCodeHash addr => (host.getCodeHash addr, host)
  | .copyCode addr codeOffset bufferSize => (host.copyCode addr codeOffset bufferSize, host)
  | .selfdestruct _ _ => host.selfdestruct
  | .getTxContext => (host.currentTxContext, host)
  | .getBlockHash number => host.getBlockHash number
  | .emitLog addr data topics => ((), host.emitLog addr data topics)
  | .accessAccount _ => (.warm, host)
  | .accessStorage _ _ => (.warm, host)
  | .getTransientStorage addr key => (host.getTransientStorage addr key, host)
  | .setTransientStorage addr key value => ((), host.setTransientStorage addr key value)

/-- The inner call. Anything but a precompile is executed on the code of the
recipient by the machine, which is passed in as it calls back here. -/
def call (vm : Vm) (msg : EvmcMessage) (evmcExecute : Bytes → EVMHost → EvmcResult × EVMHost) (host : EVMHost) :
    EvmcResult × EVMHost :=
  if msg.recipient = ECRECOVER_ADDRESS then (Precompile.ecrecover vm msg, host)
  else if msg.recipient = RANDOM then
    if msg.inputData.length < 4 then (Precompile.revert, host)
    else if Functor.ofBytes (msg.inputData.take 4) = 0xaacc5a17 then
      let (result, randomGen) := Precompile.getRandom vm msg host.randomGen
      (result, { host with randomGen })
    else (Precompile.revert, host)
  else if msg.recipient = ABI_PACK then
    -- A short input builds a result but does not return it.
    let functor := Functor.ofBytes ((msg.inputData ++ vm.pastInput msg).take 4)
    if functor = 0xaa6351cc then (Precompile.packAndHash vm msg, host)
    else if functor = 0x518af8db then (Precompile.keccakSolSign vm msg, host)
    else if functor = 0x23fc7ef3 then (Precompile.keccak msg, host)
    else (Precompile.revert, host)
  else
    let host := host.touch msg.recipient
    evmcExecute (host.account msg.recipient).code.second host

/-- Run the machine against the host. -/
def run (vm : Vm) : Program → Int → EVMHost → EvmcResult × EVMHost
  | .done statusCode consumed outputData, gas, host => (⟨statusCode, (gas.toNat - consumed : Nat), outputData⟩, host)
  | .callback request next, gas, host =>
      let (reply, host) := host.answer request
      run vm (next reply) gas host
  | .call msg execute next, gas, host =>
      let (result, host) := host.call vm msg fun code host => run vm (execute code) msg.gas host
      run vm (next result) gas host

/-- The conversion from `uint64_t` wraps. -/
def creationMessage (tx : EthCallInfo) (contractAddress : Address) (gas : Nat) : EvmcMessage where
  kind := .create
  flags := 0
  depth := 1
  gas := (BitVec.ofNat 64 gas).toInt
  recipient := contractAddress
  sender := tx.from
  inputData := []
  value := tx.value
  create2Salt := 0
  codeAddress := 0

def callMessage (tx : EthCallInfo) (gas : Nat) : EvmcMessage where
  kind := .call
  flags := 0
  depth := 1
  gas := gas
  recipient := tx.to
  sender := tx.from
  inputData := tx.fullData
  value := tx.value
  create2Salt := 0
  codeAddress := tx.to

/-- Store the code of a created contract, with what is needed to take it back. -/
def storeContract (contractAddress : Address) (code : Bytes) (codeHash : Hash) (host : EVMHost) : EVMHost :=
  { host with
    accounts := host.accounts.modify contractAddress fun acc =>
      { acc with codeHash := acc.codeHash.write codeHash, code := acc.code.write code }
    recentlyCreatedContracts := host.recentlyCreatedContracts ++ [host.currentTxHash]
    contractAddresses := host.contractAddresses.modify host.currentTxHash fun _ => contractAddress
    accessedAccountsCode := host.accessedAccountsCode ++ [contractAddress] }

def createContract (vm : Vm) (tx : EthCallInfo) (host : EVMHost) : Except Exception EvmcResult × EVMHost :=
  let host := host.touch tx.from
  let contractAddress := deriveContractAddress vm.sha3 (host.account tx.from).nonce.second.toNat tx.from
  match Uint256.narrow (2 ^ 64) tx.gasLimit with
  | .error what => (.error what, host)
  | .ok gas =>
    let creationMsg := creationMessage tx contractAddress gas
    let (creationResult, host) := run vm (vm.evmcExecute creationMsg tx.fullData) creationMsg.gas host
    if creationResult.statusCode ≠ .success then (.ok creationResult, host)
    else
      let code := creationResult.outputData
      (.ok creationResult, host.storeContract contractAddress code (vm.sha3 code))

def execute (vm : Vm) (tx : EthCallInfo) (host : EVMHost) : Except Exception EvmcResult × EVMHost :=
  if tx.to = 0 then createContract vm tx host
  else
    match Uint256.narrow (2 ^ 63) tx.gasLimit with
    | .error what => (.error what, host)
    | .ok gas =>
      let msg := callMessage tx gas
      let host := host.touch tx.to
      let (result, host) := run vm (vm.evmcExecute msg (host.account tx.to).code.second) msg.gas host
      (.ok result, host)

def updateStorages (update : Versioned Hash → Versioned Hash) (accessed : List (Address × Hash))
    (accounts : Table Address EVMAccount) : Table Address EVMAccount :=
  accessed.foldl (fun accounts (addr, key) =>
    accounts.modify addr fun acc => { acc with storage := acc.storage.modify key update }) accounts

def clearTransients (accessed : List Address) (accounts : Table Address EVMAccount) : Table Address EVMAccount :=
  accounts.modifyAll accessed fun acc => { acc with transientStorage := default }

def commit (host : EVMHost) : EVMHost :=
  { host with
    accounts := clearTransients host.accessedTransients (updateStorages .commit host.accessedStorages host.accounts)
    accessedStorages := []
    accessedTransients := []
    currentTxHash := 0
    emittedEvents := [] }

def commitBalance (host : EVMHost) : EVMHost :=
  { host with
    accounts := host.accounts.modifyAll host.accessedAccountsBalances fun acc => { acc with balance := acc.balance.commit }
    accessedAccountsBalances := [] }

def revertBalance (host : EVMHost) : EVMHost :=
  { host with
    accounts := host.accounts.modifyAll host.accessedAccountsBalances fun acc => { acc with balance := acc.balance.revert }
    accessedAccountsBalances := [] }

def commitCode (host : EVMHost) : EVMHost :=
  { host with
    accounts := host.accounts.modifyAll host.accessedAccountsCode fun acc =>
      { acc with code := acc.code.commit, codeHash := acc.codeHash.commit }
    recentlyCreatedContracts := []
    accessedAccountsCode := [] }

def revertCode (host : EVMHost) : EVMHost :=
  { host with
    accounts := host.accounts.modifyAll host.accessedAccountsCode fun acc =>
      { acc with code := acc.code.revert, codeHash := acc.codeHash.revert }
    accessedAccountsCode := [] }

def commitNonce (host : EVMHost) : EVMHost :=
  { host with
    accounts := host.accounts.modifyAll host.accessedAccountsNonces fun acc => { acc with nonce := acc.nonce.commit }
    accessedAccountsNonces := [] }

def revert (host : EVMHost) : EVMHost :=
  { host with
    accounts := clearTransients host.accessedTransients (updateStorages .revert host.accessedStorages host.accounts)
    contractAddresses := host.recentlyCreatedContracts.foldl Table.erase host.contractAddresses
    accessedStorages := []
    accessedTransients := []
    recentlyCreatedContracts := []
    currentTxHash := 0
    emittedEvents := [] }

end EVMHost
end OrbiterSDK
