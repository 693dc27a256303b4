import OrbiterSDK.HexString
import OrbiterSDK.Storage

/-! The answers of the node to requests for blocks, transactions, accounts and contracts. -/

namespace OrbiterSDK

namespace JsonRPC

/-- Values of the JSON library, as far as answers are made of them. Numbers with a fraction are whole here. -/
inductive Value where
  | null
  | string (value : String)
  | boolean (value : Bool)
  | integer (value : Int)
  | float (value : Int)
  | array (values : List Value)
  | object (members : List (String × Value))

/-- What a request is answered from. The mutable parts are the storage, with its caches, and the state. -/
structure Services (World : Type) where
  env : Env World
  reader : BlockReader
  db : DB
  json : JsonLibrary
  dump : Value → String
  caps : EventCaps
  chainID : UInt64
  peerCount : Nat

abbrev Rpc (World α : Type) := StateT Storage (Act World) α

end JsonRPC

open JsonRPC

/-- The text of a log, whose numbers have all their bytes. -/
def Event.serializeForRPC (dump : Value → String) (event : Event) : String :=
  dump (.object [
    ("address", .string (Hex.fromBytes event.address.get)),
    ("blockHash", .string (Hex.fromBytes event.blockHash.get)),
    ("blockNumber", .string (Hex.fromBytes (EventManager.uint64ToBytes event.blockIndex))),
    ("data", .string (Hex.fromBytes event.data)),
    ("logIndex", .string (Hex.fromBytes (EventManager.uint64ToBytes event.logIndex))),
    ("removed", .boolean false),
    ("topics", .array (event.topics.map fun topic => .string (Hex.fromBytes topic.get))),
    ("transactionHash", .string (Hex.fromBytes event.txHash.get)),
    ("transactionIndex", .string (Hex.fromBytes (EventManager.uint64ToBytes event.txIndex)))])

namespace JsonRPC.Encoding
variable {World : Type}

/-! Texts of bytes and numbers. -/

/-- `Hex::fromBytes(bytes, true).forRPC()`. -/
def bytesForRPC (bytes : Bytes) : Except Exception Value := do
  let hex ← HexString.fromBytes bytes true
  pure (.string hex.forRPC)

/-- The same of `Utils::uintToBytes(value)`. -/
def uintForRPC (value : Nat) : Except Exception Value := bytesForRPC (Utils.unpadded value)

/-- `hex(true)` of a hash or an address. -/
def hex (bytes : Bytes) : Value := .string (Hex.fromBytes bytes)

def noHash : Value := hex (0 : Hash).get

def answer (result : Value) : Value := .object [("jsonrpc", .string "2.0"), ("result", result)]

def errorAnswer (version : Value) (code : Int) (message : String) : Value :=
  .object [("jsonrpc", version), ("error", .object [("code", .integer code), ("message", .string message)])]

/-! Blocks. -/

/-- A transaction as a member of its block. -/
def blockTx (tx : TxBlock) : Except Exception Value := do
  return .object [
    ("type", .string "0x0"),
    ("nonce", ← uintForRPC tx.nonce.toNat),
    ("to", hex tx.to.get),
    ("gas", ← uintForRPC tx.gasLimit.toNat),
    ("value", ← uintForRPC tx.value.toNat),
    ("input", ← bytesForRPC tx.data),
    ("gasPrice", ← uintForRPC tx.maxFeePerGas.toNat),
    ("chainId", ← uintForRPC tx.chainId.toNat),
    ("v", ← uintForRPC tx.v.toNat),
    ("r", ← uintForRPC tx.r.toNat),
    ("s", ← uintForRPC tx.s.toNat)]

def blockResult (block : Block) (includeTransactions : Bool) : Except Exception Value := do
  return .object [
    ("hash", hex block.hash.get),
    ("parentHash", hex block.prevBlockHash.get),
    ("sha3Uncles", noHash),
    ("miner", hex block.validator.get),
    ("stateRoot", noHash),
    ("transactionsRoot", hex block.txMerkleRoot.get),
    ("receiptsRoot", noHash),
    ("logsBloom", noHash),
    ("difficulty", .string "0x1"),
    ("number", ← uintForRPC block.nHeight.toNat),
    ("gasLimit", ← uintForRPC (2 ^ 64 - 1)),
    ("gasUsed", ← uintForRPC 1000000000),
    ("timestamp", ← uintForRPC block.timestamp.toNat),
    ("extraData", .string "0x0000000000000000000000000000000000000000000000000000000000000000"),
    ("mixHash", noHash),
    ("nonce", .string "0x0000000000000000"),
    ("totalDifficulty", .string "0x1"),
    ("baseFeePerGas", .string "0x9502f900"),
    ("withdrawRoot", noHash),
    ("size", ← uintForRPC block.serializeBlock.length),
    ("transactions", .array (← block.txs.mapM fun tx => if includeTransactions then blockTx tx else pure (hex tx.hash.get))),
    ("withdrawls", .array []),
    ("uncles", .array [])]

/-- The version is a number here. -/
def getBlockJson (block : Option Block) (includeTransactions : Bool) : Value :=
  match block with
  | none => .object [("jsonrpc", .float 2), ("result", .null)]
  | some block =>
    match blockResult block includeTransactions with
    | .ok result => .object [("jsonrpc", .float 2), ("result", result)]
    | .error what => errorAnswer (.float 2) (-32603) ("Internal error: " ++ what)

/-! Requests. -/

variable (services : Services World)

def query {α : Type} (ask : Storage → Except Exception (α × Storage)) : Rpc World α := fun storage => State.checked (ask storage)

def encoded (value : Except Exception Value) : Rpc World Value := do
  let result ← StateT.lift (State.checked value)
  pure (answer result)

def net_version : Rpc World Value := do
  let result ← StateT.lift (State.checked (uintForRPC services.chainID.toNat))
  pure (.object [("jsonrpc", .float 2), ("result", result)])

def net_peerCount : Rpc World Value := do
  let result ← StateT.lift (State.checked (uintForRPC services.peerCount))
  pure (.object [("jsonrpc", .float 2), ("result", result)])

def eth_getBlockByHash (blockHash : Hash) (includeTransactions : Bool) : Rpc World Value := do
  let block ← query fun storage => Storage.getBlock services.reader storage services.db blockHash
  pure (getBlockJson block includeTransactions)

def eth_getBlockByNumber (blockNumber : UInt64) (includeTransactions : Bool) : Rpc World Value := do
  let block ← query fun storage => Storage.getBlockAt services.reader storage services.db blockNumber
  pure (getBlockJson block includeTransactions)

/-- A block that is not there is read from all the same. -/
def transactionCount (block : Option Block) : Rpc World Value :=
  encoded (block.elim (.error Tx.pastEnd) fun block => uintForRPC block.txs.length)

def eth_getBlockTransactionCountByHash (blockHash : Hash) : Rpc World Value := do
  let block ← query fun storage => Storage.getBlock services.reader storage services.db blockHash
  transactionCount block

def eth_getBlockTransactionCountByNumber (blockNumber : UInt64) : Rpc World Value := do
  let block ← query fun storage => Storage.getBlockAt services.reader storage services.db blockNumber
  transactionCount block

def eth_chainId : Rpc World Value := encoded (uintForRPC services.chainID.toNat)

def eth_blockNumber : Rpc World Value := do
  let latestBlock ← query fun storage => do pure (← storage.latest, storage)
  encoded (uintForRPC latestBlock.nHeight.toNat)

def failed (what : Exception) : Value := errorAnswer (.string "2.0") (-32000) ("Internal error: " ++ what)

/-- `catch (const std::exception& e)` around what a request asks for. A read of memory that is not there is not caught. -/
def trying (body : Act World Value) : Act World Value :=
  tryCatch body fun
    | .exception what => if what = Tx.pastEnd then State.raise what else pure (failed what)
    | .deadlock => throw .deadlock

/-- The bytes are written with all their digits. -/
def eth_call (callInfo : EthCallInfo) : Rpc World Value :=
  StateT.lift (trying do pure (answer (hex (← State.ethCall services.env callInfo))))

def eth_estimateGas (callInfo : EthCallInfo) : Rpc World Value :=
  StateT.lift (trying do
    let gas ← State.estimateGas services.env callInfo
    if gas = 0 then State.raise "Insufficient balance for tx.value() + gas"
    else do pure (answer (← State.checked (uintForRPC gas.toNat))))

def eth_gasPrice : Rpc World Value := pure (answer (.string "0x9502f900"))

def eth_getBalance (address : Address) : Rpc World Value := do
  let balance ← StateT.lift (State.getNativeBalance address)
  encoded (uintForRPC balance.toNat)

def eth_getTransactionCount (address : Address) : Rpc World Value := do
  let nonce ← StateT.lift (State.getNativeNonce address)
  encoded (uintForRPC nonce.toNat)

def eth_getCode (address : Address) : Rpc World Value := do
  let code ← StateT.lift (State.getContractCode address)
  encoded (bytesForRPC code)

/-- A transaction of the mempool. -/
def pendingTx (tx : TxBlock) : Except Exception Value := do
  return .object [
    ("blockHash", .null),
    ("blockIndex", .null),
    ("from", hex tx.from.get),
    ("gas", ← uintForRPC tx.gasLimit.toNat),
    ("gasPrice", ← uintForRPC tx.maxFeePerGas.toNat),
    ("hash", hex tx.hash.get),
    ("input", ← bytesForRPC tx.data),
    ("nonce", ← uintForRPC tx.nonce.toNat),
    ("to", hex tx.to.get),
    ("transactionIndex", .null),
    ("value", ← uintForRPC tx.value.toNat),
    ("v", ← uintForRPC tx.v.toNat),
    ("r", ← uintForRPC tx.r.toNat),
    ("s", ← uintForRPC tx.s.toNat)]

/-- A transaction of a block. -/
def minedTx (tx : TxBlock) (location : TxLocation) : Except Exception Value := do
  return .object [
    ("blockHash", hex location.blockHash.get),
    ("blockNumber", ← uintForRPC location.blockHeight.toNat),
    ("from", hex tx.from.get),
    ("gas", ← uintForRPC tx.gasLimit.toNat),
    ("gasPrice", ← uintForRPC tx.maxFeePerGas.toNat),
    ("hash", hex tx.hash.get),
    ("input", ← bytesForRPC tx.data),
    ("nonce", ← uintForRPC tx.nonce.toNat),
    ("to", hex tx.to.get),
    ("transactionIndex", ← uintForRPC location.blockIndex.toNat),
    ("value", ← uintForRPC tx.value.toNat),
    ("v", ← uintForRPC tx.v.toNat),
    ("r", ← uintForRPC tx.r.toNat),
    ("s", ← uintForRPC tx.s.toNat)]

def minedAnswer (found : TxAnswer) : Rpc World Value :=
  encoded (found.1.elim (.ok .null) fun tx => minedTx tx found.2)

def eth_getTransactionByHash (txHash : Hash) : Rpc World Value := do
  let txOnMempool ← StateT.lift (State.getTxFromMempool txHash)
  match txOnMempool with
  | some tx => encoded (pendingTx tx)
  | none => do
    let txOnChain ← query fun storage => Storage.getTx services.reader storage services.db txHash
    minedAnswer txOnChain

def eth_getTransactionByBlockHashAndIndex (blockHash : Hash) (blockIndex : UInt64) : Rpc World Value := do
  let txInfo ← query fun storage => Storage.getTxByBlockHashAndIndex services.reader storage services.db blockHash blockIndex
  minedAnswer txInfo

def eth_getTransactionByBlockNumberAndIndex (blockNumber blockIndex : UInt64) : Rpc World Value := do
  let txInfo ← query fun storage => Storage.getTxByBlockNumberAndIndex services.reader storage services.db blockNumber blockIndex
  minedAnswer txInfo

/-- The type has two digits, where that of a transaction in a block has one. -/
def receipt (tx : TxBlock) (location : TxLocation) (contractAddress : Address) (logs : List Event) : Except Exception Value := do
  return .object [
    ("transactionHash", hex tx.hash.get),
    ("transactionIndex", ← uintForRPC location.blockIndex.toNat),
    ("blockHash", hex location.blockHash.get),
    ("blockNumber", ← uintForRPC location.blockHeight.toNat),
    ("from", hex tx.from.get),
    ("to", hex tx.to.get),
    ("cumulativeGasUsed", ← uintForRPC tx.gasLimit.toNat),
    ("effectiveGasUsed", ← uintForRPC tx.gasLimit.toNat),
    ("effectiveGasPrice", ← uintForRPC tx.maxFeePerGas.toNat),
    ("gasUsed", ← uintForRPC tx.gasLimit.toNat),
    ("contractAddress", if contractAddress ≠ 0 then hex contractAddress.get else .null),
    ("logs", .array (logs.map fun e => .string (e.serializeForRPC services.dump))),
    ("logsBloom", noHash),
    ("type", .string "0x00"),
    ("root", noHash),
    ("status", .string "0x1")]

def eth_getTransactionReceipt (txHash : Hash) : Rpc World Value := do
  let txInfo ← query fun storage => Storage.getTx services.reader storage services.db txHash
  match txInfo.1 with
  | none => pure (answer .null)
  | some tx => do
    let contractAddress ← StateT.lift (State.getEvmContractAddress tx.hash)
    let events ← StateT.lift (State.getEvents fun events =>
      EventManager.getTxEvents services.json services.caps { events } services.db txHash txInfo.2.blockHeight txInfo.2.blockIndex)
    encoded (receipt services tx txInfo.2 contractAddress events)

/-- The requests whose answers hold numbers or bytes. -/
inductive Request where
  | net_version
  | net_peerCount
  | eth_getBlockByHash (blockHash : Hash) (includeTransactions : Bool)
  | eth_getBlockByNumber (blockNumber : UInt64) (includeTransactions : Bool)
  | eth_getBlockTransactionCountByHash (blockHash : Hash)
  | eth_getBlockTransactionCountByNumber (blockNumber : UInt64)
  | eth_chainId
  | eth_blockNumber
  | eth_call (callInfo : EthCallInfo)
  | eth_estimateGas (callInfo : EthCallInfo)
  | eth_gasPrice
  | eth_getBalance (address : Address)
  | eth_getTransactionCount (address : Address)
  | eth_getCode (address : Address)
  | eth_getTransactionByHash (txHash : Hash)
  | eth_getTransactionByBlockHashAndIndex (blockHash : Hash) (blockIndex : UInt64)
  | eth_getTransactionByBlockNumberAndIndex (blockNumber blockIndex : UInt64)
  | eth_getTransactionReceipt (txHash : Hash)

def handle : Request → Rpc World Value
  | .net_version => net_version services
  | .net_peerCount => net_peerCount services
  | .eth_getBlockByHash blockHash includeTransactions => eth_getBlockByHash services blockHash includeTransactions
  | .eth_getBlockByNumber blockNumber includeTransactions => eth_getBlockByNumber services blockNumber includeTransactions
  | .eth_getBlockTransactionCountByHash blockHash => eth_getBlockTransactionCountByHash services blockHash
  | .eth_getBlockTransactionCountByNumber blockNumber => eth_getBlockTransactionCountByNumber services blockNumber
  | .eth_chainId => eth_chainId services
  | .eth_blockNumber => eth_blockNumber
  | .eth_call callInfo => eth_call services callInfo
  | .eth_estimateGas callInfo => eth_estimateGas services callInfo
  | .eth_gasPrice => eth_gasPrice
  | .eth_getBalance address => eth_getBalance address
  | .eth_getTransactionCount address => eth_getTransactionCount address
  | .eth_getCode address => eth_getCode address
  | .eth_getTransactionByHash txHash => eth_getTransactionByHash services txHash
  | .eth_getTransactionByBlockHashAndIndex blockHash blockIndex =>
    eth_getTransactionByBlockHashAndIndex services blockHash blockIndex
  | .eth_getTransactionByBlockNumberAndIndex blockNumber blockIndex =>
    eth_getTransactionByBlockNumberAndIndex services blockNumber blockIndex
  | .eth_getTransactionReceipt txHash => eth_getTransactionReceipt services txHash

/-! The other requests. -/

/-- The options that requests ask for. -/
structure Options where
  web3clientVersion : String
  sdkVersion : String
  coinbase : Address

variable (options : Options)

def web3_clientVersion : Rpc World Value := pure (answer (.string options.web3clientVersion))

def web3_sha3 (data : Bytes) : Rpc World Value := pure (answer (hex (services.env.vm.sha3 data).get))

def net_listening : Rpc World Value := pure (.object [("jsonrpc", .float 2), ("result", .boolean true)])

def eth_protocolVersion : Rpc World Value := pure (.object [("jsonrpc", .float 2), ("result", .string options.sdkVersion)])

def eth_syncing : Rpc World Value := pure (answer (.boolean false))

def eth_coinbase : Rpc World Value := pure (answer (hex options.coinbase.get))

/-- The result is made by its first element, so that there is none without events. -/
def logsAnswer (events : List Event) : Value :=
  if events = [] then .object [("jsonrpc", .string "2.0")]
  else answer (.array (events.map fun e => .string (e.serializeForRPC services.dump)))

def eth_getLogs (fromBlock toBlock : UInt64) (address : Address) (topics : List Hash) : Rpc World Value :=
  StateT.lift (trying do
    let events ← State.getEvents fun events =>
      EventManager.getEvents services.json services.caps { events } services.db fromBlock toBlock address topics
    pure (logsAnswer services events))

/-- What is not refused is broadcast then. -/
def eth_sendRawTransaction (tx : TxBlock) : Rpc World Value := do
  let txInvalid ← StateT.lift (State.addTx tx)
  pure (match txInvalid with
    | .notInvalid => answer (hex tx.hash.get)
    | .invalidNonce => errorAnswer (.string "2.0") (-32000) "Invalid nonce"
    | .invalidBalance => errorAnswer (.string "2.0") (-32000) "Invalid balance")

end JsonRPC.Encoding
end OrbiterSDK
