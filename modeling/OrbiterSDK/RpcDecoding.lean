import OrbiterSDK.RpcEncoding
import OrbiterSDK.Lib.Checked

/-! Requests to the node: what their parameters are read as, and the answers they get under their ids. -/

namespace OrbiterSDK
open Lib

/-- The number that is spelled, out of at most 32 bytes. -/
def HexString.getUint (value : HexString) : Except Exception Uint256 := do
  let b ← Hex.toBytes value.get
  if 32 < b.length then .error "Hex too big for uint conversion"
  else .ok (BitVec.ofNat 256 (Utils.bytesToUint b))

namespace JsonRPC

/-- What is read of a request, if it is as it should be. -/
abbrev Read (α : Type) := Except (Fault Exception) α

def raise {α : Type} (what : Exception) : Read α := .error (.exception what)

/-- A read behind the end is no exception. -/
def checked {α : Type} : Except Exception α → Read α
  | .ok value => .ok value
  | .error what => .error (if what = Tx.pastEnd then .undefined else .exception what)

namespace Value

def typeName : Value → String
  | null => "null"
  | object _ => "object"
  | array _ => "array"
  | string _ => "string"
  | boolean _ => "boolean"
  | integer _ | float _ => "number"

def isNull : Value → Bool
  | null => true
  | _ => false

def contains (value : Value) (key : String) : Bool :=
  match value with
  | object members => (members.lookup key).isSome
  | _ => false

def noSubscript (value : Value) : Exception :=
  "[json.exception.type_error.305] cannot use operator[] with a string argument with " ++ value.typeName

/-- `operator[]` of a constant value, which has to have the member. -/
def constMember (value : Value) (key : String) : Read Value :=
  match value with
  | object members => (members.lookup key).elim (.error .undefined) .ok
  | other => raise other.noSubscript

/-- `operator[]` of a variable, which makes a member that is missing. -/
def member (value : Value) (key : String) : Read Value :=
  match value with
  | object members => .ok ((members.lookup key).getD null)
  | null => .ok null
  | other => raise other.noSubscript

def «at» (value : Value) (idx : Nat) : Read Value :=
  match value with
  | array values =>
    (values[idx]?).elim (raise ("[json.exception.out_of_range.401] array index " ++ toString idx ++ " is out of range")) .ok
  | other => raise ("[json.exception.type_error.304] cannot use at() with " ++ other.typeName)

def size : Value → Nat
  | null => 0
  | array values => values.length
  | object members => members.length
  | _ => 1

def getString : Value → Read String
  | string value => .ok value
  | other => raise ("[json.exception.type_error.302] type must be string, but is " ++ other.typeName)

def getBool : Value → Read Bool
  | boolean value => .ok value
  | other => raise ("[json.exception.type_error.302] type must be boolean, but is " ++ other.typeName)

end Value

/-- The methods of the lookup table, and what others are. -/
inductive Methods where
  | invalid
  | web3_clientVersion
  | web3_sha3
  | net_version
  | net_listening
  | net_peerCount
  | eth_protocolVersion
  | eth_getBlockByHash
  | eth_getBlockByNumber
  | eth_getBlockTransactionCountByHash
  | eth_getBlockTransactionCountByNumber
  | eth_chainId
  | eth_syncing
  | eth_coinbase
  | eth_blockNumber
  | eth_call
  | eth_estimateGas
  | eth_gasPrice
  | eth_getLogs
  | eth_getBalance
  | eth_getTransactionCount
  | eth_getCode
  | eth_sendTransaction
  | eth_sendRawTransaction
  | eth_getTransactionByHash
  | eth_getTransactionByBlockHashAndIndex
  | eth_getTransactionByBlockNumberAndIndex
  | eth_getTransactionReceipt
  deriving DecidableEq

open Methods in
def methodsLookupTable : List (String × Methods) := [
  ("web3_clientVersion", web3_clientVersion),
  ("web3_sha3", web3_sha3),
  ("net_version", net_version),
  ("net_listening", net_listening),
  ("net_peerCount", net_peerCount),
  ("eth_protocolVersion", eth_protocolVersion),
  ("eth_getBlockByHash", eth_getBlockByHash),
  ("eth_getBlockByNumber", eth_getBlockByNumber),
  ("eth_getBlockTransactionCountByHash", eth_getBlockTransactionCountByHash),
  ("eth_getBlockTransactionCountByNumber", eth_getBlockTransactionCountByNumber),
  ("eth_chainId", eth_chainId),
  ("eth_syncing", eth_syncing),
  ("eth_coinbase", eth_coinbase),
  ("eth_blockNumber", eth_blockNumber),
  ("eth_call", eth_call),
  ("eth_estimateGas", eth_estimateGas),
  ("eth_gasPrice", eth_gasPrice),
  ("eth_getLogs", eth_getLogs),
  ("eth_getBalance", eth_getBalance),
  ("eth_getTransactionCount", eth_getTransactionCount),
  ("eth_getCode", eth_getCode),
  ("eth_sendTransaction", eth_sendTransaction),
  ("eth_sendRawTransaction", eth_sendRawTransaction),
  ("eth_getTransactionByHash", eth_getTransactionByHash),
  ("eth_getTransactionByBlockHashAndIndex", eth_getTransactionByBlockHashAndIndex),
  ("eth_getTransactionByBlockNumberAndIndex", eth_getTransactionByBlockNumberAndIndex),
  ("eth_getTransactionReceipt", eth_getTransactionReceipt)]

/-- A request with its parameters: one whose answer holds numbers or bytes, or another. -/
inductive Call where
  | encoded (request : Encoding.Request)
  | web3_clientVersion
  | web3_sha3 (data : Bytes)
  | net_listening
  | eth_protocolVersion
  | eth_syncing
  | eth_coinbase
  | eth_getLogs (fromBlock toBlock : UInt64) (address : Address) (topics : List Hash)
  | eth_sendRawTransaction (tx : TxBlock)

namespace Decoding

/-! Arguments. -/

def lowerDigit (c : Char) : Bool := ('0' ≤ c && c ≤ '9') || ('a' ≤ c && c ≤ 'f')

/-- `[0-9,a-f,A-F]`, which has a comma. -/
def looseDigit (c : Char) : Bool := lowerDigit c || ('A' ≤ c && c ≤ 'F') || c = ','

def ofDigits (allowed : Char → Bool) (count : Nat) (text : String) : Bool :=
  match text.toList with
  | '0' :: 'x' :: digits => digits.length = count && digits.all allowed
  | _ => false

def hashFilter (text : String) : Bool := ofDigits lowerDigit 64 text

def looseHashFilter (text : String) : Bool := ofDigits looseDigit 64 text

def addFilter (text : String) : Bool := ofDigits looseDigit 40 text

/-- `^0x([1-9a-f]+[0-9a-f]*|0)$` -/
def numFilter (text : String) : Bool :=
  match text.toList with
  | '0' :: 'x' :: first :: rest => if first = '0' then rest.isEmpty else lowerDigit first && rest.all lowerDigit
  | _ => false

def readHash (filter : String → Bool) (what : Exception) (text : String) : Read Hash :=
  if filter text then checked (do Hash.read (← Hex.toBytes text)) else raise what

def readAddress (what : Exception) (text : String) : Read Address :=
  if addFilter text then checked (do Address.read (← Hex.toBytes text)) else raise what

def readData (what : Exception) (text : String) : Read Bytes :=
  if Hex.isValid text.toList true then checked (Hex.toBytes text) else raise what

def toUint (text : String) : Except Exception Uint256 := do
  let hex ← HexString.create text.toList false
  hex.getUint

def toUint64 (text : String) : Except Exception UInt64 := do
  let value ← toUint text
  pure (UInt64.ofNat (← Uint256.narrow (2 ^ 64) value))

def readUint (what : Exception) (text : String) : Read Uint256 :=
  if numFilter text then checked (toUint text) else raise what

def readUint64 (what : Exception) (text : String) : Read UInt64 :=
  if numFilter text then checked (toUint64 text) else raise what

def latestHeight (storage : Storage) : Read UInt64 := checked (do pure (← storage.latest).nHeight)

/-- Heights have names, too. -/
def readHeight (storage : Storage) (what : Exception) (text : String) : Read UInt64 :=
  if text = "latest" then latestHeight storage
  else if text = "earliest" then .ok 0
  else if text = "pending" then raise "Pending block is not supported"
  else readUint64 what text

/-- A block of which nothing but the number is checked. -/
def checkBlock (text : String) : Read Unit :=
  if text ≠ "latest" ∧ numFilter text = false then raise "Invalid block number" else .ok ()

/-! Decoders. Each of them names itself in front of what is thrown. -/

def naming (name : String) : Fault Exception → Fault Exception
  | .exception what => .exception ("Error while decoding " ++ name ++ ": " ++ what)
  | .undefined => .undefined

def decoding {α : Type} (name : String) (outcome : Read α) : Read α := outcome.mapError (naming name)

section Decoders
variable (storage : Storage) (request : Value)

def params : Read Value := request.constMember "params"

def textAt (idx : Nat) : Read String := do
  let value ← (← params request).at idx
  value.getString

def noParams (name : String) : Read Unit := decoding name do
  if (← params request).size ≠ 0 then raise (name ++ " does not need params") else pure ()

def web3_clientVersion : Read Unit := noParams request "web3_clientVersion"

def web3_sha3 : Read Bytes := decoding "web3_sha3" do
  if (← params request).size ≠ 1 then raise "web3_sha3 needs 1 param"
  else do
    let data ← textAt request 0
    readData "Invalid hex string" data

def net_version : Read Unit := noParams request "net_version"

def net_listening : Read Unit := noParams request "net_listening"

def net_peerCount : Read Unit := noParams request "net_peerCount"

def eth_protocolVersion : Read Unit := noParams request "eth_protocolVersion"

/-- A flag is read if there are two parameters, no more. -/
def includesTxs : Read Bool := do
  let params ← params request
  if params.size = 2 then (← params.at 1).getBool else pure false

def eth_getBlockByHash : Read (Hash × Bool) := decoding "eth_getBlockByHash" do
  let includeTxs ← includesTxs request
  let blockHash ← textAt request 0
  pure (← readHash hashFilter "Invalid block hash hex" blockHash, includeTxs)

def eth_getBlockByNumber : Read (UInt64 × Bool) := decoding "eth_getBlockByNumber" do
  let includeTxs ← includesTxs request
  let blockNum ← textAt request 0
  pure (← readHeight storage "Invalid block hash hex" blockNum, includeTxs)

def eth_getBlockTransactionCountByHash : Read Hash := decoding "eth_getBlockTransactionCountByHash" do
  let blockHash ← textAt request 0
  readHash hashFilter "Invalid block hash hex" blockHash

def eth_getBlockTransactionCountByNumber : Read UInt64 := decoding "eth_getBlockTransactionCountByNumber" do
  let blockNum ← textAt request 0
  readHeight storage "Invalid block hash hex" blockNum

def eth_chainId : Read Unit := noParams request "eth_chainId"

def eth_syncing : Read Unit := noParams request "eth_syncing"

def eth_coinbase : Read Unit := noParams request "eth_coinbase"

def eth_blockNumber : Read Unit := noParams request "eth_blockNumber"

/-- The object with the fields of a call: the first parameter, or the parameters themselves. -/
def callObject (params : Value) : Read Value :=
  match params with
  | .array _ => do
    let txObj ← params.at 0
    if 1 < params.size then checkBlock (← (← params.at 1).getString)
    pure txObj
  | .object _ => .ok params
  | _ => raise "Invalid params"

/-- A field that may be missing or null. -/
def nullable {α : Type} (txObj : Value) (key : String) (read : String → Read α) (default : α) : Read α := do
  if txObj.contains key then
    let value ← txObj.member key
    if value.isNull then pure default else read (← value.getString)
  else pure default

/-- What a call and an estimate have in common. -/
def callInfo (readTo : Value → Read Address) : Read EthCallInfo := do
  let txObj ← callObject (← params request)
  let «from» ← nullable txObj "from" (readAddress "Invalid from address hex") 0
  let «to» ← readTo txObj
  let gas ← nullable txObj "gas" (readUint64 "Invalid gas hex") 10000000
  let gasPrice ← nullable txObj "gasPrice" (readUint "Invalid gasPrice hex") 0
  let value ← nullable txObj "value" (readUint "Invalid value hex") 0
  let fullData ← nullable txObj "data" (readData "Invalid data hex") []
  pure {
    «from», «to», gasPrice, value, fullData
    gasLimit := BitVec.ofNat 256 gas.toNat
    functor := if 4 ≤ fullData.length then Functor.ofBytes (fullData.take 4) else 0
    data := if 4 < fullData.length then fullData.drop 4 else [] }

/-- The receiver is not optional. -/
def eth_call : Read EthCallInfo := decoding "eth_call" do
  callInfo request fun txObj => do
    let toAdd ← (← txObj.member "to").getString
    readAddress "Invalid to address hex" toAdd

def eth_estimateGas : Read EthCallInfo := decoding "eth_estimateGas" do
  callInfo request fun txObj => nullable txObj "to" (readAddress "Invalid to address hex") 0

def eth_gasPrice : Read Unit := noParams request "eth_gasPrice"

/-- Both parameters are texts before one of them is looked at. -/
def account : Read Address := do
  let address ← textAt request 0
  let block ← textAt request 1
  checkBlock block
  readAddress "Invalid address hex" address

def eth_getBalance : Read Address := decoding "eth_getBalance" (account request)

def eth_getTransactionCount : Read Address := decoding "eth_getTransactionCount" (account request)

def eth_getCode : Read Address := decoding "eth_getCode" (account request)

/-- Behind the bytes there is other memory. -/
def eth_sendRawTransaction (reader : BlockReader) (requiredChainId : UInt64) : Read TxBlock := decoding "eth_sendRawTransaction" do
  let txHex ← textAt request 0
  let bytes ← readData "Invalid transaction hex" txHex
  checked (TxBlock.ofBytes reader.lib reader.sha3 bytes reader.past requiredChainId)

def eth_getTransactionByHash : Read Hash := decoding "eth_getTransactionByHash" do
  let hash ← textAt request 0
  readHash looseHashFilter "Invalid hash hex" hash

def eth_getTransactionByBlockHashAndIndex : Read (Hash × UInt64) := decoding "eth_getTransactionByBlockHashAndIndex" do
  let blockHash ← textAt request 0
  let index ← textAt request 1
  if looseHashFilter blockHash = false then raise "Invalid blockHash hex"
  else if numFilter index = false then raise "Invalid index hex"
  else do pure (← readHash looseHashFilter "Invalid blockHash hex" blockHash, ← readUint64 "Invalid index hex" index)

/-- The earliest block has no name here. -/
def eth_getTransactionByBlockNumberAndIndex : Read (UInt64 × UInt64) := decoding "eth_getTransactionByBlockNumberAndIndex" do
  let blockNum ← textAt request 0
  let index ← textAt request 1
  if numFilter index = false then raise "Invalid index hex"
  else if blockNum = "latest" then do pure (← latestHeight storage, ← readUint64 "Invalid index hex" index)
  else do pure (← readUint64 "Invalid blockNumber hex" blockNum, ← readUint64 "Invalid index hex" index)

def eth_getTransactionReceipt : Read Hash := decoding "eth_getTransactionReceipt" do
  let txHash ← textAt request 0
  readHash looseHashFilter ("Invalid Hex: " ++ txHash) txHash

/-! Logs. The block that they are asked for by its hash is kept in the storage then, whatever comes of the request. -/

/-- A decoder that looks blocks up. -/
abbrev Decoder (α : Type) := Action Storage (Fault Exception) α

def lift {α : Type} : Read α → Decoder α
  | .ok value => pure value
  | .error fault => throw fault

/-- A field that may be missing, but not null. -/
def field {α : Type} (logsObject : Value) (key : String) (read : String → Read α) (default : α) : Read α := do
  if logsObject.contains key then read (← (← logsObject.member key).getString) else pure default

def readTopics (logsObject : Value) : Read (List Hash) := do
  if logsObject.contains "topics" then
    match ← logsObject.member "topics" with
    | .array topics => do
      let topicsArray ← topics.mapM Value.getString
      topicsArray.mapM (readHash hashFilter "Invalid topic hex")
    | _ => raise "topics is not an array"
  else pure []

variable {World : Type} (services : Services World) (height : UInt64)

/-- The height of a block that has to be there. -/
def heightOfBlock (blockHash : Hash) : Decoder UInt64 := do
  let storage ← get
  let (block, storage) ← lift (checked (Storage.getBlock services.reader storage services.db blockHash))
  set storage
  lift (block.elim (.error .undefined) fun block => .ok block.nHeight)

def logsRange (logsObject : Value) : Decoder (UInt64 × UInt64) := do
  if logsObject.contains "blockHash" then
    let blockHashHex ← lift (do (← logsObject.member "blockHash").getString)
    let blockHash ← lift (readHash hashFilter "Invalid block hash hex" blockHashHex)
    let height ← heightOfBlock services blockHash
    pure (height, height)
  else
    let storage ← get
    let fromBlock ← lift (field logsObject "fromBlock" (readHeight storage "Invalid fromBlock hex") height)
    let toBlock ← lift (field logsObject "toBlock" (readHeight storage "Invalid fromBlock hex") height)
    pure (fromBlock, toBlock)

/-- Without a range these are the logs of the block that is processed. -/
def eth_getLogs : Decoder (UInt64 × UInt64 × Address × List Hash) :=
  tryCatch (do
    let logsObject ← lift (do (← params request).at 0)
    let (fromBlock, toBlock) ← logsRange services height logsObject
    let address ← lift (field logsObject "address" (readAddress "Invalid address hex") 0)
    let topics ← lift (readTopics logsObject)
    pure (fromBlock, toBlock, address, topics)) fun fault => throw (naming "eth_getLogs" fault)

/-! All methods. -/

def reads {α : Type} (outcome : Storage → Read α) (call : α → Call) : Option (Decoder Call) := some do
  let storage ← get
  lift ((outcome storage).map call)

/-- The decoder of a method, if it has one. -/
def decode : Methods → Option (Decoder Call)
  | .invalid | .eth_sendTransaction => none
  | .web3_clientVersion => reads (fun _ => web3_clientVersion request) fun _ => .web3_clientVersion
  | .web3_sha3 => reads (fun _ => web3_sha3 request) .web3_sha3
  | .net_version => reads (fun _ => net_version request) fun _ => .encoded .net_version
  | .net_listening => reads (fun _ => net_listening request) fun _ => .net_listening
  | .net_peerCount => reads (fun _ => net_peerCount request) fun _ => .encoded .net_peerCount
  | .eth_protocolVersion => reads (fun _ => eth_protocolVersion request) fun _ => .eth_protocolVersion
  | .eth_getBlockByHash => reads (fun _ => eth_getBlockByHash request) fun info => .encoded (.eth_getBlockByHash info.1 info.2)
  | .eth_getBlockByNumber => reads (fun storage => eth_getBlockByNumber storage request) fun info => .encoded (.eth_getBlockByNumber info.1 info.2)
  | .eth_getBlockTransactionCountByHash =>
    reads (fun _ => eth_getBlockTransactionCountByHash request) fun blockHash => .encoded (.eth_getBlockTransactionCountByHash blockHash)
  | .eth_getBlockTransactionCountByNumber =>
    reads (fun storage => eth_getBlockTransactionCountByNumber storage request) fun blockNumber => .encoded (.eth_getBlockTransactionCountByNumber blockNumber)
  | .eth_chainId => reads (fun _ => eth_chainId request) fun _ => .encoded .eth_chainId
  | .eth_syncing => reads (fun _ => eth_syncing request) fun _ => .eth_syncing
  | .eth_coinbase => reads (fun _ => eth_coinbase request) fun _ => .eth_coinbase
  | .eth_blockNumber => reads (fun _ => eth_blockNumber request) fun _ => .encoded .eth_blockNumber
  | .eth_call => reads (fun _ => eth_call request) fun callInfo => .encoded (.eth_call callInfo)
  | .eth_estimateGas => reads (fun _ => eth_estimateGas request) fun callInfo => .encoded (.eth_estimateGas callInfo)
  | .eth_gasPrice => reads (fun _ => eth_gasPrice request) fun _ => .encoded .eth_gasPrice
  | .eth_getLogs => some (do
    let (fromBlock, toBlock, address, topics) ← eth_getLogs request services height
    pure (.eth_getLogs fromBlock toBlock address topics))
  | .eth_getBalance => reads (fun _ => eth_getBalance request) fun address => .encoded (.eth_getBalance address)
  | .eth_getTransactionCount => reads (fun _ => eth_getTransactionCount request) fun address => .encoded (.eth_getTransactionCount address)
  | .eth_getCode => reads (fun _ => eth_getCode request) fun address => .encoded (.eth_getCode address)
  | .eth_sendRawTransaction => reads (fun _ => eth_sendRawTransaction request services.reader services.chainID) .eth_sendRawTransaction
  | .eth_getTransactionByHash => reads (fun _ => eth_getTransactionByHash request) fun txHash => .encoded (.eth_getTransactionByHash txHash)
  | .eth_getTransactionByBlockHashAndIndex => reads (fun _ => eth_getTransactionByBlockHashAndIndex request) fun info =>
    .encoded (.eth_getTransactionByBlockHashAndIndex info.1 info.2)
  | .eth_getTransactionByBlockNumberAndIndex => reads (fun storage => eth_getTransactionByBlockNumberAndIndex storage request) fun info =>
    .encoded (.eth_getTransactionByBlockNumberAndIndex info.1 info.2)
  | .eth_getTransactionReceipt => reads (fun _ => eth_getTransactionReceipt request) fun txHash => .encoded (.eth_getTransactionReceipt txHash)

end Decoders

/-- Both name the check. -/
def checking : Fault Exception → Fault Exception
  | .exception what => .exception ("Error while checking json RPC spec: " ++ what)
  | .undefined => .undefined

/-- Whether a request is one at all. -/
def checkJsonRPCSpec (request : Value) : Read Bool := Except.mapError checking do
  if request.contains "jsonrpc" = false then pure false
  else if (← (← request.constMember "jsonrpc").getString) ≠ "2.0" then pure false
  else if request.contains "method" = false then pure false
  else if request.contains "params" then
    match ← request.constMember "params" with
    | .object _ | .array _ => pure true
    | _ => pure false
  else pure true

def getMethod (request : Value) : Read Methods := Except.mapError checking do
  let method ← (← request.constMember "method").getString
  pure ((methodsLookupTable.lookup method).getD .invalid)

end Decoding

/-! Answers. -/

/-- Code that serves a request. -/
abbrev Served (World α : Type) := Action (Storage × State World) (Fault Stop) α

namespace Served
variable {World α : Type}

def fault : Fault Exception → Fault Stop
  | .exception what => .exception (.exception what)
  | .undefined => .undefined

/-- What only the storage is used for. -/
def decoded (decoder : Decoding.Decoder α) : Served World α := do
  let (storage, state) ← get
  let (outcome, storage) := decoder.eval storage
  set (storage, state)
  match outcome with
  | .ok value => pure value
  | .error what => throw (fault what)

def stop : Stop → Fault Stop
  | .exception what => if what = Tx.pastEnd then .undefined else .exception (.exception what)
  | .deadlock => .exception .deadlock

/-- A read behind the end is no exception here, either. Blocks that were looked up before a throw are not kept. -/
def encoded (rpc : Rpc World α) : Served World α := do
  let (storage, state) ← get
  match (rpc storage).eval state with
  | (.ok (value, storage), state) => do
    set (storage, state)
    pure value
  | (.error why, state) => do
    set (storage, state)
    throw (stop why)

end Served

/-- `ret[key] = value;` -/
def Value.assign (ret : Value) (key : String) (value : Value) : Value :=
  match ret with
  | object members => object (members.filter (fun member => member.1 ≠ key) ++ [(key, value)])
  | other => other

variable {World : Type} (services : Services World) (options : Encoding.Options)

def respond : Call → Rpc World Value
  | .encoded request => Encoding.handle services request
  | .web3_clientVersion => Encoding.web3_clientVersion options
  | .web3_sha3 data => Encoding.web3_sha3 services data
  | .net_listening => Encoding.net_listening
  | .eth_protocolVersion => Encoding.eth_protocolVersion options
  | .eth_syncing => Encoding.eth_syncing
  | .eth_coinbase => Encoding.eth_coinbase options
  | .eth_getLogs fromBlock toBlock address topics => Encoding.eth_getLogs services fromBlock toBlock address topics
  | .eth_sendRawTransaction tx => Encoding.eth_sendRawTransaction tx

/-- Neither version nor id. -/
def errorMember (code : Int) (message : String) : Value :=
  .object [("error", .object [("code", .integer code), ("message", .string message)])]

/-- The `default` is also taken by the methods that have no `case`. -/
def dispatch : Option (Decoding.Decoder Call) → Served World Value
  | none => pure (errorMember (-32601) "Method not found")
  | some decoder => do
    let call ← Served.decoded decoder
    Served.encoded (respond services options call)

/-- The `switch` over the methods. -/
def switch (request : Value) : Served World Value := do
  let method ← Served.decoded (Decoding.lift (Decoding.getMethod request))
  let (_, state) ← get
  dispatch services options (Decoding.decode request services state.contractManager.globals.blockHeight method)

/-- The id as it is given back. What has no id gets null, and a number becomes one of 64 bits. -/
def echo : Value → Read Value
  | .string id => .ok (.string id)
  | .integer id => .ok (.integer (UInt64.ofInt id).toNat)
  | .float id => if 0 ≤ id ∧ id < 2 ^ 64 then .ok (.integer id) else .error .undefined
  | .null => .ok .null
  | _ => raise "Invalid id type"

def internalError (what : Exception) : Value :=
  .object [("id", .integer 0), ("jsonrpc", .float 2),
    ("error", .object [("code", .integer (-32603)), ("message", .string ("Internal error: " ++ what))])]

/-- What the method answers, under the id of its request. -/
def underId (request : Value) : Served World Value := do
  let ret ← switch services options request
  let id ← Served.decoded (Decoding.lift (do echo (← request.member "id")))
  pure (ret.assign "id" id)

/-- The `try` block. -/
def serve (parsed : Except Exception Value) : Served World Value := do
  let request ← Served.decoded (Decoding.lift (checked parsed))
  let conforms ← Served.decoded (Decoding.lift (Decoding.checkJsonRPCSpec request))
  if conforms = false then pure (errorMember (-32600) "Invalid request - does not conform to JSON-RPC 2.0 spec")
  else underId services options request

/-- The `catch` block. -/
def caught (body : Served World Value) : Served World Value :=
  tryCatch body fun
    | .exception (.exception what) => pure (internalError what)
    | other => throw other

/-- From the body as it is parsed to the answer as it is before it is dumped. -/
def parseJsonRpcRequest (parsed : Except Exception Value) : Served World Value := caught (serve services options parsed)

end JsonRPC
end OrbiterSDK
