import OrbiterSDK.Storage

/-! What nodes send each other: a byte for the type, eight for the id, two for the command, then the data. -/

namespace OrbiterSDK.P2P
open Tx (pastEnd)

/-- Any other byte is cast to the enumeration as it is. -/
inductive NodeType where
  | normalNode
  | discoveryNode
  | unnamed (byte : UInt8) (other : 1 < byte)
  deriving DecidableEq

def NodeType.value : NodeType → UInt8
  | normalNode => 0
  | discoveryNode => 1
  | unnamed byte _ => byte

def NodeType.ofByte (byte : UInt8) : NodeType :=
  if other : 1 < byte then .unnamed byte other
  else if byte = 0 then .normalNode
  else .discoveryNode

/-- The number after the last one is not refused. -/
inductive RequestType where
  | requesting | answering | broadcasting | unnamed
  deriving DecidableEq

inductive CommandType where
  | ping | info | requestNodes | requestValidatorTxs | broadcastValidatorTx | broadcastTx | broadcastBlock | requestTxs | unnamed
  deriving DecidableEq

def typePrefixes : List Bytes := [[0x00], [0x01], [0x02]]

def commandPrefixes : List Bytes :=
  [[0x00, 0x00], [0x00, 0x01], [0x00, 0x02], [0x00, 0x03], [0x00, 0x04], [0x00, 0x05], [0x00, 0x06], [0x00, 0x07]]

def RequestType.cast : Nat → RequestType
  | 0 => requesting
  | 1 => answering
  | 2 => broadcasting
  | _ => unnamed

def CommandType.cast : Nat → CommandType
  | 0 => ping
  | 1 => info
  | 2 => requestNodes
  | 3 => requestValidatorTxs
  | 4 => broadcastValidatorTx
  | 5 => broadcastTx
  | 6 => broadcastBlock
  | 7 => requestTxs
  | _ => unnamed

def getRequestType (message : Bytes) : Except Exception RequestType :=
  if message.length ≠ 1 then .error ("Invalid Request Type size. " ++ toString message.length)
  else
    let requestType := Utils.bytesToUint message
    if typePrefixes.length < requestType then .error "Invalid request type."
    else .ok (.cast requestType)

def getCommandType (message : Bytes) : Except Exception CommandType :=
  if message.length ≠ 2 then .error ("Invalid Command Type size." ++ toString message.length)
  else
    let commandType := Utils.bytesToUint message
    if commandPrefixes.length < commandType then .error "Invalid command type."
    else .ok (.cast commandType)

def getRequestTypePrefix (type : RequestType) : Bytes := typePrefixes.getD type.ctorIdx []

def getCommandPrefix (commType : CommandType) : Bytes := commandPrefixes.getD commType.ctorIdx []

/-- A hash of eight bytes. -/
abbrev RequestID := BitVec 64

def RequestID.get (id : RequestID) : Bytes := Utils.uintToBytes 8 id.toNat

def RequestID.ofBytes (bytes : Bytes) : RequestID := BitVec.ofNat 64 (Utils.bytesToUint bytes)

def RequestID.toUint64 (id : RequestID) : UInt64 := UInt64.ofNat id.toNat

/-- An address of the sixth version may name the interface it belongs to. -/
inductive IpAddress where
  | v4 (address : BitVec 32)
  | v6 (address : BitVec 128) (scope : UInt64)
  deriving DecidableEq

abbrev NodeID := IpAddress × UInt16

structure NodeInfo where
  nodeVersion : UInt64
  currentTimestamp : UInt64
  latestBlockHeight : UInt64
  latestBlockHash : Hash
  deriving DecidableEq

def FNVHash (s : Bytes) : UInt64 := s.foldl (fun result byte => (16777619 * result) ^^^ byte.toUInt64) 2166136261

/-- What is received may have any size. -/
structure Message where
  rawMessage : Bytes
  deriving DecidableEq

namespace Message

/-- The constructor from bytes. -/
def ofRaw (raw : Bytes) : Except Exception Message := if raw.length < 11 then .error "Invalid message size." else .ok ⟨raw⟩

variable (whole : Message)

def size : Nat := whole.rawMessage.length

def type : Except Exception RequestType := do getRequestType (← Storage.span whole.rawMessage 0 1)

def id : Except Exception RequestID := return .ofBytes (← Storage.span whole.rawMessage 1 8)

def command : Except Exception CommandType := do getCommandType (← Storage.span whole.rawMessage 9 2)

/-- What follows the header. -/
def message : Except Exception Bytes :=
  if 11 ≤ whole.rawMessage.length then .ok (whole.rawMessage.drop 11) else .error pastEnd

end Message

/-- A message of its parts. -/
def compose (type : RequestType) (id : RequestID) (command : CommandType) (data : Bytes) : Except Exception Message :=
  Message.ofRaw (getRequestTypePrefix type ++ id.get ++ getCommandPrefix command ++ data)

def infoBytes (version currentEpoch : UInt64) (latestBlock : Block) : Bytes :=
  Utils.uintToBytes 8 version.toNat ++ Utils.uintToBytes 8 currentEpoch.toNat ++ Utils.uintToBytes 8 latestBlock.nHeight.toNat ++
    latestBlock.hash.get

/-- Nothing checks that there are so many bytes. -/
def readInfo (message : Message) : Except Exception NodeInfo := do
  let data ← message.message
  let nodeVersion ← Storage.span data 0 8
  let nodeEpoch ← Storage.span data 8 8
  let nodeHeight ← Storage.span data 16 8
  let nodeHash ← Storage.span data 24 32
  pure ⟨.ofNat (Utils.bytesToUint nodeVersion), .ofNat (Utils.bytesToUint nodeEpoch), .ofNat (Utils.bytesToUint nodeHeight),
    .ofBytes nodeHash⟩

namespace RequestEncoder

/-! The ids are random. -/

variable (id : RequestID)

def ping : Except Exception Message := compose .requesting id .ping []

def info (latestBlock : Block) (version currentEpoch : UInt64) : Except Exception Message :=
  compose .requesting id .info (infoBytes version currentEpoch latestBlock)

def requestNodes : Except Exception Message := compose .requesting id .requestNodes []

def requestValidatorTxs : Except Exception Message := compose .requesting id .requestValidatorTxs []

def requestTxs : Except Exception Message := compose .requesting id .requestTxs []

end RequestEncoder

namespace RequestDecoder

/-- A request without data. -/
def bare (command : CommandType) (message : Message) : Except Exception Bool :=
  if message.size ≠ 11 then .ok false else return (← message.command) = command

def ping : Message → Except Exception Bool := bare .ping

def info (message : Message) : Except Exception NodeInfo := do
  if message.size ≠ 67 then throw "Invalid Info message size."
  else if (← message.command) ≠ .info then throw "Invalid Info message command."
  else readInfo message

def requestNodes : Message → Except Exception Bool := bare .requestNodes

def requestValidatorTxs : Message → Except Exception Bool := bare .requestValidatorTxs

def requestTxs : Message → Except Exception Bool := bare .requestTxs

end RequestDecoder

/-- A node as it stands in an answer. -/
def nodeRecord (node : NodeID × NodeType) : Bytes :=
  let address := match node.1.1 with
    | .v4 address => 0 :: Utils.uintToBytes 4 address.toNat
    | .v6 address _ => 1 :: Utils.uintToBytes 16 address.toNat
  node.2.value :: address ++ Utils.uintToBytes 2 node.1.2.toNat

namespace AnswerEncoder

variable (request : Message)

def ping : Except Exception Message := do compose .answering (← request.id) .ping []

def info (latestBlock : Block) (version currentEpoch : UInt64) : Except Exception Message := do
  compose .answering (← request.id) .info (infoBytes version currentEpoch latestBlock)

def requestNodes (nodes : List (NodeID × NodeType)) : Except Exception Message := do
  compose .answering (← request.id) .requestNodes (nodes.map nodeRecord).flatten

def requestValidatorTxs (txs : List (Hash × TxValidator)) : Except Exception Message := do
  compose .answering (← request.id) .requestValidatorTxs (Block.entries (txs.map fun entry => entry.2.rlpSerialize true))

def requestTxs (txs : List (Hash × TxBlock)) : Except Exception Message := do
  compose .answering (← request.id) .requestTxs (Block.entries (txs.map fun entry => entry.2.rlpSerialize true))

end AnswerEncoder

/-- `nodes.insert`, which leaves what is there already. -/
def insertNode (nodes : List (NodeID × NodeType)) (node : NodeID × NodeType) : List (NodeID × NodeType) :=
  if nodes.any (·.1 = node.1) then nodes else nodes ++ [node]

namespace AnswerDecoder

def ping (message : Message) : Except Exception Bool := do
  if message.size ≠ 11 then return false
  else if (← message.type) ≠ .answering then return false
  else return (← message.command) = .ping

/-- The data of an answer to a command. -/
def answerData (command : CommandType) (message : Message) : Except Exception Bytes := do
  if (← message.type) ≠ .answering then throw "Invalid message type."
  else if (← message.command) ≠ command then throw "Invalid command."
  else message.message

def info (message : Message) : Except Exception NodeInfo := do
  let _ ← answerData .info message
  readInfo message

/-- The loop over the nodes. It is the whole data that is compared with the size of one node. -/
def readNodes (data : Bytes) (index : Nat) (nodes : List (NodeID × NodeType)) : Except Exception (List (NodeID × NodeType)) :=
  if index < data.length then
    if data.length < 8 then .error "Invalid data size."
    else do
    let nodeType ← Storage.span data index 1
    let ipVersion ← Storage.span data (index + 1) 1
    let insert (address : IpAddress) (port : Bytes) :=
      insertNode nodes ((address, .ofNat (Utils.bytesToUint port)), .ofByte (.ofNat (Utils.bytesToUint nodeType)))
    if Utils.bytesToUint ipVersion = 0 then
      let ipBytes ← Storage.span data (index + 2) 4
      let port ← Storage.span data (index + 6) 2
      readNodes data (index + 8) (insert (.v4 (.ofNat 32 (Utils.bytesToUint ipBytes))) port)
    else if Utils.bytesToUint ipVersion = 1 then
      let ipBytes ← Storage.span data (index + 2) 16
      let port ← Storage.span data (index + 18) 2
      readNodes data (index + 20) (insert (.v6 (.ofNat 128 (Utils.bytesToUint ipBytes)) 0) port)
    else throw "Invalid ip version."
  else .ok nodes
  termination_by data.length - index

def requestNodes (message : Message) : Except Exception (List (NodeID × NodeType)) := do
  readNodes (← answerData .requestNodes message) 0 []

/-- The loop over transactions behind their sizes. -/
def readTxs {α : Type} (construct : Bytes → Bytes → Except Exception α) (data : Bytes) (index : Nat) : Except Exception (List α) :=
  if index < data.length then
    if data.length < 4 then .error "Invalid data size."
    else do
    let txSize ← Block.sizeAt data index
    if data.length < txSize then throw "Invalid data size."
    else do
    let tx ← Block.constructAt data construct (index + 4) txSize
    return tx :: (← readTxs construct data (index + 4 + txSize))
  else .ok []
  termination_by data.length - index

variable (reader : BlockReader)

def requestValidatorTxs (message : Message) : Except Exception (List TxValidator) := do
  readTxs (fun span behind => TxValidator.ofBytes reader.lib reader.sha3 span (behind ++ reader.past) reader.chainId)
    (← answerData .requestValidatorTxs message) 0

def requestTxs (message : Message) : Except Exception (List TxBlock) := do
  readTxs (fun span behind => reader.tx span (behind ++ reader.past)) (← answerData .requestTxs message) 0

end AnswerDecoder

namespace BroadcastEncoder

/-- The id is the hash of the data. -/
def broadcast (command : CommandType) (data : Bytes) : Except Exception Message :=
  compose .broadcasting (.ofBytes (Utils.uintToBytes 8 (FNVHash data).toNat)) command data

def broadcastValidatorTx (tx : TxValidator) : Except Exception Message := broadcast .broadcastValidatorTx (tx.rlpSerialize true)

def broadcastTx (tx : TxBlock) : Except Exception Message := broadcast .broadcastTx (tx.rlpSerialize true)

def broadcastBlock (block : Block) : Except Exception Message := broadcast .broadcastBlock block.serializeBlock

end BroadcastEncoder

namespace BroadcastDecoder

/-- The data of a broadcast with a command, whose id is checked first. -/
def broadcastData (wrongId : Exception) (command : CommandType) (message : Message) : Except Exception Bytes := do
  if (← message.type) ≠ .broadcasting then throw "Invalid message type."
  else if (← message.id).toUint64 ≠ FNVHash (← message.message) then throw wrongId
  else if (← message.command) ≠ command then throw "Invalid command."
  else message.message

variable (reader : BlockReader)

def broadcastValidatorTx (message : Message) : Except Exception TxValidator := do
  let data ← broadcastData "Invalid message id." .broadcastValidatorTx message
  TxValidator.ofBytes reader.lib reader.sha3 data reader.past reader.chainId

def broadcastTx (message : Message) : Except Exception TxBlock := do
  let data ← broadcastData "Invalid message id." .broadcastTx message
  reader.tx data reader.past

def broadcastBlock (message : Message) : Except Exception Block := do
  let data ← broadcastData "Invalid message id. " .broadcastBlock message
  reader.block data

end BroadcastDecoder

end OrbiterSDK.P2P
