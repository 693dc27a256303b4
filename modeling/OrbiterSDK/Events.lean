import OrbiterSDK.Persistence

/-! The events of contracts: their texts, the queries for them, and what is left of them in the database. -/

namespace OrbiterSDK
open Lib

/-! Hexadecimal strings. -/

namespace Hex

/-- The number of a digit. -/
def toInt (c : Char) : Option Nat :=
  if '0' ≤ c ∧ c ≤ '9' then some (c.toNat - '0'.toNat)
  else if 'a' ≤ c ∧ c ≤ 'f' then some (c.toNat - 'a'.toNat + 10)
  else if 'A' ≤ c ∧ c ≤ 'F' then some (c.toNat - 'A'.toNat + 10)
  else none

def joinPairs : List Nat → Bytes
  | high :: low :: rest => UInt8.ofNat (high * 16 + low) :: joinPairs rest
  | _ => []

def withoutPrefix (hex : String) : List Char :=
  match hex.toList with
  | '0' :: 'x' :: rest => rest
  | '0' :: 'X' :: rest => rest
  | chars => chars

/-- A string of odd length begins with half a byte. -/
def toBytes (hex : String) : Except Exception Bytes :=
  match (withoutPrefix hex).mapM toInt with
  | none => .error ("toBytes: Invalid hex string: " ++ hex)
  | some [] => .ok []
  | some (first :: rest) => .ok (if rest.length % 2 = 0 then UInt8.ofNat first :: joinPairs rest else joinPairs (first :: rest))

/-- With the prefix. -/
def fromBytes (bytes : Bytes) : String := "0x" ++ Utils.hexFromBytes bytes

end Hex

/-- The constructor from a string that is not in bytes. -/
def Address.ofHex (add : String) : Except Exception Address :=
  let digits := Hex.withoutPrefix add
  if digits.length = 40 ∧ (digits.mapM Hex.toInt).isSome then do
    let bytes ← Hex.toBytes add
    pure (Address.ofBytes bytes)
  else .error "Invalid Hex address."

/-! Values of the JSON library. -/

inductive Json where
  | string (value : String)
  | number (value : UInt64)
  | boolean (value : Bool)
  | array (values : List Json)
  | object (members : List (String × Json))

namespace Json

def typeError : Exception := "[json.exception.type_error.302]"

/-- A member that is missing is null, which is of no type that is asked for. -/
def member (obj : Json) (name : String) : Except Exception Json :=
  match obj with
  | .object members => (members.lookup name).elim (.error typeError) .ok
  | _ => .error typeError

def getString : Json → Except Exception String
  | .string value => .ok value
  | _ => .error typeError

def getUint64 : Json → Except Exception UInt64
  | .number value => .ok value
  | _ => .error typeError

def getBool : Json → Except Exception Bool
  | .boolean value => .ok value
  | _ => .error typeError

def getArray : Json → Except Exception (List Json)
  | .array values => .ok values
  | _ => .error typeError

/-- Numbers are cast to bytes. -/
def getBytes (value : Json) : Except Exception Bytes := do
  let values ← value.getArray
  values.mapM fun element => do pure (UInt8.ofNat (← element.getUint64).toNat)

end Json

/-- The texts of values. -/
structure JsonLibrary where
  dump : Json → Bytes
  parse : Bytes → Except Exception Json

namespace Event

/-- A `substr`, which checks where it begins. -/
def substr (text : String) (pos : Nat) : Except Exception String :=
  if pos ≤ text.toList.length then .ok (String.ofList (text.toList.drop pos)) else .error "basic_string::substr"

def readHash (obj : Json) (name : String) : Except Exception Hash := do
  let text ← (← obj.member name).getString
  Hash.read (← Hex.toBytes (← substr text 2))

def readTopic (topic : Json) : Except Exception Hash := do
  Hash.read (← Hex.toBytes (← topic.getString))

def ofJson (obj : Json) : Except Exception Event := do
  let name ← (← obj.member "name").getString
  let logIndex ← (← obj.member "logIndex").getUint64
  let txHash ← readHash obj "txHash"
  let txIndex ← (← obj.member "txIndex").getUint64
  let blockHash ← readHash obj "blockHash"
  let blockIndex ← (← obj.member "blockIndex").getUint64
  let address ← Address.ofHex (← (← obj.member "address").getString)
  let data ← (← obj.member "data").getBytes
  let topics ← (← (← obj.member "topics").getArray).mapM readTopic
  let anonymous ← (← obj.member "anonymous").getBool
  pure { name, logIndex, txHash, txIndex, blockHash, blockIndex, address, data, topics, anonymous }

def toJson (event : Event) : Json :=
  .object [
    ("name", .string event.name),
    ("logIndex", .number event.logIndex),
    ("txHash", .string (Hex.fromBytes event.txHash.get)),
    ("txIndex", .number event.txIndex),
    ("blockHash", .string (Hex.fromBytes event.blockHash.get)),
    ("blockIndex", .number event.blockIndex),
    ("address", .string (Hex.fromBytes event.address.get)),
    ("data", .array (event.data.map fun byte => .number (UInt64.ofNat byte.toNat))),
    ("topics", .array (event.topics.map fun topic => .string (Hex.fromBytes topic.get))),
    ("anonymous", .boolean event.anonymous)]

/-- The constructor from a string. -/
def ofString (json : JsonLibrary) (jsonstr : Bytes) : Except Exception Event := do ofJson (← json.parse jsonstr)

def serialize (json : JsonLibrary) (event : Event) : Bytes := json.dump event.toJson

end Event

namespace DBPrefix

def events : Bytes := [0x00, 0x08]

end DBPrefix

/-- The options that limit a query. -/
structure EventCaps where
  eventBlockCap : UInt64
  eventLogCap : UInt64

namespace EventManager

def uint64ToBytes (value : UInt64) : Bytes := Utils.uintToBytes 8 value.toNat

/-- Block height, transaction index, log index and address. -/
def eventKey (event : Event) : Bytes :=
  uint64ToBytes event.blockIndex ++ (uint64ToBytes event.txIndex ++ (uint64ToBytes event.logIndex ++ event.address.get))

variable (json : JsonLibrary) (caps : EventCaps)

/-- The constructor. -/
def load (db : DB) : Except Exception EventManager := do
  let events ← (db.getBatch DBPrefix.events).mapM fun entry => Event.ofString json entry.2
  pure { events }

/-- The destructor. -/
def save (manager : EventManager) (db : DB) : DB :=
  db.putBatch ((byBlockIndex manager.events).map fun event => (DBPrefix.events ++ eventKey event, event.serialize json))

def matchTopics (event : Event) (topics : List Hash) : Bool :=
  if topics.isEmpty then true
  else if event.topics.length < topics.length then false
  else (topics.zip event.topics).all fun pair => pair.1 = pair.2

variable (manager : EventManager) (db : DB)

/-- With an address the walk goes on behind the events of that address. -/
def filterFromMemory (fromBlock toBlock : UInt64) (address : Address) : List Event :=
  if address ≠ 0 then
    ((MultiIndex.lowerBound (fun event : Event => event.address.toNat) address.toNat manager.events).takeWhile
      fun event => event.blockIndex.toNat ≤ toBlock.toNat).filter fun event => fromBlock.toNat ≤ event.blockIndex.toNat
  else (byBlockIndex manager.events).filter fun event =>
    fromBlock.toNat ≤ event.blockIndex.toNat ∧ event.blockIndex.toNat ≤ toBlock.toNat

/-- Events of the database are put behind others until there are as many as the options allow. -/
def fetch (keep : Event → Bool) : List (Bytes × Bytes) → List Event → Except Exception (List Event)
  | [], ret => .ok ret
  | entry :: rest, ret =>
    if caps.eventLogCap.toNat ≤ ret.length then .ok ret
    else do
      let e ← Event.ofString json entry.2
      fetch keep rest (if keep e then ret ++ [e] else ret)

/-- Whether a key is of the range and of the address. -/
def wantsKey (fromBlock toBlock : UInt64) (address : Address) (key : Bytes) : Except Exception Bool :=
  if key.length < 44 then .error "Invalid range for span"
  else
    let nHeight := Utils.bytesToUint (key.take 8)
    let addr := Address.ofBytes ((key.drop 24).take 20)
    .ok ((fromBlock.toNat ≤ nHeight ∧ nHeight ≤ toBlock.toNat) ∧ (address = 0 ∨ address = addr))

/-- The loop over the keys that are found. -/
def wantedKeys (fromBlock toBlock : UInt64) (address : Address) : List Bytes → Except Exception (List Bytes)
  | [] => .ok []
  | key :: rest => do
    let wanted ← wantsKey fromBlock toBlock address key
    let dbKeys ← wantedKeys fromBlock toBlock address rest
    pure (if wanted then key :: dbKeys else dbKeys)

def filterFromDB (fromBlock toBlock : UInt64) (address : Address) (topics : List Hash) : Except Exception (List Event) := do
  let dbKeys ← wantedKeys fromBlock toBlock address
    (db.getKeys DBPrefix.events (uint64ToBytes fromBlock) (uint64ToBytes toBlock))
  fetch json caps (fun e => matchTopics e topics) (db.getBatchOf DBPrefix.events dbKeys) []

/-- The overload for a range of blocks. -/
def getEvents (fromBlock toBlock : UInt64) (address : Address) (topics : List Hash) : Except Exception (List Event) :=
  let heightDiff := max fromBlock.toNat toBlock.toNat - min fromBlock.toNat toBlock.toNat
  if caps.eventBlockCap.toNat < heightDiff then
    .error ("Block range too large for event querying! Max allowed is " ++ toString caps.eventBlockCap)
  else
    let ret := ((filterFromMemory manager fromBlock toBlock address).filter fun e => matchTopics e topics).take caps.eventLogCap.toNat
    if caps.eventLogCap.toNat ≤ ret.length then .ok ret
    else do
      let fetched ← filterFromDB json caps db fromBlock toBlock address topics
      pure (ret ++ fetched.take (caps.eventLogCap.toNat - ret.length))

/-- The overload for a transaction. -/
def getTxEvents (txHash : Hash) (blockIndex txIndex : UInt64) : Except Exception (List Event) :=
  let range := (MultiIndex.ordered (fun event : Event => event.txHash.toNat) manager.events).filter fun event => event.txHash = txHash
  let ret := (range.filter fun e => e.blockIndex = blockIndex ∧ e.txIndex = txIndex).take caps.eventLogCap.toNat
  fetch json caps (fun _ => true) (db.getBatch (DBPrefix.events ++ (uint64ToBytes blockIndex ++ uint64ToBytes txIndex))) ret

end EventManager

/-! Runs of a node, as far as events are concerned. -/

/-- What a transaction emits: the logs of the machine, or the events of a contract that returns or throws. -/
inductive Emission where
  | machine (emittedEvents : List EVMEvent)
  | contract (registered : List Event) (returns : Bool)

def Emission.count : Emission → Nat
  | .machine emittedEvents => emittedEvents.length
  | .contract registered _ => registered.length

/-- A transaction in its place. -/
structure Emitter where
  block : BlockContext
  tx : TxBlock
  txIndex : UInt64
  emission : Emission

namespace Emitter

def globals (block : BlockContext) : ContractGlobals :=
  ⟨block.blockCoinbase, block.blockHash, block.blockHeight, block.blockTimestamp⟩

/-- What becomes of the events of a transaction. -/
def process (manager : EventManager) (emitter : Emitter) : EventManager :=
  match emitter.emission with
  | .machine emittedEvents =>
    (emittedEvents.mapIdx (State.sdkEvent emitter.tx emitter.block emitter.txIndex)).foldl EventManager.commitEvent manager
  | .contract registered true =>
    (registered.foldl EventManager.registerEvent manager).commitEvents (globals emitter.block) emitter.tx.hash emitter.txIndex
  | .contract registered false => (registered.foldl EventManager.registerEvent manager).revertEvents

/-- The transactions of a block. -/
def ofBlock (block : BlockContext) : List (TxBlock × Emission) → UInt64 → List Emitter
  | [], _ => []
  | (tx, emission) :: rest, txIndex => ⟨block, tx, txIndex, emission⟩ :: ofBlock block rest (txIndex + 1)

end Emitter

/-- Blocks are processed, each higher than those before, other components write under their own prefixes, and the node
is stopped and started again. -/
inductive EventRun (json : JsonLibrary) : List Emitter → EventManager → DB → Prop where
  | start {db : DB} (fresh : ∀ key, db.lookup (DBPrefix.events ++ key) = none) : EventRun json [] {} db
  | block {history : List Emitter} {manager : EventManager} {db : DB} (run : EventRun json history manager db)
      (block : BlockContext) (txs : List (TxBlock × Emission))
      (higher : ∀ emitter ∈ history, emitter.block.blockHeight.toNat < block.blockHeight.toNat)
      (few : txs.length ≤ 2 ^ 64 ∧ ∀ entry ∈ txs, entry.2.count ≤ 2 ^ 64) :
      EventRun json (history ++ Emitter.ofBlock block txs 0) ((Emitter.ofBlock block txs 0).foldl Emitter.process manager) db
  | elsewhere {history : List Emitter} {manager : EventManager} {db db' : DB} (run : EventRun json history manager db)
      (same : ∀ key, db'.lookup (DBPrefix.events ++ key) = db.lookup (DBPrefix.events ++ key)) : EventRun json history manager db'
  | restart {history : List Emitter} {manager opened : EventManager} {db : DB} (run : EventRun json history manager db)
      (loaded : EventManager.load json (manager.save json db) = .ok opened) :
      EventRun json history opened (manager.save json db)

end OrbiterSDK
