import OrbiterSDK.Persistence
import OrbiterSDK.BlockBytes
import OrbiterSDK.Lib.Index

/-! The history of the chain: the newest blocks in memory, the others in the database, with a cache
for those that were asked for. -/

namespace OrbiterSDK
open Lib

namespace DBPrefix

def blocks : Bytes := [0x00, 0x01]

def blockHeightMaps : Bytes := [0x00, 0x02]

def txToBlocks : Bytes := [0x00, 0x04]

end DBPrefix

/-- What the constructors of blocks and transactions use, with the memory behind their bytes. -/
structure BlockReader where
  lib : Secp256k1
  sha3 : Bytes → Hash
  signer : Block.Signer
  chainId : UInt64
  past : Bytes

namespace BlockReader

def block (reader : BlockReader) (bytes : Bytes) : Except Exception Block :=
  Block.ofBytes reader.lib reader.sha3 reader.signer bytes reader.past reader.chainId

def tx (reader : BlockReader) (bytes past : Bytes) : Except Exception TxBlock :=
  TxBlock.ofBytes reader.lib reader.sha3 bytes past reader.chainId

end BlockReader

/-- Block hash, block index and block height. -/
structure TxLocation where
  blockHash : Hash
  blockIndex : UInt64
  blockHeight : UInt64
  deriving DecidableEq

/-- A transaction, if there is one, and where it is. -/
abbrev TxAnswer := Option TxBlock × TxLocation

structure Storage where
  chain : List Block := []
  blockByHash : Index Hash Block := fun _ => none
  txByHash : Index Hash TxLocation := fun _ => none
  blockHeightByHash : Index Hash UInt64 := fun _ => none
  blockHashByHeight : Index UInt64 Hash := fun _ => none
  cachedBlocks : Index Hash Block := fun _ => none
  cachedTxs : Index Hash (TxBlock × TxLocation) := fun _ => none

namespace Storage

/-- What `at` of a map throws. -/
def absent : Exception := "_Map_base::at"

/-! The ends of the chain. -/

def txEntries (block : Block) : List (Hash × TxLocation) :=
  block.txs.zipIdx.map fun entry => (entry.1.hash, ⟨block.hash, UInt64.ofNat entry.2, block.nHeight⟩)

/-- Add block and txs to mappings. -/
def addToMappings (storage : Storage) (block : Block) : Storage := { storage with
  blockByHash := storage.blockByHash.insert block.hash block
  blockHashByHeight := storage.blockHashByHeight.insert block.nHeight block.hash
  blockHeightByHash := storage.blockHeightByHash.insert block.hash block.nHeight
  txByHash := storage.txByHash.insertAll (txEntries block) }

def wrongPrevious (block : Block) : Exception :=
  "Block " ++ Utils.hexFromBytes block.hash.get ++ " does not have the correct previous block hash."

def wrongHeight (block : Block) : Exception := "Block " ++ Utils.hexFromBytes block.hash.get ++ " does not have the correct height."

def pushBack (storage : Storage) (block : Block) : Except Exception Storage :=
  let pushed := addToMappings { storage with chain := storage.chain ++ [block] } block
  match storage.chain.getLast? with
  | none => .ok pushed
  | some back =>
    if back.hash ≠ block.prevBlockHash then .error (wrongPrevious block)
    else if block.nHeight ≠ back.nHeight + 1 then .error (wrongHeight block)
    else .ok pushed

def pushFront (storage : Storage) (block : Block) : Except Exception Storage :=
  let pushed := addToMappings { storage with chain := block :: storage.chain } block
  match storage.chain.head? with
  | none => .ok pushed
  | some front =>
    if front.prevBlockHash ≠ block.hash then .error (wrongPrevious block)
    else if block.nHeight ≠ front.nHeight - 1 then .error (wrongHeight block)
    else .ok pushed

/-- Neither its height nor its hash is taken off the maps between the two. -/
def removeFromMappings (storage : Storage) (block : Block) : Storage := { storage with
  txByHash := storage.txByHash.eraseAll (block.txs.map TxBlock.hash)
  blockByHash := storage.blockByHash.erase block.hash }

def popBack (storage : Storage) : Except Exception Storage :=
  match storage.chain.getLast? with
  | none => .error Tx.pastEnd
  | some block => .ok { removeFromMappings storage block with chain := storage.chain.dropLast }

def popFront (storage : Storage) : Except Exception Storage :=
  match storage.chain.head? with
  | none => .error Tx.pastEnd
  | some block => .ok { removeFromMappings storage block with chain := storage.chain.tail }

def latest (storage : Storage) : Except Exception Block :=
  match storage.chain.getLast? with
  | none => .error Tx.pastEnd
  | some block => .ok block

/-- What the ends of the chain are changed by. -/
inductive Edit where
  | pushBack (block : Block)
  | pushFront (block : Block)
  | popBack
  | popFront

def Edit.apply (storage : Storage) : Edit → Except Exception Storage
  | .pushBack block => storage.pushBack block
  | .pushFront block => storage.pushFront block
  | .popBack => storage.popBack
  | .popFront => storage.popFront

/-- Whatever throws does so before it changes anything. -/
def edit (storage : Storage) (edit : Edit) : Storage :=
  match edit.apply storage with
  | .ok next => next
  | .error _ => storage

/-! Queries. They may fill the cache. -/

inductive StorageStatus where
  | notFound | onChain | onCache | onDB
  deriving DecidableEq

section Queries
variable (reader : BlockReader) (storage : Storage) (db : DB)

def blockExistsInternal (hash : Hash) : StorageStatus :=
  if (storage.blockByHash hash).isSome then .onChain
  else if (storage.cachedBlocks hash).isSome then .onCache
  else if db.has hash.get DBPrefix.blocks then .onDB
  else .notFound

/-- The overload for a height. -/
def heightExistsInternal (height : UInt64) : StorageStatus :=
  match storage.blockHashByHeight height with
  | some hash =>
    if (storage.blockByHash hash).isSome then .onChain
    else if (storage.cachedBlocks hash).isSome then .onCache
    else .onDB
  | none => .notFound

def txExistsInternal (tx : Hash) : StorageStatus :=
  if (storage.txByHash tx).isSome then .onChain
  else if (storage.cachedTxs tx).isSome then .onCache
  else if db.has tx.get DBPrefix.txToBlocks then .onDB
  else .notFound

def blockExists (hash : Hash) : Bool := blockExistsInternal storage db hash ≠ .notFound

def heightExists (height : UInt64) : Bool := heightExistsInternal storage height ≠ .notFound

/-- From the database to the cache. -/
def cacheBlock (hash : Hash) : Except Exception (Option Block × Storage) := do
  let block ← reader.block (db.get hash.get DBPrefix.blocks)
  let storage := { storage with cachedBlocks := storage.cachedBlocks.insert hash block }
  let cached ← storage.cachedBlocks.get hash absent
  pure (some cached, storage)

def getBlock (hash : Hash) : Except Exception (Option Block × Storage) :=
  match blockExistsInternal storage db hash with
  | .notFound => .ok (none, storage)
  | .onChain => do
    let block ← storage.blockByHash.get hash absent
    pure (some block, storage)
  | .onCache => do
    let block ← storage.cachedBlocks.get hash absent
    pure (some block, storage)
  | .onDB => cacheBlock reader storage db hash

/-- The overload for a height. -/
def getBlockAt (height : UInt64) : Except Exception (Option Block × Storage) :=
  match heightExistsInternal storage height with
  | .notFound => .ok (none, storage)
  | .onChain => do
    let hash ← storage.blockHashByHeight.get height absent
    let block ← storage.blockByHash.get hash absent
    pure (some block, storage)
  | .onCache => do
    let hash ← storage.blockHashByHeight.get height absent
    let block ← storage.cachedBlocks.get hash absent
    pure (some block, storage)
  | .onDB => do
    let hash ← storage.blockHashByHeight.get height absent
    cacheBlock reader storage db hash

/-- The size of four bytes is added to that of a transaction with 32 bits. -/
def skipTxs (blockData : Bytes) : Nat → Nat → Except Exception Nat
  | 0, index => .ok index
  | count + 1, index => do
    let txSize ← Block.sizeAt blockData index
    skipTxs blockData count (index + (txSize + 4) % 2 ^ 32)

/-- Nothing checks that there is such a transaction. -/
def getTxFromBlockWithIndex (blockData : Bytes) (txIndex : UInt64) : Except Exception TxBlock := do
  let index ← skipTxs blockData txIndex.toNat 217
  let txSize ← Block.sizeAt blockData index
  Block.constructAt blockData reader.tx (index + 4) txSize

def noTx : TxAnswer := (none, ⟨0, 0, 0⟩)

/-- A transaction of the database is put in the cache. -/
def cacheTx (key : Hash) (tx : TxBlock) (location : TxLocation) : Except Exception (TxAnswer × Storage) := do
  let storage := { storage with cachedTxs := storage.cachedTxs.insert key (tx, location) }
  let cached ← storage.cachedTxs.get key absent
  pure ((some cached.1, cached.2), storage)

/-- A `subspan`, which is not checked. -/
def span (bytes : Bytes) (start size : Nat) : Except Exception Bytes :=
  if start + size ≤ bytes.length then .ok ((bytes.drop start).take size) else .error Tx.pastEnd

def readLocation (txData : Bytes) : Except Exception TxLocation := do
  let blockHash ← span txData 0 32
  let blockIndex ← span txData 32 4
  let blockHeight ← span txData 36 8
  pure ⟨Hash.ofBytes blockHash, UInt64.ofNat (Utils.bytesToUint blockIndex), UInt64.ofNat (Utils.bytesToUint blockHeight)⟩

/-- The transaction of a block in memory. -/
def txInMemory (block : Block) (blockIndex : UInt64) : Except Exception TxBlock :=
  match block.txs[blockIndex.toNat]? with
  | none => .error "Tx index out of bounds"
  | some transaction => .ok transaction

def getTx (tx : Hash) : Except Exception (TxAnswer × Storage) :=
  match txExistsInternal storage db tx with
  | .notFound => .ok (noTx, storage)
  | .onChain => do
    let location ← storage.txByHash.get tx absent
    let block ← storage.blockByHash.get location.blockHash absent
    let transaction ← txInMemory block location.blockIndex
    if transaction.hash ≠ tx then throw "Tx hash mismatch"
    else pure ((some transaction, location), storage)
  | .onCache => do
    let cached ← storage.cachedTxs.get tx absent
    pure ((some cached.1, cached.2), storage)
  | .onDB => do
    let location ← readLocation (db.get tx.get DBPrefix.txToBlocks)
    let blockData := db.get location.blockHash.get DBPrefix.blocks
    let transaction ← getTxFromBlockWithIndex reader blockData location.blockIndex
    cacheTx storage tx transaction location

/-- The index is not checked. -/
def txOfCachedBlock (blockHash : Hash) (blockIndex : UInt64) : Except Exception (TxAnswer × Storage) := do
  let block ← storage.cachedBlocks.get blockHash absent
  match block.txs[blockIndex.toNat]? with
  | none => throw Tx.pastEnd
  | some transaction => do
    let cached ← storage.cachedTxs.get transaction.hash absent
    pure ((some cached.1, cached.2), storage)

def txOfStoredBlock (blockHash : Hash) (blockIndex : UInt64) : Except Exception (TxAnswer × Storage) := do
  let tx ← getTxFromBlockWithIndex reader (db.get blockHash.get DBPrefix.blocks) blockIndex
  let blockHeight ← storage.blockHeightByHash.get blockHash absent
  cacheTx storage tx.hash tx ⟨blockHash, blockIndex, blockHeight⟩

def getTxByBlockHashAndIndex (blockHash : Hash) (blockIndex : UInt64) : Except Exception (TxAnswer × Storage) :=
  match blockExistsInternal storage db blockHash with
  | .notFound => .ok (noTx, storage)
  | .onChain => do
    let block ← storage.blockByHash.get blockHash absent
    let transaction ← txInMemory block blockIndex
    let location ← storage.txByHash.get transaction.hash absent
    if location.blockHash ≠ blockHash ∨ location.blockIndex ≠ blockIndex then throw "Tx hash mismatch"
    else pure ((some transaction, location), storage)
  | .onCache => txOfCachedBlock storage blockHash blockIndex
  | .onDB => txOfStoredBlock reader storage db blockHash blockIndex

/-- There is no check of the location. -/
def getTxByBlockNumberAndIndex (blockHeight : UInt64) (blockIndex : UInt64) : Except Exception (TxAnswer × Storage) :=
  match heightExistsInternal storage blockHeight with
  | .notFound => .ok (noTx, storage)
  | .onChain => do
    let blockHash ← storage.blockHashByHeight.get blockHeight absent
    let block ← storage.blockByHash.get blockHash absent
    let transaction ← txInMemory block blockIndex
    let location ← storage.txByHash.get transaction.hash absent
    pure ((some transaction, location), storage)
  | .onCache => do
    let blockHash ← storage.blockHashByHeight.get blockHeight absent
    txOfCachedBlock storage blockHash blockIndex
  | .onDB => do
    let blockHash ← storage.blockHashByHeight.get blockHeight absent
    txOfStoredBlock reader storage db blockHash blockIndex

/-- What a storage is asked for. -/
inductive Query where
  | getBlock (hash : Hash)
  | getBlockAt (height : UInt64)
  | getTx (tx : Hash)
  | getTxByBlockHashAndIndex (blockHash : Hash) (blockIndex : UInt64)
  | getTxByBlockNumberAndIndex (blockHeight blockIndex : UInt64)

/-- The storage that a query leaves. Whatever throws does so before it changes anything. -/
def left {α : Type} : Except Exception (α × Storage) → Storage
  | .ok (_, next) => next
  | .error _ => storage

def ask : Query → Storage
  | .getBlock hash => storage.left (getBlock reader storage db hash)
  | .getBlockAt height => storage.left (getBlockAt reader storage db height)
  | .getTx tx => storage.left (getTx reader storage db tx)
  | .getTxByBlockHashAndIndex blockHash blockIndex => storage.left (getTxByBlockHashAndIndex reader storage db blockHash blockIndex)
  | .getTxByBlockNumberAndIndex blockHeight blockIndex =>
    storage.left (getTxByBlockNumberAndIndex reader storage db blockHeight blockIndex)

inductive Turn where
  | edit (edit : Edit)
  | ask (query : Query)

def turn : Turn → Storage
  | .edit edit => storage.edit edit
  | .ask query => ask reader storage db query

end Queries

/-! From the database and back to it. -/

def latestKey : Bytes := DB.keyFromStr "latest"

def heightKey (height : UInt64) : Bytes := Utils.uintToBytes 8 height.toNat

def locationBytes (location : TxLocation) : Bytes :=
  location.blockHash.get ++ Utils.uintToBytes 4 location.blockIndex.toNat ++ Utils.uintToBytes 8 location.blockHeight.toNat

def blockEntries (block : Block) : List (Bytes × Bytes) :=
  (DBPrefix.blocks ++ block.hash.get, block.serializeBlock) ::
    (DBPrefix.blockHeightMaps ++ heightKey block.nHeight, block.hash.get) ::
    (txEntries block).map fun entry => (DBPrefix.txToBlocks ++ entry.1.get, locationBytes entry.2)

/-- The destructor. -/
def save (storage : Storage) (db : DB) : Except Exception DB := do
  let latest ← storage.latest
  pure ((db.putBatch (storage.chain.flatMap blockEntries)).put latestKey latest.serializeBlock DBPrefix.blocks)

variable (reader : BlockReader) (genesis : Block)

def writeGenesis (db : DB) : DB :=
  let db := db.put latestKey genesis.serializeBlock DBPrefix.blocks
  let db := db.put (heightKey genesis.nHeight) genesis.hash.get DBPrefix.blockHeightMaps
  db.put genesis.hash.get genesis.serializeBlock DBPrefix.blocks

def putGenesis (db : DB) : Except Exception DB :=
  if db.has latestKey DBPrefix.blocks then .ok db
  else if genesis.nHeight ≠ 0 then .error "Genesis block height is not 0"
  else .ok (writeGenesis genesis db)

/-- Blocks are equal when their hashes and signatures are. -/
def initializeBlockchain (db : DB) : Except Exception DB := do
  let db ← putGenesis genesis db
  let genesisInDBHash ← Hash.read (db.get (heightKey 0) DBPrefix.blockHeightMaps)
  let genesisInDB ← reader.block (db.get genesisInDBHash.get DBPrefix.blocks)
  if genesis.hash ≠ genesisInDB.hash ∨ genesis.validatorSig ≠ genesisInDB.validatorSig then
    throw "Sanity Check! Genesis block in DB does not match genesis block in Options"
  else pure db

def readMap (entry : Bytes × Bytes) : Except Exception (UInt64 × Hash) := do
  pure (← Utils.bytesToUint64 entry.1, ← Hash.read entry.2)

def insertMap (storage : Storage) (map : UInt64 × Hash) : Storage := { storage with
  blockHashByHeight := storage.blockHashByHeight.insert map.1 map.2
  blockHeightByHash := storage.blockHeightByHash.insert map.2 map.1 }

/-- The loop over the most recent blocks, with how many turns are left. -/
def appendRecent (db : DB) (depth : UInt64) : Nat → UInt64 → Storage → Except Exception Storage
  | 0, _, storage => .ok storage
  | turns + 1, i, storage => do
    let looked := storage.blockHashByHeight.getOrInsert (depth - i) 0
    let block ← reader.block (db.get looked.1.get DBPrefix.blocks)
    let storage ← pushFront { storage with blockHashByHeight := looked.2 } block
    appendRecent db depth turns (i + 1) storage

/-- The constructor, with the database as it leaves it. -/
def load (db : DB) : Except Exception (Storage × DB) := do
  let db ← initializeBlockchain reader genesis db
  let latest ← reader.block (db.get latestKey DBPrefix.blocks)
  let depth := latest.nHeight
  let maps ← (db.getBatch DBPrefix.blockHeightMaps).mapM readMap
  let storage : Storage := maps.foldl insertMap {}
  let storage ← appendRecent reader db depth (min 501 (depth.toNat + 1)) 0 storage
  pure (storage, db)

end Storage
end OrbiterSDK
