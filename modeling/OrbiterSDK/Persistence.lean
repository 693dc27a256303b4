import OrbiterSDK.Lib.PrefixStore
import OrbiterSDK.Reachable

/-! The database behind the state: what the destructors write, what the constructors read,
and the lives of a node that is stopped and started again. -/

namespace OrbiterSDK
open Lib

/-- A map of byte strings. -/
abbrev DB := PrefixStore UInt8 Bytes

namespace DBPrefix

def nativeAccounts : Bytes := [0x00, 0x03]

def evmHost : Bytes := [0x00, 0x09]

end DBPrefix

namespace DB

def keyFromStr (str : String) : Bytes := str.toUTF8.toList

def makeNewPrefix (pfx : Bytes) (newPrefix : String) : Bytes := pfx ++ keyFromStr newPrefix

def has (db : DB) (key pfx : Bytes) : Bool := (db.lookup (pfx ++ key)).isSome

/-- No bytes if there is no such key. -/
def get (db : DB) (key pfx : Bytes) : Bytes := (db.lookup (pfx ++ key)).getD []

def put (db : DB) (key value pfx : Bytes) : DB := db.insert (pfx ++ key) value

/-- The prefixes are in the keys already. -/
def putBatch (db : DB) (batch : List (Bytes × Bytes)) : DB := db.putAll batch

def getBatch (db : DB) (pfx : Bytes) : List (Bytes × Bytes) := db.scan pfx

/-- The overload with keys, of which none mean all. -/
def getBatchOf (db : DB) (pfx : Bytes) (keys : List Bytes) : List (Bytes × Bytes) :=
  if keys.isEmpty then db.getBatch pfx
  else (db.getBatch pfx).flatMap fun entry => (keys.filter (entry.1 = ·)).map fun _ => entry

/-- The keys between two, each of which gets the prefix. -/
def getKeys (db : DB) (pfx start last : Bytes) : List Bytes :=
  ((db.scan []).filter fun entry => pfx ++ start ≤ entry.1 ∧ entry.1 ≤ pfx ++ last).map fun entry => entry.1.drop pfx.length

def accountsCode : Bytes := makeNewPrefix DBPrefix.evmHost "accounts_code"

def accountsHashcode : Bytes := makeNewPrefix DBPrefix.evmHost "accounts_hashcode"

def accountsStorage : Bytes := makeNewPrefix DBPrefix.evmHost "accounts_storage"

def contractAddresses : Bytes := makeNewPrefix DBPrefix.evmHost "contract_addresses"

end DB

namespace Utils

def bytesToUint64 (bytes : Bytes) : Except Exception UInt64 :=
  if bytes.length ≠ 8 then .error ("bytesToUint64: Invalid bytes size - expected 8, got " ++ toString bytes.length)
  else .ok (UInt64.ofNat (bytesToUint bytes))

def bytesToUint256 (bytes : Bytes) : Except Exception Uint256 :=
  if bytes.length ≠ 32 then .error ("bytesToUint256: Invalid bytes size - expected 32, got " ++ toString bytes.length)
  else .ok (BitVec.ofNat 256 (bytesToUint bytes))

end Utils

/-- The constructors check the size. -/
def Address.read (bytes : Bytes) : Except Exception Address :=
  if bytes.length ≠ 20 then .error "Invalid address size" else .ok (Address.ofBytes bytes)

def Hash.read (bytes : Bytes) : Except Exception Hash :=
  if bytes.length ≠ 32 then .error "Invalid size." else .ok (Hash.ofBytes bytes)

/-! The host. -/

namespace EVMHost

def readCode (entry : Bytes × Bytes) : Except Exception (Address × Bytes) := do
  pure (← Address.read entry.1, entry.2)

def readHashcode (entry : Bytes × Bytes) : Except Exception (Address × Hash) := do
  pure (← Address.read entry.1, ← Hash.read entry.2)

def readContract (entry : Bytes × Bytes) : Except Exception (Hash × Address) := do
  pure (← Hash.read entry.1, ← Address.read entry.2)

def readSlot (entry : Bytes × Bytes) : Except Exception (Address × Hash × Hash) := do
  pure (← Address.read (entry.1.take 20), ← Hash.read (entry.1.drop 20), ← Hash.read entry.2)

/-- The entries that the constructor reads, if the chain has the height at which they were saved. -/
def readDb (db : DB) (nHeight : UInt64) : Except Exception State.Database :=
  if db.has (DB.keyFromStr "latest") DBPrefix.evmHost then do
    let latestSaved ← Utils.bytesToUint64 (db.get (DB.keyFromStr "latest") DBPrefix.evmHost)
    if nHeight ≠ latestSaved then throw "EVMHost: Chain height mismatch, DB is corrupted"
    else do
      let accountsCode ← (db.getBatch DB.accountsCode).mapM readCode
      let accountsHashcode ← (db.getBatch DB.accountsHashcode).mapM readHashcode
      let contractAddresses ← (db.getBatch DB.contractAddresses).mapM readContract
      let accountsStorage ← (db.getBatch DB.accountsStorage).mapM readSlot
      pure { accountsCode, accountsHashcode, contractAddresses, accountsStorage }
  else pure {}

/-- The orders in which the maps are walked. -/
structure Walk (host : EVMHost) where
  addresses : List Address
  slots : Address → List Hash
  txHashes : List Hash
  mem_addresses : ∀ addr, addr ∈ addresses ↔ addr ∈ host.accounts.keys
  mem_slots : ∀ addr key, key ∈ slots addr ↔ key ∈ (host.account addr).storage.keys
  mem_txHashes : ∀ txHash, txHash ∈ txHashes ↔ txHash ∈ host.contractAddresses.keys

variable {host : EVMHost}

def accountEntries (walk : host.Walk) (address : Address) : List (Bytes × Bytes) :=
  let account := host.account address
  (DB.accountsCode ++ address.get, account.code.first) :: (DB.accountsHashcode ++ address.get, account.codeHash.first.get) ::
    (walk.slots address).map fun key =>
      (DB.accountsStorage ++ (address.get ++ key.get), (account.storage.value key).second.get)

def contractEntries (walk : host.Walk) : List (Bytes × Bytes) :=
  walk.txHashes.map fun txHash => (DB.contractAddresses ++ txHash.get, (host.contractAddresses.value txHash).get)

/-- The destructor. -/
def save (walk : host.Walk) (db : DB) (nHeight : UInt64) : DB :=
  let db := db.put (DB.keyFromStr "latest") (Utils.uintToBytes 8 nHeight.toNat) DBPrefix.evmHost
  db.putBatch (walk.addresses.flatMap (accountEntries walk) ++ contractEntries walk)

end EVMHost

/-! The state. -/

namespace State
variable {World : Type}

def nativeEntry (account : Address) (balance : Uint256) (nonce : UInt64) : Bytes × Bytes :=
  (DBPrefix.nativeAccounts ++ account.get, Utils.uintToBytes 32 balance.toNat ++ Utils.uintToBytes 8 nonce.toNat)

def readNative (entry : Bytes × Bytes) : Except Exception (Address × Uint256 × UInt64) := do
  let balance ← Utils.bytesToUint256 (entry.2.take 32)
  let nonce ← Utils.bytesToUint64 (entry.2.drop 32)
  pure (← Address.read entry.1, balance, nonce)

/-- The balances of the options, in a database without accounts. -/
def putGenesis (db : DB) (genesisBalances : List (Address × Uint256)) : DB :=
  genesisBalances.foldl (fun db (account, balance) =>
    let entry := nativeEntry account balance 0
    db.insert entry.1 entry.2) db

/-- The constructor. The other components and the chain are given. -/
def load (db : DB) (genesisBalances : List (Address × Uint256)) (world : World) (events : List Event) (rdposSeed : Hash)
    (storage : Chain) : Except Exception (State World × DB) := do
  let host ← EVMHost.readDb db storage.latest.nHeight
  let db := if (db.getBatch DBPrefix.nativeAccounts).isEmpty then putGenesis db genesisBalances else db
  let nativeAccounts ← (db.getBatch DBPrefix.nativeAccounts).mapM readNative
  pure (construct { host with nativeAccounts } world events rdposSeed storage, db)

/-- The destructors, of the state first and then of its host. -/
def save (state : State World) (walk : state.evmHost.Walk) (db : DB) : DB :=
  let db := db.putBatch (walk.addresses.map fun address =>
    let account := state.evmHost.account address
    nativeEntry address account.balance.second account.nonce.second)
  EVMHost.save walk db state.latest.nHeight

/-- Lives of a node: it is started with a database that has no entries of the state, its methods
are called, other components write under their own prefixes, and it is stopped and started again. -/
inductive Lived (env : Env World) (genesisBalances : List (Address × Uint256)) : State World → DB → Prop where
  | start {db : DB} {opened : State World × DB} (world : World) (events : List Event) (rdposSeed : Hash) (storage : Chain)
      (fresh : ∀ key, db.lookup (DBPrefix.nativeAccounts ++ key) = none ∧ db.lookup (DBPrefix.evmHost ++ key) = none)
      (loaded : load db genesisBalances world events rdposSeed storage = .ok opened) :
      Lived env genesisBalances opened.1 opened.2
  | step {before after : State World} {db : DB} {result : Except Stop Unit} (operation : Operation)
      (lived : Lived env genesisBalances before db) (performed : (perform env operation).eval before = (result, after))
      (ended : result ≠ .error .deadlock) : Lived env genesisBalances after db
  | elsewhere {state : State World} {db db' : DB} (lived : Lived env genesisBalances state db)
      (same : ∀ key, db'.lookup (DBPrefix.nativeAccounts ++ key) = db.lookup (DBPrefix.nativeAccounts ++ key) ∧
        db'.lookup (DBPrefix.evmHost ++ key) = db.lookup (DBPrefix.evmHost ++ key)) : Lived env genesisBalances state db'
  | restart {state : State World} {db : DB} {opened : State World × DB} (lived : Lived env genesisBalances state db)
      (walk : state.evmHost.Walk) (world : World) (events : List Event) (rdposSeed : Hash)
      (loaded : load (state.save walk db) genesisBalances world events rdposSeed state.storage = .ok opened) :
      Lived env genesisBalances opened.1 opened.2

end State
end OrbiterSDK
