import OrbiterSDK.Codecs
import OrbiterSDK.Lib.Areas
import OrbiterSDK.Persistence
import OrbiterSDK.Templates.DEXV2World
import OrbiterSDK.Templates.ERC20Wrapper
import OrbiterSDK.Templates.ERC721Mint

/-! What the destructors of the contracts write to the database, and what the constructors for contracts that exist
read from it. -/

namespace OrbiterSDK
open Lib

namespace DBPrefix

def contracts : Bytes := [0x00, 0x06]

end DBPrefix

namespace Utils

/-- Names are texts, so bytes that are none are not written. -/
def bytesToString (bytes : Bytes) : String := (String.fromUTF8? ⟨bytes.toArray⟩).getD ""

def bytesToUint8 (bytes : Bytes) : Except Exception UInt8 :=
  if bytes.length ≠ 1 then .error ("bytesToUint8: Invalid bytes size - expected 1, got " ++ toString bytes.length)
  else .ok (UInt8.ofNat (bytesToUint bytes))

def bytesToUint32 (bytes : Bytes) : Except Exception UInt32 :=
  if bytes.length ≠ 4 then .error ("bytesToUint32: Invalid bytes size - expected 4, got " ++ toString bytes.length)
  else .ok (UInt32.ofNat (bytesToUint bytes))

def bytesToUint112 (bytes : Bytes) : Except Exception Uint112 :=
  if bytes.length ≠ 14 then .error ("bytesToUint112: Invalid bytes size - expected 16, got " ++ toString bytes.length)
  else .ok (BitVec.ofNat 112 (bytesToUint bytes))

def uint256ToBytes (value : Uint256) : Bytes := uintToBytes 32 value.toNat

end Utils

open Utils DB

/-- What every contract stores when it is made. -/
structure BaseContract where
  contractName : String
  contractCreator : Address
  contractChainId : UInt64

namespace BaseContract

def dbPrefix (address : Address) : Bytes := DBPrefix.contracts ++ address.get

def getNewPrefix (address : Address) (newPrefix : String) : Bytes := makeNewPrefix (dbPrefix address) newPrefix

/-- The constructor of a new contract. -/
def create (base : BaseContract) (address : Address) (db : DB) : DB :=
  let pfx := dbPrefix address
  let db := db.put (keyFromStr "contractName_") (keyFromStr base.contractName) pfx
  let db := db.put (keyFromStr "contractAddress_") address.get pfx
  let db := db.put (keyFromStr "contractCreator_") base.contractCreator.get pfx
  db.put (keyFromStr "contractChainId_") (uintToBytes 8 base.contractChainId.toNat) pfx

def load (db : DB) (address : Address) : Except Exception BaseContract := do
  let pfx := dbPrefix address
  let contractName := bytesToString (db.get (keyFromStr "contractName_") pfx)
  let contractCreator ← Address.read (db.get (keyFromStr "contractCreator_") pfx)
  let contractChainId ← Utils.bytesToUint64 (db.get (keyFromStr "contractChainId_") pfx)
  pure { contractName, contractCreator, contractChainId }

end BaseContract

open BaseContract

/-- Entries of a batch under a new prefix. -/
def batchUnder {α : Type} (address : Address) (newPrefix : String) (entry : α → Bytes × Bytes) (items : List α) : List (Bytes × Bytes) :=
  items.map fun item => (getNewPrefix address newPrefix ++ (entry item).1, (entry item).2)

/-- A number as the value of an address. -/
def balanceEntry (item : Address × Uint256) : Bytes × Bytes := (item.1.get, unpadded item.2.toNat)

def readBalance (entry : Bytes × Bytes) : Except Exception (Address × Uint256) := do
  pure (← Address.read entry.1, ← fromBigEndian256 entry.2)

namespace ERC20

/-- The orders in which the maps are walked. -/
structure Walk (token : ERC20) where
  balances : List (Address × Uint256)
  allowed : List (Address × Address × Uint256)
  mem_balances : ∀ item, item ∈ balances ↔ item ∈ token.balances.items
  mem_allowed : ∀ item, item ∈ allowed ↔ item ∈ token.allowed.nestedItems

def allowanceEntry (item : Address × Address × Uint256) : Bytes × Bytes := (item.1.get ++ item.2.1.get, uint256ToBytes item.2.2)

def readAllowance (entry : Bytes × Bytes) : Except Exception (Address × Address × Uint256) := do
  pure (← Address.read (entry.1.take 20), ← Address.read (entry.1.drop 20), ← Utils.bytesToUint256 entry.2)

def save (token : ERC20) (walk : token.Walk) (address : Address) (db : DB) : DB :=
  let pfx := dbPrefix address
  let db := db.put (keyFromStr "name_") (keyFromStr token.name) pfx
  let db := db.put (keyFromStr "symbol_") (keyFromStr token.symbol) pfx
  let db := db.put (keyFromStr "decimals_") (uintToBytes 1 token.decimals.toNat) pfx
  let db := db.put (keyFromStr "totalSupply_") (uint256ToBytes token.totalSupply) pfx
  db.putBatch (batchUnder address "balances_" balanceEntry walk.balances ++ batchUnder address "allowed_" allowanceEntry walk.allowed)

def load (db : DB) (address : Address) : Except Exception ERC20 := do
  let pfx := dbPrefix address
  let name := bytesToString (db.get (keyFromStr "name_") pfx)
  let symbol := bytesToString (db.get (keyFromStr "symbol_") pfx)
  let decimals ← bytesToUint8 (db.get (keyFromStr "decimals_") pfx)
  let totalSupply ← Utils.bytesToUint256 (db.get (keyFromStr "totalSupply_") pfx)
  let balances ← (db.getBatch (getNewPrefix address "balances_")).mapM readBalance
  let allowed ← (db.getBatch (getNewPrefix address "allowed_")).mapM readAllowance
  pure { name, symbol, decimals, totalSupply, balances := .fill balances, allowed := .fillNested allowed }

end ERC20

namespace ERC20Wrapper

structure Walk (wrapper : ERC20Wrapper) where
  tokensAndBalances : List (Address × Address × Uint256)
  mem_tokensAndBalances : ∀ item, item ∈ tokensAndBalances ↔ item ∈ wrapper.tokensAndBalances.nestedItems

/-- The user is in the value. -/
def userEntry (item : Address × Address × Uint256) : Bytes × Bytes := (item.1.get, item.2.1.get ++ unpadded item.2.2.toNat)

def readUser (entry : Bytes × Bytes) : Except Exception (Address × Address × Uint256) := do
  pure (← Address.read entry.1, ← Address.read (entry.2.take 20), ← fromBigEndian256 (entry.2.drop 20))

def save (wrapper : ERC20Wrapper) (walk : wrapper.Walk) (address : Address) (db : DB) : DB :=
  db.putBatch (batchUnder address "tokensAndBalances_" userEntry walk.tokensAndBalances)

def load (db : DB) (address : Address) : Except Exception ERC20Wrapper := do
  let tokensAndBalances ← (db.getBatch (getNewPrefix address "tokensAndBalances_")).mapM readUser
  pure { tokensAndBalances := .fillNested tokensAndBalances }

end ERC20Wrapper

namespace ERC721

structure Walk (token : ERC721) where
  owners : List (Uint256 × Address)
  balances : List (Address × Uint256)
  tokenApprovals : List (Uint256 × Address)
  operatorAddressApprovals : List (Address × Address × Bool)
  mem_owners : ∀ item, item ∈ owners ↔ item ∈ token.owners.items
  mem_balances : ∀ item, item ∈ balances ↔ item ∈ token.balances.items
  mem_tokenApprovals : ∀ item, item ∈ tokenApprovals ↔ item ∈ token.tokenApprovals.items
  mem_operatorAddressApprovals : ∀ item, item ∈ operatorAddressApprovals ↔ item ∈ token.operatorAddressApprovals.nestedItems

def ownerEntry (item : Uint256 × Address) : Bytes × Bytes := (unpadded item.1.toNat, item.2.get)

def readOwner (entry : Bytes × Bytes) : Except Exception (Uint256 × Address) := do
  pure (← fromBigEndian256 entry.1, ← Address.read (entry.2.take 20))

def readApproval (entry : Bytes × Bytes) : Except Exception (Uint256 × Address) := do
  pure (← fromBigEndian256 entry.1, ← Address.read entry.2)

def operatorEntry (item : Address × Address × Bool) : Bytes × Bytes := (item.1.get ++ item.2.1.get, [if item.2.2 then 1 else 0])

def readOperator (entry : Bytes × Bytes) : Except Exception (Address × Address × Bool) := do
  pure (← Address.read (entry.1.take 20), ← Address.read (entry.1.drop 20), entry.2.headD 0 != 0)

def save (token : ERC721) (walk : token.Walk) (address : Address) (db : DB) : DB :=
  let pfx := dbPrefix address
  let db := db.put (keyFromStr "name_") (keyFromStr token.name) pfx
  let db := db.put (keyFromStr "symbol_") (keyFromStr token.symbol) pfx
  db.putBatch (batchUnder address "owners_" ownerEntry walk.owners ++ batchUnder address "balances_" balanceEntry walk.balances ++
    batchUnder address "tokenApprovals_" ownerEntry walk.tokenApprovals ++
    batchUnder address "operatorAddressApprovals_" operatorEntry walk.operatorAddressApprovals)

def load (db : DB) (address : Address) : Except Exception ERC721 := do
  let pfx := dbPrefix address
  let name := bytesToString (db.get (keyFromStr "name_") pfx)
  let symbol := bytesToString (db.get (keyFromStr "symbol_") pfx)
  let owners ← (db.getBatch (getNewPrefix address "owners_")).mapM readOwner
  let balances ← (db.getBatch (getNewPrefix address "balances_")).mapM readBalance
  let tokenApprovals ← (db.getBatch (getNewPrefix address "tokenApprovals_")).mapM readApproval
  let operatorAddressApprovals ← (db.getBatch (getNewPrefix address "operatorAddressApprovals_")).mapM readOperator
  pure { name, symbol, owners := .fill owners, balances := .fill balances, tokenApprovals := .fill tokenApprovals,
         operatorAddressApprovals := .fillNested operatorAddressApprovals }

end ERC721

namespace ERC721Mint

structure Walk (token : ERC721Mint) extends ERC721.Walk token.toERC721 where
  preBurnedTokens : List (Uint256 × BurnedToken)
  burnedTokens : List (Uint256 × BurnedToken)
  tokenIdRarity : List (Uint256 × Uint256)
  tokenURI : List (Uint256 × String)
  ownedTokens : List (Address × Uint256 × Uint256)
  ownedTokensIndex : List (Address × Uint256 × Uint256)
  preburnedTokensByOwner : List (Address × List Uint256)
  mem_preBurnedTokens : ∀ item, item ∈ preBurnedTokens ↔ item ∈ token.preBurnedTokens.items
  mem_burnedTokens : ∀ item, item ∈ burnedTokens ↔ item ∈ token.burnedTokens.items
  mem_tokenIdRarity : ∀ item, item ∈ tokenIdRarity ↔ item ∈ token.tokenIdRarity.items
  mem_tokenURI : ∀ item, item ∈ tokenURI ↔ item ∈ token.tokenURI.items
  mem_ownedTokens : ∀ item, item ∈ ownedTokens ↔ item ∈ token.ownedTokens.nestedItems
  mem_ownedTokensIndex : ∀ item, item ∈ ownedTokensIndex ↔ item ∈ token.ownedTokensIndex.nestedItems
  mem_preburnedTokensByOwner : ∀ item, item ∈ preburnedTokensByOwner ↔ item ∈ token.preburnedTokensByOwner.items

/-- That there is an entry is not written. -/
def burnedEntry (item : Uint256 × BurnedToken) : Bytes × Bytes :=
  (uint256ToBytes item.1, item.2.user.get ++ [item.2.v] ++ item.2.r.get ++ item.2.s.get ++ uint256ToBytes item.2.rarity)

/-- Every entry that is read exists. -/
def readBurned (entry : Bytes × Bytes) : Except Exception (Uint256 × BurnedToken) := do
  let user ← Address.read (entry.2.take 20)
  let v := entry.2.getD 20 0
  let r ← fromBigEndian256 ((entry.2.drop 21).take 32)
  let s ← fromBigEndian256 ((entry.2.drop 53).take 32)
  let rarity ← fromBigEndian256 ((entry.2.drop 85).take 32)
  let tokenId ← fromBigEndian256 entry.1
  pure (tokenId, { exists_ := true, user, v, r, s, rarity })

def rarityEntry (item : Uint256 × Uint256) : Bytes × Bytes := (uint256ToBytes item.1, uint256ToBytes item.2)

def readRarity (entry : Bytes × Bytes) : Except Exception (Uint256 × Uint256) := do
  pure (← fromBigEndian256 entry.1, ← fromBigEndian256 entry.2)

def uriEntry (item : Uint256 × String) : Bytes × Bytes := (uint256ToBytes item.1, keyFromStr item.2)

def readURI (entry : Bytes × Bytes) : Except Exception (Uint256 × String) := do
  pure (← fromBigEndian256 entry.1, bytesToString entry.2)

/-- For both maps of owners, by index and by token. -/
def ownedEntry (item : Address × Uint256 × Uint256) : Bytes × Bytes :=
  (item.1.get ++ uint256ToBytes item.2.1, uint256ToBytes item.2.2)

def readOwned (entry : Bytes × Bytes) : Except Exception (Address × Uint256 × Uint256) := do
  pure (← Address.read (entry.1.take 20), ← fromBigEndian256 ((entry.1.drop 20).take 32), ← fromBigEndian256 entry.2)

def listEntry (item : Address × List Uint256) : Bytes × Bytes := (item.1.get, item.2.flatMap uint256ToBytes)

/-- Word by word. -/
def readList (entry : Bytes × Bytes) : Except Exception (Address × List Uint256) := do
  let tokens ← (List.range ((entry.2.length + 31) / 32)).mapM fun i => fromBigEndian256 ((entry.2.drop (32 * i)).take 32)
  pure (← Address.read entry.1, tokens)

def save (token : ERC721Mint) (walk : token.Walk) (address : Address) (db : DB) : DB :=
  let pfx := dbPrefix address
  let db := db.put (keyFromStr "tokenIdCounter_") (uint256ToBytes token.tokenIdCounter) pfx
  let db := db.put (keyFromStr "totalSupply_") (uint256ToBytes token.totalSupply) pfx
  let db := db.put (keyFromStr "maxSupply_") (uint256ToBytes token.maxSupply) pfx
  let db := db.put (keyFromStr "signer_") token.signer.get pfx
  let db := db.put (keyFromStr "_tokenBaseURI") (keyFromStr token.tokenBaseURI) pfx
  let db := db.putBatch (batchUnder address "preBurnedTokens_" burnedEntry walk.preBurnedTokens ++
    batchUnder address "burnedTokens_" burnedEntry walk.burnedTokens ++ batchUnder address "tokenIdRarity_" rarityEntry walk.tokenIdRarity ++
    batchUnder address "tokenURI_" uriEntry walk.tokenURI ++ batchUnder address "_ownedTokens_" ownedEntry walk.ownedTokens ++
    batchUnder address "_ownedTokensIndex_" ownedEntry walk.ownedTokensIndex ++
    batchUnder address "preburnedTokensByOwner_" listEntry walk.preburnedTokensByOwner)
  token.toERC721.save walk.toWalk address db

def load (db : DB) (address : Address) : Except Exception ERC721Mint := do
  let pfx := dbPrefix address
  let base ← ERC721.load db address
  let tokenIdCounter ← Utils.bytesToUint256 (db.get (keyFromStr "tokenIdCounter_") pfx)
  let totalSupply ← Utils.bytesToUint256 (db.get (keyFromStr "totalSupply_") pfx)
  let maxSupply ← Utils.bytesToUint256 (db.get (keyFromStr "maxSupply_") pfx)
  let signer ← Address.read (db.get (keyFromStr "signer_") pfx)
  let tokenBaseURI := bytesToString (db.get (keyFromStr "_tokenBaseURI") pfx)
  let preBurnedTokens ← (db.getBatch (getNewPrefix address "preBurnedTokens_")).mapM readBurned
  let burnedTokens ← (db.getBatch (getNewPrefix address "burnedTokens_")).mapM readBurned
  let tokenIdRarity ← (db.getBatch (getNewPrefix address "tokenIdRarity_")).mapM readRarity
  let tokenURI ← (db.getBatch (getNewPrefix address "tokenURI_")).mapM readURI
  let ownedTokens ← (db.getBatch (getNewPrefix address "_ownedTokens_")).mapM readOwned
  let ownedTokensIndex ← (db.getBatch (getNewPrefix address "_ownedTokensIndex_")).mapM readOwned
  let preburnedTokensByOwner ← (db.getBatch (getNewPrefix address "preburnedTokensByOwner_")).mapM readList
  pure { base with
    tokenIdCounter, totalSupply, maxSupply, signer, tokenBaseURI
    preBurnedTokens := .fill preBurnedTokens
    burnedTokens := .fill burnedTokens
    tokenIdRarity := .fill tokenIdRarity
    tokenURI := .fill tokenURI
    ownedTokens := .fillNested ownedTokens
    ownedTokensIndex := .fillNested ownedTokensIndex
    preburnedTokensByOwner := .fill preburnedTokensByOwner }

end ERC721Mint

namespace DEXV2Factory

structure Walk (factory : DEXV2Factory) where
  getPairs : List (Address × Address × Address)
  mem_getPairs : ∀ item, item ∈ getPairs ↔ item ∈ factory.getPairs.nestedItems

/-- The index is never counted up. -/
def listedEntry (pair : Address) : Bytes × Bytes := (uintToBytes 4 0, pair.get)

def readListed (entry : Bytes × Bytes) : Except Exception Address := Address.read entry.2

/-- The second token is in the value. -/
def pairEntry (item : Address × Address × Address) : Bytes × Bytes := (item.1.get, item.2.1.get ++ item.2.2.get)

def readPair (entry : Bytes × Bytes) : Except Exception (Address × Address × Address) := do
  pure (← Address.read entry.1, ← Address.read (entry.2.take 20), ← Address.read (entry.2.drop 20))

def save (factory : DEXV2Factory) (walk : factory.Walk) (address : Address) (db : DB) : DB :=
  let pfx := dbPrefix address
  db.putBatch ([(pfx ++ keyFromStr "feeTo_", factory.feeTo.get), (pfx ++ keyFromStr "feeToSetter_", factory.feeToSetter.get)] ++
    batchUnder address "allPairs_" listedEntry factory.allPairs ++ batchUnder address "getPair_" pairEntry walk.getPairs)

def load (db : DB) (address : Address) : Except Exception DEXV2Factory := do
  let pfx := dbPrefix address
  let feeTo ← Address.read (db.get (keyFromStr "feeTo_") pfx)
  let feeToSetter ← Address.read (db.get (keyFromStr "feeToSetter_") pfx)
  let allPairs ← (db.getBatch (getNewPrefix address "allPairs_")).mapM readListed
  let getPairs ← (db.getBatch (getNewPrefix address "getPair_")).mapM readPair
  pure { feeTo, feeToSetter, allPairs, getPairs := .fillNested getPairs }

end DEXV2Factory

namespace DEXV2Pair

/-- The reserves are written into arrays that are not initialised. -/
def save (pair : DEXV2Pair) (walk : pair.toERC20.Walk) (array0 array1 : Bytes) (address : Address) (db : DB) : DB :=
  let pfx := dbPrefix address
  let db := db.putBatch [(pfx ++ keyFromStr "factory_", pair.factory.get), (pfx ++ keyFromStr "token0_", pair.token0.get),
    (pfx ++ keyFromStr "token1_", pair.token1.get), (pfx ++ keyFromStr "reserve0_", Codecs.uint112ToBytes array0 pair.reserve0),
    (pfx ++ keyFromStr "reserve1_", Codecs.uint112ToBytes array1 pair.reserve1),
    (pfx ++ keyFromStr "blockTimestampLast_", uintToBytes 4 pair.blockTimestampLast.toNat),
    (pfx ++ keyFromStr "price0CumulativeLast_", uint256ToBytes pair.price0CumulativeLast),
    (pfx ++ keyFromStr "price1CumulativeLast_", uint256ToBytes pair.price1CumulativeLast),
    (pfx ++ keyFromStr "kLast_", uint256ToBytes pair.kLast)]
  pair.toERC20.save walk address db

def load (db : DB) (address : Address) : Except Exception DEXV2Pair := do
  let pfx := dbPrefix address
  let token ← ERC20.load db address
  let factory ← Address.read (db.get (keyFromStr "factory_") pfx)
  let token0 ← Address.read (db.get (keyFromStr "token0_") pfx)
  let token1 ← Address.read (db.get (keyFromStr "token1_") pfx)
  let reserve0 ← bytesToUint112 (db.get (keyFromStr "reserve0_") pfx)
  let reserve1 ← bytesToUint112 (db.get (keyFromStr "reserve1_") pfx)
  let blockTimestampLast ← bytesToUint32 (db.get (keyFromStr "blockTimestampLast_") pfx)
  let price0CumulativeLast ← Utils.bytesToUint256 (db.get (keyFromStr "price0CumulativeLast_") pfx)
  let price1CumulativeLast ← Utils.bytesToUint256 (db.get (keyFromStr "price1CumulativeLast_") pfx)
  let kLast ← Utils.bytesToUint256 (db.get (keyFromStr "kLast_") pfx)
  pure { token with
    factory, token0, token1, reserve0, reserve1, blockTimestampLast, price0CumulativeLast, price1CumulativeLast, kLast }

end DEXV2Pair

/-! Lives. -/

/-- A class of contracts: what a new one is, what a call makes of it, and how it is saved, for some order of its maps,
and loaded. -/
structure Template (τ : Type) where
  New : τ → Prop
  Called : τ → τ → Prop
  Saved : Address → τ → DB → DB → Prop
  load : DB → Address → Except Exception τ

/-- What other components write is under other prefixes. -/
def SameUnder (address : Address) (db db' : DB) : Prop :=
  ∀ key, db'.lookup (dbPrefix address ++ key) = db.lookup (dbPrefix address ++ key)

namespace Template
variable {τ : Type} (template : Template τ) (fine : Address → τ → DB → Prop) (address : Address) (base : BaseContract)

/-- Lives of a contract at an address where nothing was stored before. Each time it is saved, the state and the
database are fine. -/
inductive Lived : τ → DB → Prop where
  | start {contract : τ} {db : DB} (fresh : ∀ key, db.lookup (dbPrefix address ++ key) = none) (new : template.New contract) :
      Lived contract (base.create address db)
  | call {before after : τ} {db : DB} (lived : Lived before db) (called : template.Called before after) : Lived after db
  | elsewhere {contract : τ} {db db' : DB} (lived : Lived contract db) (same : SameUnder address db db') : Lived contract db'
  | restart {before after : τ} {db saved db' : DB} (lived : Lived before db) (fit : fine address before db)
      (stopped : template.Saved address before db saved) (same : SameUnder address saved db')
      (loaded : template.load db' address = .ok after) : Lived after db'

/-- Every way to save the contract leaves a database from which it is loaded as it was. -/
def Survives (contract : τ) (db : DB) : Prop :=
  ∀ {saved db'}, template.Saved address contract db saved → SameUnder address saved db' →
    BaseContract.load db' address = .ok base ∧ template.load db' address = .ok contract

end Template
end OrbiterSDK
