import OrbiterSDK.Persistence
import OrbiterSDK.BlockBytes
import OrbiterSDK.Lib.OrderedSet

/-! The consensus: the order in which validators take part, the mempool of their transactions,
and what a block has to look like. -/

namespace OrbiterSDK
open Lib

instance : LinearOrder Address := LinearOrder.lift' BitVec.toNat fun _ _ => BitVec.eq_of_toNat_eq

/-- The data must have four bytes. -/
def TxValidator.getFunctor (tx : TxValidator) : Except Exception Functor :=
  if 4 ≤ tx.data.length then .ok (Functor.ofBytes (tx.data.take 4)) else .error Tx.pastEnd

namespace RandomGen
variable {α : Type}

/-- `std::swap(v[n], v[i])`. -/
def swap (v : List α) (n i : Nat) : Except Exception (List α) :=
  match v[n]?, v[i]? with
  | some left, some right => .ok ((v.set n right).set i left)
  | _, _ => .error Tx.pastEnd

/-- The loop of `shuffle`, with how many of its turns are left. -/
def shuffleFrom (sha3 : Bytes → Hash) : Nat → Nat → Hash → List α → Except Exception (Hash × List α)
  | 0, _, seed, v => .ok (seed, v)
  | turns + 1, i, seed, v => do
    let seed := sha3 seed.get
    let n := i + seed.toNat % (v.length - i)
    let v ← swap v n i
    shuffleFrom sha3 turns (i + 1) seed v

/-- The seed of the generator changes as well. -/
def shuffle (sha3 : Bytes → Hash) (seed : Hash) (v : List α) : Except Exception (Hash × List α) := shuffleFrom sha3 v.length 0 seed v

end RandomGen

namespace DBPrefix

def rdPoS : Bytes := [0x00, 0x05]

end DBPrefix

structure RdPoS where
  minValidators : UInt32
  validators : OrderedSet Address
  randomList : List Address
  validatorMempool : List (Hash × TxValidator) := []
  randomGen : Hash
  bestRandomSeed : Hash

namespace RdPoS

inductive TxValidatorFunction where
  | invalid | randomHash | randomSeed
  deriving DecidableEq

def randomHashHash : Functor := 0xcfffe746

def randomSeedHash : Functor := 0x6fc5a2d6

def getTxValidatorFunction (tx : TxValidator) : TxValidatorFunction :=
  if tx.data.length ≠ 36 then .invalid
  else
    let functionABI := Functor.ofBytes (tx.data.take 4)
    if functionABI = randomHashHash then .randomHash
    else if functionABI = randomSeedHash then .randomSeed
    else .invalid

variable (sha3 : Bytes → Hash)

def parseTxSeedList (txs : List TxValidator) : Hash :=
  if txs.isEmpty then 0
  else sha3 ((txs.filter fun tx => getTxValidatorFunction tx = .randomSeed).flatMap fun tx => tx.data.drop 4)

/-! The lives of a node. -/

/-- Each validator under its index. -/
def indexed (validators : List Address) : List (Bytes × Bytes) :=
  validators.zipIdx.map fun entry => (DBPrefix.rdPoS ++ Utils.uintToBytes 8 entry.2, entry.1.get)

def initializeBlockchain (db : DB) (genesisValidators : List Address) : DB :=
  if (db.getBatch DBPrefix.rdPoS).isEmpty then db.putBatch (indexed genesisValidators) else db

/-- The constructor, with the database as it leaves it. -/
def load (db : DB) (genesisValidators : List Address) (minValidators : UInt32) (latest : Block) : Except Exception (RdPoS × DB) := do
  let db := initializeBlockchain db genesisValidators
  let validatorsDb := db.getBatch DBPrefix.rdPoS
  if validatorsDb.isEmpty then throw "No rdPoS in DB."
  else do
    let addresses ← validatorsDb.mapM fun entry => Address.read entry.2
    let validators := OrderedSet.ofList addresses
    let bestRandomSeed := latest.blockRandomness
    let shuffled ← RandomGen.shuffle sha3 bestRandomSeed validators.elements
    pure ({ minValidators, validators, randomList := shuffled.2, randomGen := shuffled.1, bestRandomSeed }, db)

/-- The destructor. -/
def save (rdpos : RdPoS) (db : DB) : DB := db.putBatch (indexed rdpos.validators.elements)

def clearMempool (rdpos : RdPoS) : RdPoS := { rdpos with validatorMempool := [] }

def processBlock (rdpos : RdPoS) (block : Block) : Except Exception RdPoS :=
  if !block.finalized then .error "Block is not finalized."
  else do
    let rdpos := { rdpos with validatorMempool := [], randomList := rdpos.validators.elements, bestRandomSeed := block.blockRandomness }
    let shuffled ← RandomGen.shuffle sha3 rdpos.bestRandomSeed rdpos.randomList
    pure { rdpos with randomGen := shuffled.1, randomList := shuffled.2 }

/-! Validation of a block. -/

/-- An order in which a map is walked. -/
structure Walk where
  walk : {α : Type} → List α → List α
  perm : ∀ {α : Type} (entries : List α), (walk entries).Perm entries

/-- `emplace`, which keeps an entry with the same key. Transactions are equal when their hashes are. -/
def emplaceTx (txHashToSeedMap : List (TxValidator × TxValidator)) (hashTx seedTx : TxValidator) : List (TxValidator × TxValidator) :=
  if txHashToSeedMap.any fun entry => entry.1.hash = hashTx.hash then txHashToSeedMap else txHashToSeedMap ++ [(hashTx, seedTx)]

def txAt (block : Block) (i : Nat) : Except Exception TxValidator :=
  match block.txValidators[i]? with
  | some tx => .ok tx
  | none => .error Tx.pastEnd

def randomAt (rdpos : RdPoS) (i : Nat) : Except Exception Address :=
  match rdpos.randomList[i]? with
  | some validator => .ok validator
  | none => .error Tx.pastEnd

/-- The loop over the first half of the transactions, with how many turns are left. There is no map
if a transaction is not where it should be. -/
def orderedPairs (rdpos : RdPoS) (block : Block) : Nat → Nat → List (TxValidator × TxValidator) →
    Except Exception (Option (List (TxValidator × TxValidator)))
  | 0, _, txHashToSeedMap => .ok (some txHashToSeedMap)
  | turns + 1, i, txHashToSeedMap => do
    let hashTx ← txAt block i
    let validator ← rdpos.randomAt (i + 1)
    if hashTx.from ≠ validator then pure none
    else do
      let seedTx ← txAt block (i + rdpos.minValidators.toNat)
      if seedTx.from ≠ validator then pure none
      else orderedPairs rdpos block turns (i + 1) (emplaceTx txHashToSeedMap hashTx seedTx)

/-- The checks of one entry of the map. -/
def checkPair (hashTx seedTx : TxValidator) : Bool :=
  let hashTxFunction := getTxValidatorFunction hashTx
  let seedTxFunction := getTxValidatorFunction seedTx
  if hashTxFunction = .invalid then false
  else if seedTxFunction = .invalid then false
  else if hashTx.from ≠ seedTx.from then false
  else if hashTxFunction ≠ .randomHash then false
  else if seedTxFunction ≠ .randomSeed then false
  else
    let hash := hashTx.data.drop 4
    let random := seedTx.data.drop 4
    if hash.length ≠ 32 then false
    else if random.length ≠ 32 then false
    else if (sha3 random).get ≠ hash then false
    else true

def validateBlock (order : Walk) (rdpos : RdPoS) (block : Block) : Except Exception Bool :=
  if !block.finalized then .ok false
  else do
    let first ← rdpos.randomAt 0
    if block.validator ≠ first then pure false
    else if block.txValidators.length ≠ (rdpos.minValidators * 2).toNat then pure false
    else if block.txValidators.any fun tx => tx.nHeight ≠ block.nHeight then pure false
    else do
      let pairs ← orderedPairs rdpos block rdpos.minValidators.toNat 0 []
      match pairs with
      | none => pure false
      | some txHashToSeedMap =>
        if txHashToSeedMap.length ≠ rdpos.minValidators.toNat then pure false
        else pure ((order.walk txHashToSeedMap).all fun entry => checkPair sha3 entry.1 entry.2)

/-! The mempool. -/

/-- Whether one of the validators that take part has sent a transaction. The loop stops at the first of them. -/
def participates (rdpos : RdPoS) (sender : Address) : Nat → Nat → Except Exception Bool
  | 0, _ => .ok false
  | turns + 1, i => do
    let validator ← rdpos.randomAt i
    if sender = validator then pure true else participates rdpos sender turns (i + 1)

/-- The end of the loop, `minValidators_ + 1`, is computed with 32 bits. -/
def addValidatorTx (rdpos : RdPoS) (latest : Block) (tx : TxValidator) : Except Exception (Bool × RdPoS) :=
  if rdpos.validatorMempool.any fun entry => entry.1 = tx.hash then .ok (true, rdpos)
  else if tx.nHeight ≠ latest.nHeight + 1 then .ok (false, rdpos)
  else do
    let participating ← rdpos.participates tx.from ((rdpos.minValidators + 1).toNat - 1) 1
    if !participating then pure (false, rdpos)
    else
      let txs := (rdpos.validatorMempool.map Prod.snd).filter fun value => value.from = tx.from
      let added := { rdpos with validatorMempool := rdpos.validatorMempool ++ [(tx.hash, tx)] }
      match txs with
      | [] => pure (true, added)
      | [present] => do
        let functor ← present.getFunctor
        let another ← tx.getFunctor
        if functor = another then pure (false, rdpos) else pure (true, added)
      | _ => pure (false, rdpos)

/-- Lives of a consensus: it is constructed, its methods are called with the latest block of the storage,
other components write under their own prefixes, and it is constructed again after it was destructed or
without that. No set has more elements than there are indices. -/
inductive Lived : RdPoS → DB → Block → Prop where
  | start {db : DB} {opened : RdPoS × DB} (genesisValidators : List Address) (minValidators : UInt32) (latest : Block)
      (loaded : load sha3 db genesisValidators minValidators latest = .ok opened)
      (sized : opened.1.validators.elements.length ≤ 2 ^ 64) : Lived opened.1 opened.2 latest
  | processBlock {rdpos next : RdPoS} {db : DB} {latest : Block} (block : Block) (lived : Lived rdpos db latest)
      (processed : rdpos.processBlock sha3 block = .ok next) : Lived next db block
  | addValidatorTx {rdpos next : RdPoS} {db : DB} {latest : Block} {added : Bool} (tx : TxValidator) (lived : Lived rdpos db latest)
      (answered : rdpos.addValidatorTx latest tx = .ok (added, next)) : Lived next db latest
  | clearMempool {rdpos : RdPoS} {db : DB} {latest : Block} (lived : Lived rdpos db latest) : Lived rdpos.clearMempool db latest
  | elsewhere {rdpos : RdPoS} {db db' : DB} {latest : Block} (lived : Lived rdpos db latest)
      (same : ∀ key, db'.lookup (DBPrefix.rdPoS ++ key) = db.lookup (DBPrefix.rdPoS ++ key)) : Lived rdpos db' latest
  | restart {rdpos : RdPoS} {db left : DB} {latest : Block} {opened : RdPoS × DB} (lived : Lived rdpos db latest)
      (stopped : left = rdpos.save db ∨ left = db) (genesisValidators : List Address) (minValidators : UInt32)
      (loaded : load sha3 left genesisValidators minValidators latest = .ok opened) : Lived opened.1 opened.2 latest

end RdPoS
end OrbiterSDK
