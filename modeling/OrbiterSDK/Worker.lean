import OrbiterSDK.RdPoS

/-! The worker of a validator. It commits itself to a random seed, waits for the others and then reveals the seed,
while transactions and blocks arrive at its node in any order. -/

namespace OrbiterSDK
open RdPoS

/-- Where the worker is in its loop. -/
inductive Phase where
  | starting
  /-- It has taken the latest block. -/
  | looking (latestBlock : Block)
  /-- It is about to add and to broadcast its randomHash transaction. -/
  | committing (latestBlock : Block) (randomHashTx seedTx : TxValidator)
  | collecting (latestBlock : Block) (seedTx : TxValidator) (validatorMempoolSize : Nat)
  /-- It waits for the next block. -/
  | resting (latestBlock : Block)
  | ended

/-- A node, as far as its worker sees it. -/
structure Node where
  rdpos : RdPoS
  /-- The latest block of the storage. -/
  latest : Block
  /-- A block that the consensus has processed and that is not in the storage yet. The state is locked
  meanwhile, which keeps transactions out, but not the worker. -/
  appending : Option Block := none
  phase : Phase := .starting
  stopWorker : Bool := false
  validatorKey : PrivKey
  chainId : UInt64

namespace Node
variable (lib : Secp256k1) (sha3 : Bytes → Hash)

inductive Event where
  | refresh
  | look (randomness : Hash)
  | commit
  | readSize
  | reveal
  | giveUp
  /-- From an answer to a request or from a broadcast of another node. -/
  | deliver (tx : TxValidator)
  | processBlock (block : Block)
  | pushBack
  | clearMempool
  | stop

/-- The transactions of `doTxCreation`. There are none if its check of them fails. -/
def makeTxs (node : Node) (nHeight : UInt64) (me : Address) (randomness : Hash) : Except Exception (Option (TxValidator × TxValidator)) := do
  let randomHash := sha3 randomness.get
  let randomHashTx ← TxValidator.sign lib sha3 me ([0xcf, 0xff, 0xe7, 0x46] ++ randomHash.get) node.chainId nHeight node.validatorKey
  let seedTx ← TxValidator.sign lib sha3 me ([0x6f, 0xc5, 0xa2, 0xd6] ++ randomness.get) node.chainId nHeight node.validatorKey
  if (sha3 (seedTx.data.drop 4)).get ≠ randomHashTx.data.drop 4 then pure none else pure (some (randomHashTx, seedTx))

/-- Where a turn of the loop goes. The block creator only waits for transactions; the worker ends
if a constructor throws. -/
def turn (node : Node) (latestBlock : Block) (randomness : Hash) : Except Exception Phase := do
  let me := Secp256k1.toAddress sha3 (lib.toUPub node.validatorKey)
  let first ← node.rdpos.randomAt 0
  if me = first then pure (.resting latestBlock)
  else do
    let participating ← node.rdpos.participates me node.rdpos.minValidators.toNat 1
    if !participating then pure (.resting latestBlock)
    else
      match node.makeTxs lib sha3 (latestBlock.nHeight + 1) me randomness with
      | .error _ => pure .ended
      | .ok none => pure (.resting latestBlock)
      | .ok (some (randomHashTx, seedTx)) => pure (.committing latestBlock randomHashTx seedTx)

/-- `State::addValidatorTx`, which waits for the lock. -/
def addValidatorTx (node : Node) (tx : TxValidator) : Option Node :=
  match node.appending, node.rdpos.addValidatorTx node.latest tx with
  | none, .ok answered => some { node with rdpos := answered.2 }
  | _, _ => none

/-- What an event makes of a node, and what the worker broadcasts. There is no result if the event
cannot happen. -/
def step (node : Node) : Event → Option (Node × List TxValidator)
  | .refresh =>
    match node.phase with
    | .starting => some ({ node with phase := .looking node.latest }, [])
    | .resting latestBlock =>
      if node.latest ≠ latestBlock ∨ node.stopWorker then some ({ node with phase := .looking node.latest }, []) else none
    | _ => none
  | .look randomness =>
    match node.phase with
    | .looking latestBlock =>
      if node.stopWorker then some ({ node with phase := .ended }, [])
      else
        match node.turn lib sha3 latestBlock randomness with
        | .ok phase => some ({ node with phase }, [])
        | .error _ => none
    | _ => none
  | .commit =>
    match node.phase with
    | .committing latestBlock randomHashTx seedTx => do
      let added ← node.addValidatorTx randomHashTx
      some ({ added with phase := .collecting latestBlock seedTx 0 }, [randomHashTx])
    | _ => none
  | .readSize =>
    match node.phase with
    | .collecting latestBlock seedTx validatorMempoolSize =>
      if validatorMempoolSize < node.rdpos.minValidators.toNat ∧ !node.stopWorker then
        some ({ node with phase := .collecting latestBlock seedTx node.rdpos.validatorMempool.length }, [])
      else none
    | _ => none
  | .reveal =>
    match node.phase with
    | .collecting latestBlock seedTx validatorMempoolSize =>
      if validatorMempoolSize < node.rdpos.minValidators.toNat ∧ !node.stopWorker then none
      else do
        let added ← node.addValidatorTx seedTx
        some ({ added with phase := .resting latestBlock }, [seedTx])
    | _ => none
  | .giveUp =>
    match node.phase with
    | .collecting _ _ _ => if node.stopWorker then some ({ node with phase := .ended }, []) else none
    | _ => none
  | .deliver tx => do
    let added ← node.addValidatorTx tx
    some (added, [])
  | .processBlock block =>
    match node.appending, node.rdpos.processBlock sha3 block with
    | none, .ok rdpos => some ({ node with rdpos, appending := some block }, [])
    | _, _ => none
  | .pushBack =>
    match node.appending with
    | some block => some ({ node with latest := block, appending := none }, [])
    | none => none
  | .clearMempool => some ({ node with rdpos := node.rdpos.clearMempool }, [])
  | .stop => some ({ node with stopWorker := true }, [])

/-- Nodes as they are constructed. -/
inductive Started : Node → Prop where
  | start {db : DB} {opened : RdPoS × DB} {genesisValidators : List Address} {minValidators : UInt32} {latest : Block}
      (loaded : load sha3 db genesisValidators minValidators latest = .ok opened) (validatorKey : PrivKey) (chainId : UInt64) :
      Started { rdpos := opened.1, latest, validatorKey, chainId }

/-- One node of many takes a step. -/
def Turn {ι : Type} [DecidableEq ι] (allowed : Node → Event → Prop) (network next : ι → Node) : Prop :=
  ∃ i event node sent, allowed (network i) event ∧ (network i).step lib sha3 event = some (node, sent) ∧ next = Function.update network i node

end Node
end OrbiterSDK
