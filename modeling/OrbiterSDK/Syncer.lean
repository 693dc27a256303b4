import OrbiterSDK.RdPoS

/-! How the first validator of the order makes a block of the mempool of validator transactions. -/

namespace OrbiterSDK

/-- An empty block behind another one. -/
def Block.after (latest : Block) : Block where
  validatorSig := []
  prevBlockHash := latest.hash
  blockRandomness := 0
  validatorMerkleRoot := 0
  txMerkleRoot := 0
  timestamp := latest.timestamp
  nHeight := latest.nHeight + 1
  txValidators := []
  txs := []
  validator := 0
  finalized := false
  hash := 0

def Block.appendTxValidator (block : Block) (tx : TxValidator) : Bool × Block :=
  if block.finalized then (false, block) else (true, { block with txValidators := block.txValidators ++ [tx] })

namespace Syncer
open RdPoS
variable (rdpos : RdPoS)

/-- The inner loop, up to the first transaction from the wanted validator with the wanted functor. -/
def findTx (functor : Functor) (i : Nat) : List TxValidator → Except Exception (Option TxValidator)
  | [] => .ok none
  | tx :: rest => do
    let validator ← rdpos.randomAt i
    if tx.from = validator then do
      let another ← tx.getFunctor
      if another = functor then pure (some tx) else findTx functor i rest
    else findTx functor i rest

/-- The outer loop, which goes through the mempool again if there was none. It is still running when there is no
fuel left. -/
def orderTxs (functor : Functor) (mempool : List TxValidator) : Nat → Nat → List TxValidator → Option (Except Exception (List TxValidator))
  | 0, _, _ => none
  | fuel + 1, i, txs =>
    if txs.length = rdpos.minValidators.toNat then some (.ok txs)
    else
      match findTx rdpos functor i mempool with
      | .error what => some (.error what)
      | .ok none => orderTxs functor mempool fuel i txs
      | .ok (some tx) => orderTxs functor mempool fuel (i + 1) (txs ++ [tx])

/-- `doValidatorBlock` up to the block without its other transactions. Nothing stops the node. -/
def orderedBlock (order : Walk) (latest : Block) (fuel : Nat) : Option (Except Exception Block) :=
  let mempool := (order.walk rdpos.validatorMempool).map Prod.snd
  match orderTxs rdpos randomHashHash mempool fuel 1 [] with
  | none => none
  | some (.error what) => some (.error what)
  | some (.ok randomHashTxs) =>
    match orderTxs rdpos randomSeedHash mempool fuel 1 [] with
    | none => none
    | some (.error what) => some (.error what)
    | some (.ok randomnessTxs) =>
      some (.ok ((randomHashTxs ++ randomnessTxs).foldl (fun block tx => (block.appendTxValidator tx).2) (Block.after latest)))

end Syncer
end OrbiterSDK
