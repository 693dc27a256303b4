import OrbiterSDK.Merkle

/-! Blocks, their header bytes and their finalization. -/

namespace OrbiterSDK

structure Block where
  validatorSig : Bytes
  prevBlockHash : Hash
  blockRandomness : Hash
  validatorMerkleRoot : Hash
  txMerkleRoot : Hash
  timestamp : UInt64
  nHeight : UInt64
  txValidators : List TxValidator
  txs : List TxBlock
  /-- `Secp256k1::toAddress(getValidatorPubKey())`, the only use made of the public key. -/
  validator : Address
  finalized : Bool
  hash : Hash
  deriving DecidableEq

namespace Block

def serializeHeader (block : Block) : Bytes :=
  block.prevBlockHash.get ++ block.blockRandomness.get ++ block.validatorMerkleRoot.get ++ block.txMerkleRoot.get ++
    Utils.uintToBytes 8 block.timestamp.toNat ++ Utils.uintToBytes 8 block.nHeight.toNat

/-- The signature primitives and the validator seed of a block, which live in other components. -/
structure Signer where
  parseTxSeedList : List TxValidator → Hash
  sign : Hash → Bytes
  recover : Bytes → Hash → Address

def appendTx (block : Block) (tx : TxBlock) : Bool × Block :=
  if block.finalized then (false, block) else (true, { block with txs := block.txs ++ [tx] })

def finalize (sha3 : Bytes → Hash) (signer : Signer) (block : Block) (newTimestamp : UInt64) : Bool × Block :=
  if block.finalized then (false, block)
  else if newTimestamp < block.timestamp then (false, block)
  else
    let block := { block with
      timestamp := newTimestamp
      txMerkleRoot := (Merkle.ofTxs sha3 TxBlock.hash block.txs).getRoot
      validatorMerkleRoot := (Merkle.ofTxs sha3 TxValidator.hash block.txValidators).getRoot
      blockRandomness := signer.parseTxSeedList block.txValidators }
    let hash := sha3 block.serializeHeader
    let validatorSig := signer.sign hash
    (true, { block with
      hash
      validatorSig
      validator := signer.recover validatorSig hash
      finalized := true })

/-- The checks with which the constructor from network bytes ends, over the parsed
fields. It throws unless they hold and finalizes the block if they do. -/
def ofParsed (sha3 : Bytes → Hash) (signer : Signer) (verifySig : Bytes → Bool) (parsed : Block) :
    Except Exception Block :=
  if (Merkle.ofTxs sha3 TxBlock.hash parsed.txs).getRoot ≠ parsed.txMerkleRoot then
    .error "Invalid tx merkle root"
  else if (Merkle.ofTxs sha3 TxValidator.hash parsed.txValidators).getRoot ≠ parsed.validatorMerkleRoot then
    .error "Invalid validator merkle root"
  else if signer.parseTxSeedList parsed.txValidators ≠ parsed.blockRandomness then
    .error "Invalid block randomness"
  else if !verifySig parsed.validatorSig then
    .error "Invalid validator signature"
  else
    let hash := sha3 parsed.serializeHeader
    .ok { parsed with
      hash
      validator := signer.recover parsed.validatorSig hash
      finalized := true }

/-- What the two ways of finalizing a block establish. -/
structure Sealed (sha3 : Bytes → Hash) (block : Block) : Prop where
  finalized : block.finalized = true
  txRoot : block.txMerkleRoot = (Merkle.ofTxs sha3 TxBlock.hash block.txs).getRoot
  hash : block.hash = sha3 block.serializeHeader

/-- The header bytes contain the transaction root at a fixed place. -/
theorem txMerkleRoot_eq_of_header {first second : Block} (same : first.serializeHeader = second.serializeHeader) :
    first.txMerkleRoot = second.txMerkleRoot := by
  unfold serializeHeader at same
  obtain ⟨same, _⟩ := List.append_inj same (by simp [Hash.get_length, Utils.uintToBytes_length])
  obtain ⟨same, _⟩ := List.append_inj same (by simp [Hash.get_length])
  obtain ⟨_, root⟩ := List.append_inj same (by simp [Hash.get_length])
  exact Hash.get_injective root

end Block
end OrbiterSDK
