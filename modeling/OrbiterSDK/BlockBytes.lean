import OrbiterSDK.Block
import OrbiterSDK.Tx

/-! Blocks from their bytes. Transactions follow each other behind their sizes; many of them
are read by four threads. -/

namespace OrbiterSDK.Block
open Tx

section Entries
variable (memory : Bytes)

/-- `bytes.subspan(index, 4)` as a number. -/
def sizeAt (index : Nat) : Except Exception Nat :=
  if index + 4 ≤ memory.length then .ok (Utils.bytesToUint ((memory.drop index).take 4)) else .error pastEnd

/-- What a loop gives that has not ended. -/
def endless : Exception := "endless loop"

/-- The entries from an index to an end. Every one takes four bytes or more. -/
def countEntries (finish : Nat) : Nat → Nat → Except Exception Nat
  | 0, _ => .error endless
  | fuel + 1, index =>
    if index < finish then do
      let txSize ← sizeAt memory index
      let count ← countEntries finish fuel (index + txSize + 4)
      pure (count + 1)
    else .ok 0

variable {α : Type} (construct : Bytes → Bytes → Except Exception α)

/-- A transaction from a span, with what lies behind the span. -/
def constructAt (index size : Nat) : Except Exception α :=
  if index + size ≤ memory.length then construct ((memory.drop index).take size) (memory.drop (index + size))
  else .error pastEnd

def readEntries : Nat → Nat → Except Exception (List α)
  | 0, _ => .ok []
  | count + 1, index => do
    let txSize ← sizeAt memory index
    let tx ← constructAt memory construct (index + 4) txSize
    let txs ← readEntries count (index + 4 + txSize)
    pure (tx :: txs)

def skipEntries : Nat → Nat → Except Exception Nat
  | 0, index => .ok index
  | count + 1, index => do
    let len ← sizeAt memory index
    skipEntries count (index + 4 + len)

/-- The remainder always goes to the last thread. -/
def txsPerThr (thrNum txCount : Nat) : List Nat :=
  List.replicate (thrNum - 1) (txCount / thrNum) ++ [txCount / thrNum + txCount % thrNum]

/-- Where each thread starts. Behind the last one nothing is skipped. -/
def threadStarts : List Nat → Nat → Except Exception (List (Nat × Nat))
  | [], _ => .ok []
  | [nTxs], startIdx => .ok [(startIdx, nTxs)]
  | nTxs :: more :: rest, startIdx => do
    let thrOff ← skipEntries memory nTxs startIdx
    let later ← threadStarts (more :: rest) thrOff
    pure ((startIdx, nTxs) :: later)

/-- The threads do not share anything but the bytes; they are waited for in their order. -/
def readInThreads (thrNum txCount index : Nat) : Except Exception (List α) := do
  let threads ← threadStarts memory (txsPerThr thrNum txCount) index
  let results ← threads.mapM fun thread => readEntries memory construct thread.2 thread.1
  pure results.flatten

end Entries

/-- A transaction behind its size, which is written with four bytes. -/
def entry (txBytes : Bytes) : Bytes := Utils.uintToBytes 4 txBytes.length ++ txBytes

def entries (txs : List Bytes) : Bytes := (txs.map entry).flatten

def serializeBlock (block : Block) : Bytes :=
  let front := block.validatorSig ++ block.serializeHeader
  let txs := entries (block.txs.map fun tx => tx.rlpSerialize true)
  let txValidators := entries (block.txValidators.map fun tx => tx.rlpSerialize true)
  let txValidatorStart := front.length + 8 + txs.length
  front ++ Utils.uintToBytes 8 txValidatorStart ++ txs ++ txValidators

def verifySigBytes (sig : Bytes) : Bool :=
  Secp256k1.verifySig (Hash.ofBytes (sig.take 32)) (Hash.ofBytes ((sig.drop 32).take 32)) (sig.getD 64 0)

variable (lib : Secp256k1) (sha3 : Bytes → Hash) (signer : Signer)

/-- What the constructor from network bytes does inside of its `try`. -/
def parse (bytes past : Bytes) (requiredChainId : UInt64) : Except Exception Block :=
  if bytes.length < 217 then .error "Invalid block size - too short"
  else do
    let memory := bytes ++ past
    let field (start size : Nat) : Bytes := (bytes.drop start).take size
    let nHeight := UInt64.ofNat (Utils.bytesToUint (field 201 8))
    let txValidatorStart := Utils.bytesToUint (field 209 8)
    let txCount ← countEntries memory txValidatorStart (memory.length + 1) 217
    let valTxCount ← countEntries memory bytes.length (memory.length + 1) txValidatorStart
    let readTx := fun span behind => TxBlock.ofBytes lib sha3 span behind requiredChainId
    let thrNum := 4
    let reading :=
      if thrNum ≤ 1 ∨ txCount ≤ 2000 then readEntries memory readTx txCount 217
      else readInThreads memory readTx thrNum txCount 217
    let txs ← reading
    let readValidatorTx := fun span behind => do
      let tx ← TxValidator.ofBytes lib sha3 span behind requiredChainId
      if tx.nHeight ≠ nHeight then throw "Invalid validator tx height"
      else pure tx
    let txValidators ← readEntries memory readValidatorTx valTxCount txValidatorStart
    ofParsed sha3 signer verifySigBytes
      { validatorSig := field 0 65
        prevBlockHash := Hash.ofBytes (field 65 32)
        blockRandomness := Hash.ofBytes (field 97 32)
        validatorMerkleRoot := Hash.ofBytes (field 129 32)
        txMerkleRoot := Hash.ofBytes (field 161 32)
        timestamp := UInt64.ofNat (Utils.bytesToUint (field 193 8))
        nHeight, txValidators, txs
        validator := 0
        finalized := false
        hash := 0 }

/-- The constructor from network bytes. Exceptions are thrown again under its name. -/
def ofBytes (bytes past : Bytes) (requiredChainId : UInt64) : Except Exception Block :=
  match parse lib sha3 signer bytes past requiredChainId with
  | .ok block => .ok block
  | .error what => .error (if what = pastEnd then what else "Block: " ++ what)

end OrbiterSDK.Block
