import OrbiterSDK.Proofs.BlockEntries

/-! Blocks after a round trip over their bytes. The size in front of a transaction has four
bytes, and the transaction is refused under any other size. -/

namespace OrbiterSDK.Proofs.BlockRoundTrip
open Lib TxItems TxRoundTrip ChainIds BlockEntries

section Finalized
variable {lib : Secp256k1} {sha3 : Bytes → Hash} {signer : Block.Signer} {chainId : UInt64} {block final : Block} {newTimestamp : UInt64}
  {past : Bytes}

/-- The fields that are read from bytes. -/
def unchecked (block : Block) : Block := { block with
  validator := 0
  finalized := false
  hash := 0 }

/-- The checks at the end of the constructor compute again what finalizing has computed. -/
theorem ofParsed_finalized (done : block.finalize sha3 signer newTimestamp = (true, final))
    (signs : ∀ hash, (signer.sign hash).length = 65 ∧ Block.verifySigBytes (signer.sign hash) = true) :
    final.validatorSig.length = 65 ∧ Block.ofParsed sha3 signer Block.verifySigBytes (unchecked final) = .ok final := by
  unfold Block.finalize at done
  split at done
  · cases done
  split at done
  · cases done
  cases done
  refine ⟨(signs _).1, ?_⟩
  unfold Block.ofParsed unchecked
  simp only [ne_eq, not_true, if_false, (signs _).2, Bool.not_true, Bool.false_eq_true]
  rfl

/-- Every transaction is read back from its own bytes, and the validators' belong to the height. -/
structure ReadsBack (lib : Secp256k1) (sha3 : Bytes → Hash) (chainId : UInt64) (block : Block) : Prop where
  txs : ∀ tx ∈ block.txs, ∀ past, TxBlock.ofBytes lib sha3 (tx.rlpSerialize true) past chainId = .ok tx
  txValidators : ∀ tx ∈ block.txValidators, ∀ past, TxValidator.ofBytes lib sha3 (tx.rlpSerialize true) past chainId = .ok tx
  heights : ∀ tx ∈ block.txValidators, tx.nHeight = block.nHeight

/-- The sizes of all transactions have four bytes. -/
def Sizes (block : Block) : Prop :=
  (∀ tx ∈ block.txs, (tx.rlpSerialize true).length < 2 ^ 32) ∧ ∀ tx ∈ block.txValidators, (tx.rlpSerialize true).length < 2 ^ 32

/-- Behind its own bytes, what is built does not depend on what follows. -/
private theorem answers_nil {α : Type} {bytesOf : α → Bytes} {construct : Bytes → Bytes → Except Exception α} {values : List α}
    (each : ∀ value ∈ values, ∀ behind, construct (bytesOf value) behind = .ok value) :
    (∀ span ∈ values.map bytesOf, ∀ behind, construct span behind = construct span []) ∧
      (values.map bytesOf).mapM (fun span => construct span []) = .ok values := by
  constructor
  · intro span member behind
    obtain ⟨value, listed, rfl⟩ := List.mem_map.mp member
    rw [each value listed behind, each value listed []]
  · induction values with
    | nil => rfl
    | cons value rest ih =>
      have others := ih fun other member => each other (List.mem_cons_of_mem _ member)
      exact mapM_ok_cons.mpr ⟨value, each value List.mem_cons_self [], rest, others, rfl⟩

private theorem checked_height (readsBack : ReadsBack lib sha3 chainId final) : ∀ tx ∈ final.txValidators, ∀ behind,
    readValidatorTx lib sha3 chainId final.nHeight (tx.rlpSerialize true) behind = .ok tx := by
  intro tx member behind
  refine bind_ok.mpr ⟨tx, readsBack.txValidators tx member behind, ?_⟩
  rw [if_neg (not_not.mpr (readsBack.heights tx member))]
  rfl

theorem parse_of_sizes (size : final.validatorSig.length = 65)
    (accepted : Block.ofParsed sha3 signer Block.verifySigBytes (unchecked final) = .ok final)
    (readsBack : ReadsBack lib sha3 chainId final) (fits : final.serializeBlock.length < 2 ^ 64) (small : Sizes final) :
    Block.parse lib sha3 signer final.serializeBlock past chainId = .ok final := by
  obtain ⟨tiles, height, fields⟩ := serialized_tiles size fits
  obtain ⟨txs, txValidators⟩ := small
  obtain ⟨answers, built⟩ := @answers_nil _ _ (fun span behind => TxBlock.ofBytes lib sha3 span behind chainId) _ readsBack.txs
  obtain ⟨answersToo, _⟩ :=
    @answers_nil _ _ (fun span behind => TxValidator.ofBytes lib sha3 span behind chainId) _ readsBack.txValidators
  obtain ⟨_, builtToo⟩ := answers_nil (checked_height readsBack)
  rw [tiles.parse (List.forall_mem_map.mpr txs) (List.forall_mem_map.mpr txValidators) answers answersToo, height]
  refine bind_ok.mpr ⟨_, built, bind_ok.mpr ⟨_, builtToo, ?_⟩⟩
  rw [fields]
  exact accepted

theorem sizes_of_parse (size : final.validatorSig.length = 65) (readsBack : ReadsBack lib sha3 chainId final)
    (fits : final.serializeBlock.length + past.length < 2 ^ 64) {parsed : Block}
    (read : Block.parse lib sha3 signer final.serializeBlock past chainId = .ok parsed) : Sizes final := by
  obtain ⟨tiles, height, _⟩ := @serialized_tiles final size (by omega)
  obtain ⟨front, place, start, here, there, finish⟩ := tiles.memory past
  rw [parse_eq tiles.long, height] at read
  obtain ⟨txCount, counted, read⟩ := bind_ok.mp read
  obtain ⟨valTxCount, countedToo, read⟩ := bind_ok.mp read
  obtain ⟨txs, readTxs, read⟩ := bind_ok.mp read
  obtain ⟨txValidators, readValidators, _⟩ := bind_ok.mp read
  have readAll : Block.readEntries (final.serializeBlock ++ past) (fun span behind => TxBlock.ofBytes lib sha3 span behind chainId)
      txCount 217 = .ok txs := by
    split at readTxs
    · exact readTxs
    · exact readInThreads_read (by omega) readTxs
  have longest : ∀ spans, spans = txSpans final ∨ spans = validatorSpans final → ∀ span ∈ spans, span.length < 2 ^ 64 := by
    rintro spans (rfl | rfl) span member
    · have part := entry_le_entries member
      have begins := tiles.start
      omega
    · have part := entry_le_entries member
      omega
  rw [tiles.start, ← place] at counted
  rw [← place] at readAll
  rw [finish, ← start] at countedToo
  rw [← start] at readValidators
  constructor
  · refine List.forall_mem_map.mp (entries_of_read here (List.forall_mem_map.mpr fun tx member => ?_) counted readAll).1
    exact tx_sized.whole (longest _ (.inl rfl) _ (List.mem_map_of_mem member)) (readsBack.txs tx member)
  · have sizedToo : Sized (readValidatorTx lib sha3 chainId final.nHeight) := validator_sized.then _
    refine List.forall_mem_map.mp (entries_of_read there (List.forall_mem_map.mpr fun tx member => ?_) countedToo readValidators).1
    exact sizedToo.whole (longest _ (.inr rfl) _ (List.mem_map_of_mem member)) (checked_height readsBack tx member)

/-- Reading the bytes of a finalized block gives the block back, with its hash and what is recovered from
its signature, exactly if the size of every transaction has four bytes. -/
theorem finalized_block_reads_back_iff (done : block.finalize sha3 signer newTimestamp = (true, final))
    (signs : ∀ hash, (signer.sign hash).length = 65 ∧ Block.verifySigBytes (signer.sign hash) = true)
    (readsBack : ReadsBack lib sha3 chainId final) (addressable : final.serializeBlock.length + past.length < 2 ^ 64) :
    Block.ofBytes lib sha3 signer final.serializeBlock past chainId = .ok final ↔ Sizes final := by
  obtain ⟨size, accepted⟩ := ofParsed_finalized done signs
  rw [ofBytes_ok_iff]
  constructor
  · exact sizes_of_parse size readsBack addressable
  · exact parse_of_sizes size accepted readsBack (Nat.lt_of_le_of_lt (Nat.le_add_right _ _) addressable)

end Finalized

/-- Signs every hash with the same numbers. -/
def oneSignature : Block.Signer where
  parseTxSeedList _ := 0
  sign _ := [0x80 :: List.replicate 31 0, 0x40 :: List.replicate 31 0, [0x00]].flatten
  recover _ _ := 0

theorem oneSignature_signs (hash : Hash) :
    (oneSignature.sign hash).length = 65 ∧ Block.verifySigBytes (oneSignature.sign hash) = true := by
  show (oneSignature.sign 0).length = 65 ∧ Block.verifySigBytes (oneSignature.sign 0) = true
  decide

/-- An open block with one transaction. -/
def blockOf (tx : TxBlock) : Block where
  validatorSig := []
  prevBlockHash := 0
  blockRandomness := 0
  validatorMerkleRoot := 0
  txMerkleRoot := 0
  timestamp := 5
  nHeight := 1
  txValidators := []
  txs := [tx]
  validator := 0
  finalized := false
  hash := 0

private theorem blockOf_finalizes (tx : TxBlock) : ∃ final, (blockOf tx).finalize Hash.ofBytes oneSignature 6 = (true, final) ∧
    final.txs = [tx] ∧ final.txValidators = [] ∧ final.validatorSig.length = 65 := by
  refine ⟨_, rfl, rfl, rfl, rfl⟩

theorem rlpSerialize_bounds (tx : TxBlock) (fits : tx.data.length < 2 ^ 63) :
    tx.data.length ≤ (tx.rlpSerialize true).length ∧ (tx.rlpSerialize true).length < 2 ^ 63 + 500 := by
  have total := totalSize_eq tx true
  have most := totalSize_lt tx fits
  have least := length_le_dataSize tx.data
  have header := @listHeader_length (tx.totalSize true) (by omega)
  have data : tx.data.length ≤ tx.totalSize true := by
    unfold TxBlock.totalSize
    omega
  rw [TxBlock.rlpSerialize, List.length_cons, List.length_append, total]
  omega

/-- The block with a long transfer, finalized, and what keeps it from being read back. -/
theorem transfer_block {data : Bytes} (long : 55 < data.length) (fits : data.length < 2 ^ 63) :
    ∃ tx final, signedTransfer data = .ok tx ∧ (blockOf tx).finalize Hash.ofBytes oneSignature 6 = (true, final) ∧
      ReadsBack oneKeyCurve Hash.ofBytes 8080 final ∧ final.serializeBlock.length < 2 ^ 64 ∧ data.length ≤ (tx.rlpSerialize true).length ∧
      (Sizes final ↔ (tx.rlpSerialize true).length < 2 ^ 32) := by
  obtain ⟨tx, built, same, readBack⟩ := signedTransfer_reads_back long fits
  obtain ⟨final, done, txs, txValidators, size⟩ := blockOf_finalizes tx
  obtain ⟨least, most⟩ := rlpSerialize_bounds tx (same ▸ fits)
  have length : final.serializeBlock.length = 217 + (4 + (tx.rlpSerialize true).length) := by
    rw [serializeBlock_eq size, List.length_append, front_length size, List.length_append, txSpans, validatorSpans, txs, txValidators]
    simp only [List.map_cons, List.map_nil, entries_cons, List.length_append, entry_length]
    rfl
  refine ⟨tx, final, built, done, ⟨?_, ?_, ?_⟩, by omega, same ▸ least, ?_⟩
  · intro other member past
    rw [txs] at member
    rw [List.mem_singleton.mp member]
    exact readBack past 8080
  · intro other member
    rw [txValidators] at member
    cases member
  · intro other member
    rw [txValidators] at member
    cases member
  · unfold Sizes
    rw [txs, txValidators]
    simp

theorem small_transfer_is_kept : ∃ tx final, signedTransfer (List.replicate 56 0) = .ok tx ∧
    (blockOf tx).finalize Hash.ofBytes oneSignature 6 = (true, final) ∧
    Block.ofBytes oneKeyCurve Hash.ofBytes oneSignature final.serializeBlock [] 8080 = .ok final := by
  obtain ⟨tx, final, built, done, readsBack, fits, least, sizes⟩ := @transfer_block (List.replicate 56 0) (by decide) (by decide)
  have small : (signedTransfer (List.replicate 56 0)).toOption.all fun tx => (tx.rlpSerialize true).length < 2 ^ 32 := by
    decide +kernel
  rw [built] at small
  have alone : final.serializeBlock.length + ([] : Bytes).length < 2 ^ 64 := fits
  exact ⟨tx, final, built, done,
    (finalized_block_reads_back_iff done oneSignature_signs readsBack alone).mpr (sizes.mpr (of_decide_eq_true small))⟩

end OrbiterSDK.Proofs.BlockRoundTrip
