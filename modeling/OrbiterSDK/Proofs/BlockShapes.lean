import OrbiterSDK.Proofs.BlockEntries
import OrbiterSDK.Proofs.ValidatorShapes
import OrbiterSDK.RdPoS

/-! Byte strings that a block is written as. Decoding accepts others as well: entries that
start inside of the header or run past the end, and transactions of another shape. -/

namespace OrbiterSDK.Proofs.BlockShapes
open Lib Utils Tx TxItems TxRoundTrip ChainIds BlockEntries TxShapes ValidatorShapes

section Transactions
variable {lib : Secp256k1} {sha3 : Bytes → Hash} {required : UInt64}

/-- A long list is refused under a smaller size than its own. -/
theorem tx_whole {tx other : TxBlock} {rest : Bytes} (addressable : (tx.rlpSerialize true).length < 2 ^ 63)
    (accepted : TxBlock.ofBytes lib sha3 ((tx.rlpSerialize true).take ((tx.rlpSerialize true).length % 2 ^ 32))
      ((tx.rlpSerialize true).drop ((tx.rlpSerialize true).length % 2 ^ 32) ++ rest) required = .ok other) :
    (tx.rlpSerialize true).length < 2 ^ 32 := by
  by_contra large
  have total := totalSize_eq tx true
  have bound := totalSize_lt tx (TxShapes.data_lt tx addressable)
  have length : (tx.rlpSerialize true).length = 1 + ((listHeader (tx.totalSize true)).length + tx.totalSize true) := by
    rw [TxBlock.rlpSerialize, List.length_cons, List.length_append, total, Nat.add_comm]
  have header := @listHeader_length (tx.totalSize true) (by omega)
  obtain ⟨list, _, _, _, memory, seen, _⟩ := ofBytes_ok accepted
  rw [← List.append_assoc, List.take_append_drop, TxBlock.rlpSerialize, List.cons_append] at memory
  obtain ⟨_, rfl⟩ := List.cons.inj memory
  rw [List.append_assoc] at seen
  have own := reads_listHeader (show 55 < tx.totalSize true by omega) (by omega) 
  have sizes := readList_size seen (own _)
  rw [List.length_take_of_le (Nat.mod_le _ _)] at sizes
  have numbers := congrArg UInt64.toNat (show UInt64.ofNat ((tx.rlpSerialize true).length % 2 ^ 32) =
    UInt64.ofNat (1 + ((listHeader (tx.totalSize true)).length + tx.totalSize true)) by rw [UInt64.ofNat_add 1]; grind)
  rw [UInt64.toNat_ofNat', UInt64.toNat_ofNat'] at numbers
  omega

theorem validator_whole {tx other : TxValidator} {rest : Bytes} (addressable : (tx.rlpSerialize true).length < 2 ^ 63)
    (accepted : TxValidator.ofBytes lib sha3 ((tx.rlpSerialize true).take ((tx.rlpSerialize true).length % 2 ^ 32))
      ((tx.rlpSerialize true).drop ((tx.rlpSerialize true).length % 2 ^ 32) ++ rest) required = .ok other) :
    (tx.rlpSerialize true).length < 2 ^ 32 := by
  by_contra large
  have total := ValidatorRoundTrip.totalSize_eq tx true
  have bound := ValidatorRoundTrip.totalSize_lt tx (ValidatorShapes.data_lt tx addressable)
  have length : (tx.rlpSerialize true).length = (listHeader (tx.totalSize true)).length + tx.totalSize true := by
    rw [TxValidator.rlpSerialize, List.length_append, total]
  have header := listHeader_length bound
  obtain ⟨_, _, _, seen, _⟩ := ValidatorRoundTrip.ofBytes_ok accepted
  rw [← List.append_assoc, List.take_append_drop, List.length_take_of_le (Nat.mod_le _ _), TxValidator.rlpSerialize,
    List.append_assoc] at seen
  have own := reads_listHeader (show 55 < tx.totalSize true by omega) bound
  have numbers := congrArg UInt64.toNat (readList_size seen (own _))
  rw [← TxValidator.rlpSerialize, UInt64.toNat_ofNat', UInt64.toNat_ofNat'] at numbers
  omega

theorem recovered_ne_pastEnd (tx : TxBlock) : tx.recovered lib sha3 ≠ .error pastEnd := by
  unfold TxBlock.recovered
  split
  · decide
  · simp only
    split
    · decide
    · exact fun same => by cases same

theorem append_ne_pastEnd {start : String} (other : start.toList.head? ≠ pastEnd.toList.head?) (some : start.toList ≠ []) (rest : String) :
    start ++ rest ≠ pastEnd := by
  intro same
  apply other
  rw [← same, String.toList_append, List.head?_append_of_ne_nil _ some]

theorem unfoldV_ne_pastEnd (v : Uint256) : TxValidator.unfoldV v ≠ .error pastEnd := by
  unfold TxValidator.unfoldV Uint256.narrow
  split
  · split
    case _ what failed =>
      split at failed
      · cases failed
      · cases failed
        decide
    · exact fun same => by cases same
  · split
    · intro same
      exact append_ne_pastEnd (by decide) (by decide) _ (Except.error.inj same)
    · decide

theorem recoveredValidator_ne_pastEnd (tx : TxValidator) : tx.recovered lib sha3 ≠ .error pastEnd := by
  unfold TxValidator.recovered
  split
  case _ what failed =>
    intro same
    exact unfoldV_ne_pastEnd tx.v (failed.trans (congrArg _ (Except.error.inj same)))
  · simp only
    split
    · decide
    · split
      · decide
      · exact fun same => by cases same

end Transactions

variable {lib : Secp256k1} {sha3 : Bytes → Hash} {signer : Block.Signer} {required : UInt64} {bytes : Bytes}

theorem ofParsed_ne_pastEnd (parsed : Block) : Block.ofParsed sha3 signer Block.verifySigBytes parsed ≠ .error pastEnd := by
  unfold Block.ofParsed
  split
  · decide
  · split
    · decide
    · split
      · decide
      · split
        · decide
        · exact fun same => by cases same

/-- The checks at the end leave what is written as it is. -/
theorem ofParsed_serialized {parsed final : Block} (accepted : Block.ofParsed sha3 signer Block.verifySigBytes parsed = .ok final) :
    final.serializeBlock = parsed.serializeBlock ∧ final.validatorSig = parsed.validatorSig := by
  unfold Block.ofParsed at accepted
  split at accepted
  · cases accepted
  · split at accepted
    · cases accepted
    · split at accepted
      · cases accepted
      · split at accepted
        · cases accepted
        · cases accepted
          exact ⟨rfl, rfl⟩

theorem parsedFields_sig (long : 217 ≤ bytes.length) (txs : List TxBlock) (txValidators : List TxValidator) :
    (parsedFields bytes txs txValidators).validatorSig.length = 65 := by
  show ((bytes.drop 0).take 65).length = 65
  rw [List.drop_zero, List.length_take]
  omega

/-- A block that is written as the bytes it comes from has transactions that are read where they stand. -/
theorem entries_of_parse (addressable : bytes.length < 2 ^ 63) {past : Bytes} {block : Block}
    (accepted : Block.parse lib sha3 signer bytes past required = .ok block) (same : block.serializeBlock = bytes) :
    Tiles bytes (txSpans block) (validatorSpans block) ∧
      (∀ tx ∈ block.txs, (tx.rlpSerialize true).length < 2 ^ 32 ∧
        ∃ behind, TxBlock.ofBytes lib sha3 (tx.rlpSerialize true) behind required = .ok tx) ∧
      ∀ tx ∈ block.txValidators, (tx.rlpSerialize true).length < 2 ^ 32 ∧
        ∃ behind, TxValidator.ofBytes lib sha3 (tx.rlpSerialize true) behind required = .ok tx := by
  have long : 217 ≤ bytes.length := by
    by_contra short
    unfold Block.parse at accepted
    rw [if_pos (by omega)] at accepted
    cases accepted
  rw [parse_eq long] at accepted
  obtain ⟨txCount, counted, read⟩ := bind_ok.mp accepted
  obtain ⟨valTxCount, countedToo, read⟩ := bind_ok.mp read
  obtain ⟨txs, readTxs, read⟩ := bind_ok.mp read
  obtain ⟨txValidators, readValidators, checked⟩ := bind_ok.mp read
  have readAll : Block.readEntries (bytes ++ past) (fun span behind => TxBlock.ofBytes lib sha3 span behind required) txCount 217 =
      .ok txs := by
    split at readTxs
    · exact readTxs
    · exact readInThreads_read (by omega) readTxs
  obtain ⟨sameTxs, sameValidators⟩ := ofParsed_txs checked
  have size : block.validatorSig.length = 65 := by
    rw [(ofParsed_serialized checked).2]
    exact parsedFields_sig long _ _
  obtain ⟨tiles, _, _⟩ := @serialized_tiles block size (by rw [same]; omega)
  rw [same] at tiles
  obtain ⟨front, place, start, here, there, finish⟩ := tiles.memory past
  have begins := tiles.start
  rw [begins, ← place] at counted
  rw [← place] at readAll
  rw [finish, ← start] at countedToo
  rw [← start] at readValidators
  have shorter : ∀ span, span ∈ txSpans block ∨ span ∈ validatorSpans block → span.length < 2 ^ 63 := by
    rintro span (member | member)
    · have part := entry_le_entries member
      omega
    · have part := entry_le_entries member
      omega
  obtain ⟨small, built⟩ := entries_of_read here (List.forall_mem_map.mpr fun tx member rest other =>
    tx_whole (shorter _ (.inl (List.mem_map_of_mem member)))) counted readAll
  obtain ⟨smallToo, builtToo⟩ := entries_of_read there (List.forall_mem_map.mpr fun tx member rest other accepted => by
    obtain ⟨recovered, accepted, _⟩ := bind_ok.mp accepted
    exact validator_whole (shorter _ (.inr (List.mem_map_of_mem member))) accepted) countedToo readValidators
  have ownTxs : txs = block.txs := sameTxs.symm
  have ownValidators : txValidators = block.txValidators := sameValidators.symm
  rw [ownTxs, List.forall₂_map_left_iff, List.forall₂_same] at built
  rw [ownValidators, List.forall₂_map_left_iff, List.forall₂_same] at builtToo
  refine ⟨tiles, fun tx member => ⟨small _ (List.mem_map_of_mem member), built tx member⟩, fun tx member => ?_⟩
  obtain ⟨behind, read⟩ := builtToo tx member
  obtain ⟨recovered, read, checked⟩ := bind_ok.mp read
  split at checked
  · cases checked
  · cases checked
    exact ⟨smallToo _ (List.mem_map_of_mem member), behind, read⟩

/-- Decoding stays inside of the bytes, however little is readable behind them, and ends with an
exception or with a block that is written as the bytes. -/
def Faithful (lib : Secp256k1) (sha3 : Bytes → Hash) (signer : Block.Signer) (required : UInt64) (bytes : Bytes) : Prop :=
  ∀ past, Block.ofBytes lib sha3 signer bytes past required ≠ .error pastEnd ∧
    ∀ block, Block.ofBytes lib sha3 signer bytes past required = .ok block → block.serializeBlock = bytes

end OrbiterSDK.Proofs.BlockShapes
