import OrbiterSDK.Proofs.BlockShapes
import OrbiterSDK.Proofs.Archive

/-! Transactions that are looked for in the bytes of a block. The entries in front of them are
counted, and those of the validators follow without a mark. -/

namespace OrbiterSDK.Proofs.StoredTxs
open Lib Storage Utils Tx ByteStrings BlockEntries BlockShapes Archive

/-- Blocks whose entries have sizes of 32 bits. -/
structure Slim (block : Block) : Prop where
  txs : ∀ tx ∈ block.txs, (tx.rlpSerialize true).length + 4 < 2 ^ 32
  validators : ∀ tx ∈ block.txValidators, (tx.rlpSerialize true).length + 4 < 2 ^ 32

section Entries
variable {memory before after : Bytes} {spans : List Bytes}

theorem skipTxs_entries : ∀ {before : Bytes}, memory = before ++ (Block.entries spans ++ after) →
    (∀ span ∈ spans, span.length + 4 < 2 ^ 32) →
    skipTxs memory spans.length before.length = .ok (before.length + (Block.entries spans).length) := by
  induction spans with
  | nil => exact fun _ _ => rfl
  | cons span rest ih =>
    intro before here slim
    obtain ⟨first, later, place⟩ := entries_step here
    have fits := slim span List.mem_cons_self
    have others := ih later fun other member => slim other (List.mem_cons_of_mem _ member)
    have sized : (span.length % 2 ^ 32 + 4) % 2 ^ 32 = 4 + span.length := by omega
    have next : before.length + (4 + span.length) = (before ++ Block.entry span).length := by omega
    have finish : (before ++ Block.entry span).length + (Block.entries rest).length =
        before.length + (Block.entries (span :: rest)).length := by
      rw [entries_cons, List.length_append, List.length_append, Nat.add_assoc]
    rw [← finish, List.length_cons, skipTxs, sizeAt_entry first]
    apply bind_ok.mpr
    refine ⟨_, rfl, ?_⟩
    rw [sized, next]
    exact others

theorem skipTxs_add (first : Nat) : ∀ {index : Nat} (second : Nat),
    skipTxs memory (first + second) index = skipTxs memory first index >>= skipTxs memory second := by
  induction first with
  | zero =>
    intro index second
    rw [Nat.zero_add]
    rfl
  | succ first ih =>
    intro index second
    rw [Nat.add_right_comm, skipTxs, skipTxs]
    cases Block.sizeAt memory index with
    | error what => rfl
    | ok txSize => exact ih second

variable (start : before.length = 217) (here : memory = before ++ (Block.entries spans ++ after))
  (slim : ∀ span ∈ spans, span.length + 4 < 2 ^ 32) {reader : BlockReader} {txIndex : UInt64}
include start here slim

/-- The constructor gets the entry with this number, whatever it is an entry of. -/
theorem construct_entry {span : Bytes} (listed : spans[txIndex.toNat]? = some span) :
    ∃ behind, getTxFromBlockWithIndex reader memory txIndex = reader.tx span behind := by
  obtain ⟨inside, rfl⟩ := List.getElem?_eq_some_iff.mp listed
  have parts : Block.entries spans = Block.entries (spans.take txIndex.toNat) ++ Block.entries (spans.drop txIndex.toNat) := by
    rw [Block.entries, Block.entries, Block.entries, ← List.flatten_append, ← List.map_append, List.take_append_drop]
  have cut : memory = before ++ (Block.entries (spans.take txIndex.toNat) ++ (Block.entries (spans.drop txIndex.toNat) ++ after)) := by
    rw [here, parts, List.append_assoc]
  have skipped := skipTxs_entries cut fun span member => slim span (List.mem_of_mem_take member)
  rw [List.length_take_of_le (Nat.le_of_lt inside), start, ← start, ← List.length_append] at skipped
  have place : memory = (before ++ Block.entries (spans.take txIndex.toNat)) ++ (Block.entry spans[txIndex.toNat] ++
      (Block.entries (spans.drop (txIndex.toNat + 1)) ++ after)) := by
    rw [List.append_assoc, cut, List.drop_eq_getElem_cons inside, entries_cons, List.append_assoc]
  have fits := slim _ (List.getElem_mem inside)
  have built := @constructAt_span _ _ _ _ _ reader.tx place spans[txIndex.toNat].length le_rfl
  rw [List.take_length] at built
  refine ⟨_, Eq.trans ?_ built⟩
  rw [getTxFromBlockWithIndex, ← start, skipped]
  dsimp only [bind, Except.bind]
  rw [sizeAt_entry place, Nat.mod_eq_of_lt (by omega)]

theorem construct_past (last : after = []) (beyond : spans.length ≤ txIndex.toNat) :
    getTxFromBlockWithIndex reader memory txIndex = .error pastEnd := by
  have size : before.length + (Block.entries spans).length = memory.length := by
    rw [here, last, List.append_nil, List.length_append]
  have ends : Block.sizeAt memory memory.length = .error pastEnd := by
    rw [Block.sizeAt, if_neg (by omega)]
  obtain ⟨more, count⟩ := Nat.exists_eq_add_of_le beyond
  rw [getTxFromBlockWithIndex, count, skipTxs_add, ← start, skipTxs_entries here slim, size]
  cases more with
  | zero =>
    dsimp only [bind, Except.bind, skipTxs]
    rw [ends]
  | succ more =>
    dsimp only [bind, Except.bind, skipTxs]
    rw [ends]

end Entries

section Blocks
variable {reader : BlockReader} {block : Block}

theorem validator_refused {tx : TxValidator} (addressable : (tx.rlpSerialize true).length < 2 ^ 63) (behind : Bytes) :
    reader.tx (tx.rlpSerialize true) behind = .error "Tx is not type 2" := by
  have bound := ValidatorRoundTrip.totalSize_lt tx (ValidatorShapes.data_lt tx addressable)
  have few : bytesRequired (tx.totalSize true) ≤ 8 := bytesRequired_le_iff.mpr bound
  obtain ⟨first, rest, header, other⟩ : ∃ first rest, tx.rlpSerialize true = first :: rest ∧ first ≠ 0x02 := by
    have apart {value : Nat} (low : 0xc0 ≤ value) (high : value ≤ 0xff) : UInt8.ofNat value ≠ 0x02 := by
      intro same
      have number := congrArg UInt8.toNat same
      rw [UInt8.toNat_ofNat', Nat.mod_eq_of_lt (by omega)] at number
      change value = 2 at number
      omega
    unfold TxValidator.rlpSerialize listHeader
    split
    case isTrue short => exact ⟨_, _, rfl, apart (by omega) (by omega)⟩
    case isFalse => exact ⟨_, _, rfl, apart (by omega) (by omega)⟩
  unfold BlockReader.tx TxBlock.ofBytes
  rw [header]
  dsimp only
  rw [List.cons_append, Action.eval_bind, Reader.eval_peek_cons]
  dsimp only
  rw [Action.eval_ite, if_pos other, Action.eval_throw]

theorem block_entries (storable : Storable reader block) (slim : Slim block) : ∃ front, front.length = 217 ∧
    block.serializeBlock = front ++ (Block.entries (txSpans block ++ validatorSpans block) ++ []) ∧
    ∀ span ∈ txSpans block ++ validatorSpans block, span.length + 4 < 2 ^ 32 := by
  obtain ⟨tiles, _, _⟩ := entries_of_parse storable.addressable (ofBytes_ok_iff.mp storable.reads) rfl
  refine ⟨block.serializeBlock.take 217, List.length_take_of_le tiles.long, ?_, ?_⟩
  · rw [List.append_nil, Block.entries, List.map_append, List.flatten_append, ← Block.entries, ← Block.entries, ← tiles.behind,
      List.take_append_drop]
  · intro span member
    cases List.mem_append.mp member with
    | inl here =>
      obtain ⟨tx, listed, rfl⟩ := List.mem_map.mp here
      exact slim.txs tx listed
    | inr here =>
      obtain ⟨tx, listed, rfl⟩ := List.mem_map.mp here
      exact slim.validators tx listed

theorem tx_reads (storable : Storable reader block) {tx : TxBlock} (member : tx ∈ block.txs) (behind : Bytes) :
    reader.tx (tx.rlpSerialize true) behind = .ok tx := by
  obtain ⟨_, txs, _⟩ := entries_of_parse storable.addressable (ofBytes_ok_iff.mp storable.reads) rfl
  obtain ⟨small, past, read⟩ := txs tx member
  have exact_ := TxShapes.exact_of_read (by omega) read
  obtain ⟨fields, _, reads⟩ := @TxShapes.exact_reads reader.lib reader.sha3 _ (by omega) exact_
  exact (reads behind reader.chainId).trans ((reads past reader.chainId).symm.trans read)

variable (storable : Storable reader block) (slim : Slim block) {txIndex : UInt64}
include storable slim

theorem stored_tx {tx : TxBlock} (listed : block.txs[txIndex.toNat]? = some tx) :
    getTxFromBlockWithIndex reader block.serializeBlock txIndex = .ok tx := by
  obtain ⟨front, start, here, small⟩ := block_entries storable slim
  have span : (txSpans block ++ validatorSpans block)[txIndex.toNat]? = some (tx.rlpSerialize true) := by
    obtain ⟨inside, _⟩ := List.getElem?_eq_some_iff.mp listed
    rw [List.getElem?_append_left (by rw [List.length_map]; exact inside), List.getElem?_map, listed]
    rfl
  obtain ⟨behind, built⟩ := @construct_entry _ front [] _ start here small reader txIndex _ span
  exact built.trans (tx_reads storable (List.mem_of_getElem? listed) behind)

/-- Behind the transactions of the block those of the validators are tried. -/
theorem stored_validator (beyond : block.txs.length ≤ txIndex.toNat)
    (inside : txIndex.toNat < block.txs.length + block.txValidators.length) :
    getTxFromBlockWithIndex reader block.serializeBlock txIndex = .error "Tx is not type 2" := by
  obtain ⟨front, start, here, small⟩ := block_entries storable slim
  have place : txIndex.toNat - block.txs.length < block.txValidators.length := by omega
  have span : (txSpans block ++ validatorSpans block)[txIndex.toNat]? =
      some (block.txValidators[txIndex.toNat - block.txs.length].rlpSerialize true) := by
    rw [List.getElem?_append_right (by rw [List.length_map]; exact beyond), List.length_map, List.getElem?_map,
      List.getElem?_eq_getElem place]
    rfl
  obtain ⟨behind, built⟩ := @construct_entry _ front [] _ start here small reader txIndex _ span
  have fits := slim.validators _ (List.getElem_mem place)
  exact built.trans (validator_refused (by omega) behind)

theorem stored_past (beyond : block.txs.length + block.txValidators.length ≤ txIndex.toNat) :
    getTxFromBlockWithIndex reader block.serializeBlock txIndex = .error pastEnd := by
  obtain ⟨front, start, here, small⟩ := block_entries storable slim
  refine construct_past start here small rfl ?_
  rw [List.length_append, List.length_map, List.length_map]
  exact beyond

end Blocks

end OrbiterSDK.Proofs.StoredTxs
