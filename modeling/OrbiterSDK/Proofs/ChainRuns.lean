import OrbiterSDK.Proofs.Archive
import OrbiterSDK.Proofs.BlockRoundTrip

/-! Runs in which blocks are pushed and popped at both ends of the chain. -/

namespace OrbiterSDK.Proofs.ChainRuns
open Lib Storage ChainIndex Archive BlockRoundTrip TxRoundTrip

variable {reader : BlockReader} {storage next : Storage} {db : DB} {block : Block}

/-- The database gives a block back. -/
def Readable (reader : BlockReader) (db : DB) (block : Block) : Prop :=
  reader.block (db.get block.hash.get DBPrefix.blocks) = .ok block

/-- A block whose hash stands for no other height. -/
structure Recognised (storage : Storage) (block : Block) : Prop where
  fits : Fits storage block
  unique : ∀ height, storage.blockHashByHeight height = some block.hash → height = block.nHeight

/-- A push that is accepted is of a block that can be told from all others, and a pop is of a block that the
database has. -/
def Distinguishable (reader : BlockReader) (db : DB) (storage : Storage) : Edit → Prop
  | .pushBack block =>
    (∀ back, storage.chain.getLast? = some back → back.hash = block.prevBlockHash ∧ block.nHeight = back.nHeight + 1) →
      Recognised storage block ∧ (storage.chain ≠ [] → block.nHeight ≠ 0)
  | .pushFront block =>
    (∀ front, storage.chain.head? = some front → front.prevBlockHash = block.hash ∧ block.nHeight = front.nHeight - 1) →
      Recognised storage block ∧ ∀ front, storage.chain.head? = some front → front.nHeight ≠ 0
  | .popBack => ∃ block, storage.chain.getLast? = some block ∧ Readable reader db block
  | .popFront => ∃ block, storage.chain.head? = some block ∧ Readable reader db block

def AllDistinguishable (reader : BlockReader) (db : DB) : Storage → List Edit → Prop
  | _, [] => True
  | storage, edit :: rest => Distinguishable reader db storage edit ∧ AllDistinguishable reader db (storage.edit edit) rest

/-- The maps are right, and every height leads to its block. -/
structure Sound (reader : BlockReader) (db : DB) (storage : Storage) : Prop where
  indexed : Indexed storage
  known : ∀ {height hash}, storage.blockHashByHeight height = some hash → ∃ block, block.nHeight = height ∧ block.hash = hash ∧
    (block ∈ storage.chain ∨ storage.blockByHash hash = none ∧ Readable reader db block)
  uncached : storage.cachedBlocks = fun _ => none

theorem edit_ok {edit : Edit} (applied : edit.apply storage = .ok next) : storage.edit edit = next := by
  rw [Storage.edit, applied]

theorem edit_error {edit : Edit} {what : Exception} (applied : edit.apply storage = .error what) : storage.edit edit = storage := by
  rw [Storage.edit, applied]

theorem added_known (sound : Sound reader db storage) (recognised : Recognised storage block) {chain : List Block}
    (perm : chain.Perm (block :: storage.chain)) {height : UInt64} {hash : Hash}
    (mapped : (addToMappings { storage with chain } block).blockHashByHeight height = some hash) :
    ∃ other, other.nHeight = height ∧ other.hash = hash ∧
      (other ∈ chain ∨ (addToMappings { storage with chain } block).blockByHash hash = none ∧ Readable reader db other) := by
  have here : block ∈ chain := perm.mem_iff.mpr List.mem_cons_self
  cases Index.insert_apply_iff.mp mapped with
  | inr new =>
    obtain ⟨same, _, equal⟩ := new
    exact ⟨block, same.symm, equal, .inl here⟩
  | inl older =>
    by_cases same : hash = block.hash
    · exact ⟨block, (recognised.unique height (same ▸ older)).symm, same.symm, .inl here⟩
    · obtain ⟨other, at_, equal, place⟩ := sound.known older
      refine ⟨other, at_, equal, place.imp (fun inside => perm.mem_iff.mpr (List.mem_cons_of_mem _ inside)) fun stored => ?_⟩
      refine ⟨?_, stored.2⟩
      cases found : (addToMappings { storage with chain } block).blockByHash hash with
      | none => rfl
      | some third =>
        cases Index.insert_apply_iff.mp found with
        | inl before => cases stored.1.symm.trans before
        | inr new => exact absurd new.1 same

theorem removed_known (sound : Sound reader db storage) (readable : Readable reader db block) {chain : List Block}
    (perm : storage.chain.Perm (block :: chain)) {height : UInt64} {hash : Hash}
    (mapped : storage.blockHashByHeight height = some hash) : ∃ other, other.nHeight = height ∧ other.hash = hash ∧
      (other ∈ chain ∨ (removeFromMappings storage block).blockByHash hash = none ∧ Readable reader db other) := by
  have erased {found : Block} (there : (removeFromMappings storage block).blockByHash hash = some found) :
      hash ≠ block.hash ∧ storage.blockByHash hash = some found := Index.erase_apply_iff.mp there
  obtain ⟨other, height, equal, place⟩ := sound.known mapped
  refine ⟨other, height, equal, ?_⟩
  cases place with
  | inl inside =>
    cases List.mem_cons.mp (perm.mem_iff.mp inside) with
    | inr rest => exact .inl rest
    | inl same =>
      apply Or.inr
      refine ⟨?_, same ▸ readable⟩
      cases found : (removeFromMappings storage block).blockByHash hash with
      | none => rfl
      | some third => exact absurd (equal.symm.trans (congrArg Block.hash same)) (erased found).1
  | inr stored =>
    apply Or.inr
    refine ⟨?_, stored.2⟩
    cases found : (removeFromMappings storage block).blockByHash hash with
    | none => rfl
    | some third => cases stored.1.symm.trans (erased found).2

theorem edit_sound (sound : Sound reader db storage) {edit : Edit} (fine : Distinguishable reader db storage edit) :
    Sound reader db (storage.edit edit) := by
  cases edit with
  | pushBack block =>
    cases pushed : (Edit.pushBack block).apply storage with
    | error what =>
      rw [edit_error pushed]
      exact sound
    | ok next =>
      rw [edit_ok pushed]
      obtain ⟨links, same⟩ := pushBack_ok.mp pushed
      obtain ⟨recognised, positive⟩ := fine links
      constructor
      · exact pushBack_indexed sound.indexed recognised.fits positive pushed
      · rw [same]
        exact added_known sound recognised (List.perm_append_singleton block storage.chain)
      · rw [same]
        exact sound.uncached
  | pushFront block =>
    cases pushed : (Edit.pushFront block).apply storage with
    | error what =>
      rw [edit_error pushed]
      exact sound
    | ok next =>
      rw [edit_ok pushed]
      obtain ⟨links, same⟩ := pushFront_ok.mp pushed
      obtain ⟨recognised, positive⟩ := fine links
      constructor
      · exact pushFront_indexed sound.indexed recognised.fits positive pushed
      · rw [same]
        exact added_known sound recognised (.refl _)
      · rw [same]
        exact sound.uncached
  | popBack =>
    obtain ⟨block, last, readable⟩ := fine
    obtain ⟨before, split⟩ := List.getLast?_eq_some_iff.mp last
    have popped : Edit.popBack.apply storage = .ok { removeFromMappings storage block with chain := storage.chain.dropLast } := by
      rw [Edit.apply, popBack, last]
    rw [edit_ok popped]
    constructor
    · exact popBack_indexed sound.indexed popped
    · apply removed_known sound readable
      rw [split, List.dropLast_concat]
      exact List.perm_append_singleton block before
    · exact sound.uncached
  | popFront =>
    obtain ⟨block, first, readable⟩ := fine
    obtain ⟨behind, split⟩ := List.head?_eq_some_iff.mp first
    have popped : Edit.popFront.apply storage = .ok { removeFromMappings storage block with chain := storage.chain.tail } := by
      rw [Edit.apply, popFront, first]
    rw [edit_ok popped]
    constructor
    · exact popFront_indexed sound.indexed popped
    · apply removed_known sound readable
      rw [split]
      exact .refl _
    · exact sound.uncached

private theorem edits_sound (edits : List Edit) : ∀ {storage : Storage}, Sound reader db storage → AllDistinguishable reader db storage edits →
    Sound reader db (edits.foldl Storage.edit storage) := by
  induction edits with
  | nil => exact fun sound _ => sound
  | cons edit rest ih => exact fun sound fine => ih (edit_sound sound fine.1) fine.2

theorem filed_sound {archive : Set Block} (filed : Filed reader archive storage db) (uncached : storage.cachedBlocks = fun _ => none) :
    Sound reader db storage := by
  constructor
  · exact filed.indexed
  · intro height hash mapped
    obtain ⟨block, known, at_, same⟩ := filed.mapped.hashOf.mp mapped
    refine ⟨block, at_, same, ?_⟩
    by_cases inside : block ∈ storage.chain
    · exact .inl inside
    · apply Or.inr
      constructor
      · cases found : storage.blockByHash hash with
        | none => rfl
        | some other =>
          obtain ⟨there, equal⟩ := filed.indexed.blocks.mp found
          have again := filed.distinct.hashes (filed.inside other there) known (equal.trans same.symm)
          exact absurd (again ▸ there) inside
      · have stored := (filed.rest block known).resolve_left inside
        rw [Readable, get_of_lookup stored.bytes]
        exact (filed.storable block known).reads
  · exact uncached

/-- A height that exists leads to a block of that height. -/
theorem getBlockAt_height (sound : Sound reader db storage) {height : UInt64} (there : heightExists storage height = true) :
    ∃ block after, getBlockAt reader storage db height = .ok (some block, after) ∧ block.nHeight = height := by
  cases mapped : storage.blockHashByHeight height with
  | none =>
    rw [heightExists, heightExistsInternal, mapped] at there
    cases there
  | some hash =>
    obtain ⟨block, at_, same, place⟩ := sound.known mapped
    have got := Index.get_of_some mapped absent
    cases place with
    | inl inside =>
      have found := sound.indexed.blocks.mpr ⟨inside, same⟩
      refine ⟨block, storage, ?_, at_⟩
      rw [getBlockAt, heightExistsInternal, mapped]
      simp only [found, Option.isSome_some, if_true]
      exact bind_ok.mpr ⟨hash, got, bind_ok.mpr ⟨block, Index.get_of_some found absent, rfl⟩⟩
    | inr stored =>
      obtain ⟨absent_, readable⟩ := stored
      have uncached : storage.cachedBlocks hash = none := by rw [sound.uncached]
      have cached : storage.cachedBlocks.insert hash block hash = some block := Index.insert_apply_iff.mpr (.inr ⟨rfl, uncached, rfl⟩)
      refine ⟨block, { storage with cachedBlocks := storage.cachedBlocks.insert hash block }, ?_, at_⟩
      rw [getBlockAt, heightExistsInternal, mapped]
      simp only [absent_, uncached, Option.isSome_none, Bool.false_eq_true, if_false]
      refine bind_ok.mpr ⟨hash, got, bind_ok.mpr ⟨block, same ▸ readable, bind_ok.mpr ⟨block, ?_, rfl⟩⟩⟩
      exact Index.get_of_some cached absent

/-- As long as the blocks that are pushed can be told from the others and those that are popped are in the database, the
chain is linked, the maps have exactly its blocks and transactions, and every height that exists has its block. -/
theorem index_kept {genesis : Block} {history : List Block} {left : DB} (consistent : Consistent reader genesis history db)
    (loaded : load reader genesis db = .ok (storage, left)) (edits : List Edit) (fine : AllDistinguishable reader left storage edits) :
    Indexed (edits.foldl Storage.edit storage) ∧ ∀ height, heightExists (edits.foldl Storage.edit storage) height = true →
      ∃ block after, getBlockAt reader (edits.foldl Storage.edit storage) left height = .ok (some block, after) ∧
        block.nHeight = height := by
  obtain ⟨recorded, loading⟩ := load_recorded consistent loaded
  have sound := edits_sound edits (filed_sound (recorded.filed loading) loading.cachedBlocks) fine
  exact ⟨sound.indexed, fun height there => getBlockAt_height sound there⟩

/-- An open block without validator transactions. -/
def openBlock (prevBlockHash : Hash) (nHeight : UInt64) (txs : List TxBlock) : Block where
  validatorSig := []
  prevBlockHash
  blockRandomness := 0
  validatorMerkleRoot := 0
  txMerkleRoot := 0
  timestamp := 0
  nHeight
  txValidators := []
  txs
  validator := 0
  finalized := false
  hash := 0

def sealedBlock (prevBlockHash : Hash) (nHeight newTimestamp : UInt64) (txs : List TxBlock) : Block :=
  ((openBlock prevBlockHash nHeight txs).finalize Hash.ofBytes oneSignature newTimestamp).2

def oneKeyReader : BlockReader := ⟨oneKeyCurve, Hash.ofBytes, oneSignature, 8080, []⟩

/-- A block with at most one transaction comes back from its bytes. -/
theorem sealed_storable {prevBlockHash : Hash} {nHeight newTimestamp : UInt64} {txs : List TxBlock} (few : txs.length ≤ 1)
    (reads : ∀ tx ∈ txs, ∀ past, TxBlock.ofBytes oneKeyCurve Hash.ofBytes (tx.rlpSerialize true) past 8080 = .ok tx)
    (small : ∀ tx ∈ txs, (tx.rlpSerialize true).length < 2 ^ 32) :
    Storable oneKeyReader (sealedBlock prevBlockHash nHeight newTimestamp txs) := by
  obtain ⟨final, done, built, same, noValidators⟩ : ∃ final,
      (openBlock prevBlockHash nHeight txs).finalize Hash.ofBytes oneSignature newTimestamp = (true, final) ∧
        final = sealedBlock prevBlockHash nHeight newTimestamp txs ∧ final.txs = txs ∧ final.txValidators = [] :=
    ⟨_, rfl, rfl, rfl, rfl⟩
  have size := (ofParsed_finalized done oneSignature_signs).1
  have length : final.serializeBlock.length < 217 + (4 + 2 ^ 32) := by
    rw [BlockEntries.serializeBlock_eq size, List.length_append, BlockEntries.front_length size, BlockEntries.txSpans,
      BlockEntries.validatorSpans, same, noValidators]
    rcases listed : txs with _ | ⟨tx, _ | ⟨_, _⟩⟩
    · decide
    · have short := small tx (listed ▸ List.mem_singleton_self tx)
      simp only [List.map_cons, List.map_nil, BlockEntries.entries_cons, List.length_append, BlockEntries.entry_length]
      exact Nat.add_lt_add_left (Nat.add_lt_add_left short 4) 217
    · rw [listed] at few
      exact absurd few (by simp)
  have readsBack : ReadsBack oneKeyCurve Hash.ofBytes 8080 final := by
    constructor
    · rw [same]
      exact reads
    · rw [noValidators]
      exact List.forall_mem_nil _
    · rw [noValidators]
      exact List.forall_mem_nil _
  have sizes : Sizes final := by
    unfold Sizes
    rw [same, noValidators]
    exact ⟨small, List.forall_mem_nil _⟩
  rw [← built]
  constructor
  · exact (finalized_block_reads_back_iff done oneSignature_signs readsBack (Nat.lt_trans length (by decide))).mpr sizes
  · exact Nat.lt_trans length (by decide)
  · rw [same]
    exact Nat.lt_of_le_of_lt few (by decide)

def firstWith (tx : TxBlock) : Block := sealedBlock 0 0 1 [tx]

def secondWith (tx : TxBlock) : Block := sealedBlock (firstWith tx).hash 1 2 []

/-- A transfer that is read back, and whose block can be told from the next one. -/
structure OneTransfer (tx : TxBlock) : Prop where
  built : signedTransfer (List.replicate 56 0) = .ok tx
  reads : ∀ past, TxBlock.ofBytes oneKeyCurve Hash.ofBytes (tx.rlpSerialize true) past 8080 = .ok tx
  small : (tx.rlpSerialize true).length + 4 < 2 ^ 32
  apart : (secondWith tx).hash ≠ (firstWith tx).hash

theorem exists_transfer : ∃ tx, OneTransfer tx := by
  obtain ⟨tx, built, _, reads⟩ := @signedTransfer_reads_back (List.replicate 56 0) (by decide) (by decide)
  have facts : ((signedTransfer (List.replicate 56 0)).toOption.all fun tx =>
      decide ((tx.rlpSerialize true).length + 4 < 2 ^ 32 ∧ (secondWith tx).hash ≠ (firstWith tx).hash)) = true := by decide +kernel
  rw [built] at facts
  obtain ⟨small, apart⟩ := of_decide_eq_true facts
  exact ⟨tx, built, fun past => reads past 8080, small, apart⟩

section OneTransfer
variable {tx : TxBlock} (transfer : OneTransfer tx)
include transfer

theorem first_storable : Storable oneKeyReader (firstWith tx) := by
  refine @sealed_storable 0 0 1 [tx] (Nat.le_refl 1) ?_ ?_
  · intro other member
    exact List.mem_singleton.mp member ▸ transfer.reads
  · intro other member
    exact List.mem_singleton.mp member ▸ Nat.lt_of_le_of_lt (Nat.le_add_right _ 4) transfer.small

theorem first_consistent : Consistent oneKeyReader (firstWith tx) [firstWith tx] ∅ :=
  .fresh (fun _ => ⟨rfl, rfl, rfl⟩) rfl (first_storable transfer) (List.nodup_singleton _)

end OneTransfer

/-- The second block is pushed and the first one taken from memory, where its height still leads to it. -/
theorem transfer_is_indexed : ∃ tx storage left, OneTransfer tx ∧ load oneKeyReader (firstWith tx) ∅ = .ok (storage, left) ∧
    let current := [Edit.pushBack (secondWith tx), .popFront].foldl Storage.edit storage
    current.chain = [secondWith tx] ∧ Indexed current ∧
      ∃ block after, getBlockAt oneKeyReader current left 0 = .ok (some block, after) ∧ block.nHeight = 0 := by
  obtain ⟨tx, transfer⟩ := exists_transfer
  obtain ⟨storage, left, loaded, recorded, loading⟩ := load_ok (first_consistent transfer)
  have chain : storage.chain = [firstWith tx] := loading.chain.trans (by rw [List.length_singleton, Nat.sub_eq_zero_of_le (by omega)]; rfl)
  have mapped {height : UInt64} {hash : Hash} (found : storage.blockHashByHeight height = some hash) : height = 0 ∧ hash = (firstWith tx).hash := by
    obtain ⟨block, member, at_, same⟩ := loading.mapped.hashOf.mp found
    cases List.mem_singleton.mp member
    exact ⟨at_.symm, same.symm⟩
  have pushable : Distinguishable oneKeyReader left storage (.pushBack (secondWith tx)) := by
    intro _
    refine ⟨⟨⟨?_, ?_, List.nodup_nil, nofun⟩, ?_⟩, fun _ => show (1 : UInt64) ≠ 0 by decide⟩
    · cases found : storage.blockHashByHeight (secondWith tx).nHeight with
      | none => exact .inl rfl
      | some hash => exact absurd (mapped found).1 (show ¬ (1 : UInt64) = 0 by decide)
    · cases found : storage.blockByHash (secondWith tx).hash with
      | none => rfl
      | some other =>
        obtain ⟨inside, same⟩ := loading.indexed.blocks.mp found
        rw [chain] at inside
        cases List.mem_singleton.mp inside
        exact absurd same.symm transfer.apart
    · exact fun height found => absurd (mapped found).2 transfer.apart
  have pushed : (Edit.pushBack (secondWith tx)).apply storage =
      .ok (addToMappings { storage with chain := storage.chain ++ [secondWith tx] } (secondWith tx)) := by
    apply pushBack_ok.mpr
    refine ⟨fun back last => ?_, rfl⟩
    rw [chain] at last
    cases last
    exact ⟨rfl, rfl⟩
  have both : (storage.edit (.pushBack (secondWith tx))).chain = [firstWith tx, secondWith tx] := by
    rw [edit_ok pushed]
    change storage.chain ++ [secondWith tx] = _
    rw [chain]
    rfl
  have popped : Edit.popFront.apply (storage.edit (.pushBack (secondWith tx))) =
      .ok { removeFromMappings (storage.edit (.pushBack (secondWith tx))) (firstWith tx) with chain := [secondWith tx] } := by
    rw [Edit.apply, popFront, both]
    rfl
  have readable : Readable oneKeyReader left (firstWith tx) := by
    have member : firstWith tx ∈ [firstWith tx] := List.mem_singleton_self _
    rw [Readable, get_of_lookup (recorded.blocks _ member)]
    exact (recorded.storable _ member).reads
  obtain ⟨indexed, heights⟩ := index_kept (first_consistent transfer) loaded [.pushBack (secondWith tx), .popFront]
    ⟨pushable, ⟨firstWith tx, by rw [both]; rfl, readable⟩, trivial⟩
  refine ⟨tx, storage, left, transfer, loaded, ?_, indexed, heights 0 ?_⟩
  · change ((storage.edit (.pushBack (secondWith tx))).edit .popFront).chain = _
    rw [edit_ok popped]
  · have first : storage.blockHashByHeight 0 = some (firstWith tx).hash :=
      loading.mapped.hashOf.mpr ⟨firstWith tx, List.mem_singleton_self _, rfl, rfl⟩
    have still : ([Edit.pushBack (secondWith tx), .popFront].foldl Storage.edit storage).blockHashByHeight 0 = some (firstWith tx).hash := by
      change ((storage.edit (.pushBack (secondWith tx))).edit .popFront).blockHashByHeight 0 = _
      rw [edit_ok popped, edit_ok pushed]
      exact Index.insert_apply_iff.mpr (.inl first)
    rw [heightExists, heightExistsInternal, still]
    dsimp only
    split
    · decide
    · split <;> decide

def origin : Block := sealedBlock 0 0 1 []

def child : Block := sealedBlock origin.hash 1 2 []

def sibling : Block := sealedBlock origin.hash 1 3 []

/-- After a block was popped, its height still leads to it, and not to the one that is pushed instead. -/
theorem sibling_is_not_indexed : ∃ storage left, load oneKeyReader origin ∅ = .ok (storage, left) ∧
    let current := [Edit.pushBack child, .popBack, .pushBack sibling].foldl Storage.edit storage
    current.chain = [origin, sibling] ∧ ¬ Indexed current ∧ heightExists current 1 = true ∧
      ∃ what, getBlockAt oneKeyReader current left 1 = .error what := by
  have runs : ((load oneKeyReader origin ∅).toOption.any fun opened =>
      let current := [Edit.pushBack child, .popBack, .pushBack sibling].foldl Storage.edit opened.1
      current.chain = [origin, sibling] ∧ current.blockHashByHeight sibling.nHeight = some child.hash ∧ heightExists current 1 = true ∧
        (getBlockAt oneKeyReader current opened.2 1).isOk = false) = true := by decide +kernel
  obtain ⟨⟨storage, left⟩, loaded, runs⟩ := (Option.any_eq_true _ _).mp runs
  obtain ⟨chain, height, there, fails⟩ := of_decide_eq_true runs
  refine ⟨storage, left, toOption_some.mp loaded, chain, ?_, there, ?_⟩
  · intro indexed
    have right := indexed.heights sibling (by rw [chain]; exact List.mem_cons_of_mem _ (List.mem_singleton_self _))
    exact absurd (Option.some.inj (height.symm.trans right)) (by decide +kernel)
  · cases outcome : getBlockAt oneKeyReader ([Edit.pushBack child, .popBack, .pushBack sibling].foldl Storage.edit storage) left 1 with
    | error what => exact ⟨what, rfl⟩
    | ok found =>
      rw [outcome] at fails
      cases fails

end OrbiterSDK.Proofs.ChainRuns
