import OrbiterSDK.Proofs.StoredTxs

/-! Queries find what a storage knows, in the chain, in the cache or in the database. What they
leave in the cache is known as well. -/

namespace OrbiterSDK.Proofs.Lookups
open Lib Storage Utils ByteStrings ChainIndex Archive BlockEntries StoredTxs

/-- Where a block that is known is looked for. -/
inductive Place (storage : Storage) (db : DB) (block : Block) : Storage.StorageStatus → Prop where
  | onChain (inside : block ∈ storage.chain) : Place storage db block .onChain
  | onCache (outside : block ∉ storage.chain) (cached : storage.cachedBlocks block.hash = some block) : Place storage db block .onCache
  | onDB (outside : block ∉ storage.chain) (uncached : storage.cachedBlocks block.hash = none) (stored : Stored db block) :
      Place storage db block .onDB

def location (block : Block) (i : Nat) : TxLocation := ⟨block.hash, UInt64.ofNat i, block.nHeight⟩

/-- What a query can put in the cache. -/
inductive Cached (archive : Set Block) (storage : Storage) : Storage → Prop where
  | nothing : Cached archive storage storage
  | block {block : Block} (known : block ∈ archive) :
      Cached archive storage { storage with cachedBlocks := storage.cachedBlocks.insert block.hash block }
  | tx {block : Block} {i : Nat} {tx : TxBlock} (known : block ∈ archive) (listed : block.txs[i]? = some tx) :
      Cached archive storage { storage with cachedTxs := storage.cachedTxs.insert tx.hash (tx, location block i) }

section Known
variable {reader : BlockReader} {archive : Set Block} {storage : Storage} {db : DB} (filed : Filed reader archive storage db) {block : Block}
include filed

theorem chained (inside : block ∈ storage.chain) : storage.blockByHash block.hash = some block :=
  filed.indexed.blocks.mpr ⟨inside, rfl⟩

theorem unchained (known : block ∈ archive) (outside : block ∉ storage.chain) : storage.blockByHash block.hash = none := by
  cases found : storage.blockByHash block.hash with
  | none => rfl
  | some other =>
    obtain ⟨there, same⟩ := filed.indexed.blocks.mp found
    have equal : other = block := filed.distinct.hashes (filed.inside other there) known same
    exact absurd (equal ▸ there) outside

theorem cached_block (known : block ∈ archive) {other : Block} (found : storage.cachedBlocks block.hash = some other) : other = block := by
  obtain ⟨member, same⟩ := filed.cachedBlocks found
  exact filed.distinct.hashes member known same

theorem stored_of_outside (known : block ∈ archive) (outside : block ∉ storage.chain) : Stored db block :=
  (filed.rest block known).resolve_left outside

theorem place (known : block ∈ archive) : Place storage db block (blockExistsInternal storage db block.hash) := by
  unfold blockExistsInternal
  by_cases inside : block ∈ storage.chain
  · rw [chained filed inside]
    exact .onChain inside
  · rw [unchained filed known inside]
    cases cached : storage.cachedBlocks block.hash with
    | some other =>
      cases cached_block filed known cached
      exact .onCache inside cached
    | none =>
      have stored := stored_of_outside filed known inside
      have there : db.has block.hash.get DBPrefix.blocks = true := has_iff.mpr ⟨_, stored.bytes⟩
      rw [there]
      exact .onDB inside cached stored

/-- The overload for a height finds it at the same place. -/
theorem place_height (known : block ∈ archive) : heightExistsInternal storage block.nHeight = blockExistsInternal storage db block.hash := by
  have mapped := filed.mapped.hashOf.mpr ⟨block, known, rfl, rfl⟩
  have placed := place filed known
  rw [heightExistsInternal, mapped]
  unfold blockExistsInternal at placed ⊢
  dsimp only
  cases filed.rest block known with
  | inl inside => rw [chained filed inside]; rfl
  | inr stored =>
    have there : db.has block.hash.get DBPrefix.blocks = true := has_iff.mpr ⟨_, stored.bytes⟩
    rw [there]
    rfl

theorem unknown_hash {hash : Hash} (unknown : ∀ block ∈ archive, block.hash ≠ hash) : blockExistsInternal storage db hash = .notFound := by
  have unchained : storage.blockByHash hash = none := by
    cases found : storage.blockByHash hash with
    | none => rfl
    | some block =>
      obtain ⟨there, same⟩ := filed.indexed.blocks.mp found
      exact absurd same (unknown block (filed.inside block there))
  have uncached : storage.cachedBlocks hash = none := by
    cases found : storage.cachedBlocks hash with
    | none => rfl
    | some block =>
      obtain ⟨known, same⟩ := filed.cachedBlocks found
      exact absurd same (unknown block known)
  have unstored : db.has hash.get DBPrefix.blocks = false := by
    cases there : db.has hash.get DBPrefix.blocks with
    | false => rfl
    | true =>
      obtain ⟨value, found⟩ := has_iff.mp there
      obtain ⟨block, known, same, _⟩ := filed.only.blocks found
      exact absurd same (unknown block known)
  rw [blockExistsInternal, unchained, uncached, unstored]
  rfl

theorem unknown_height {height : UInt64} (unknown : ∀ block ∈ archive, block.nHeight ≠ height) :
    heightExistsInternal storage height = .notFound := by
  have unmapped : storage.blockHashByHeight height = none := by
    cases found : storage.blockHashByHeight height with
    | none => rfl
    | some hash =>
      obtain ⟨block, known, same, _⟩ := filed.mapped.hashOf.mp found
      exact absurd same (unknown block known)
  rw [heightExistsInternal, unmapped]

theorem cacheBlock_ok (known : block ∈ archive) (stored : Stored db block) : ∃ after,
    cacheBlock reader storage db block.hash = .ok (some block, after) ∧ Cached archive storage after := by
  have read : reader.block (db.get block.hash.get DBPrefix.blocks) = .ok block := by
    rw [get_of_lookup stored.bytes]
    exact (filed.storable block known).reads
  have cached : storage.cachedBlocks.insert block.hash block block.hash = some block := by
    apply (Index.insert_once_iff fun first found => cached_block filed known found).mpr
    exact .inr ⟨rfl, rfl⟩
  exact ⟨_, bind_ok.mpr ⟨block, read, bind_ok.mpr ⟨block, Index.get_of_some cached absent, rfl⟩⟩, .block known⟩

theorem getBlock_known (known : block ∈ archive) : ∃ after,
    getBlock reader storage db block.hash = .ok (some block, after) ∧ Cached archive storage after := by
  have placed := place filed known
  unfold getBlock
  generalize blockExistsInternal storage db block.hash = status at placed ⊢
  cases placed with
  | onChain inside => exact ⟨storage, bind_ok.mpr ⟨block, Index.get_of_some (chained filed inside) absent, rfl⟩, .nothing⟩
  | onCache _ cached => exact ⟨storage, bind_ok.mpr ⟨block, Index.get_of_some cached absent, rfl⟩, .nothing⟩
  | onDB _ _ stored => exact cacheBlock_ok filed known stored

theorem getBlock_unknown {hash : Hash} (unknown : ∀ block ∈ archive, block.hash ≠ hash) :
    getBlock reader storage db hash = .ok (none, storage) := by
  rw [getBlock, unknown_hash filed unknown]

theorem mapped_hash (known : block ∈ archive) : storage.blockHashByHeight.get block.nHeight absent = .ok block.hash :=
  Index.get_of_some (filed.mapped.hashOf.mpr ⟨block, known, rfl, rfl⟩) absent

theorem getBlockAt_known (known : block ∈ archive) : ∃ after,
    getBlockAt reader storage db block.nHeight = .ok (some block, after) ∧ Cached archive storage after := by
  have placed := place filed known
  have hash := mapped_hash filed known
  unfold getBlockAt
  rw [place_height filed known]
  generalize blockExistsInternal storage db block.hash = status at placed ⊢
  cases placed with
  | onChain inside =>
    refine ⟨storage, bind_ok.mpr ⟨block.hash, hash, bind_ok.mpr ⟨block, ?_, rfl⟩⟩, .nothing⟩
    exact Index.get_of_some (chained filed inside) absent
  | onCache _ cached =>
    exact ⟨storage, bind_ok.mpr ⟨block.hash, hash, bind_ok.mpr ⟨block, Index.get_of_some cached absent, rfl⟩⟩, .nothing⟩
  | onDB _ _ stored =>
    obtain ⟨after, got, cached⟩ := cacheBlock_ok filed known stored
    exact ⟨after, bind_ok.mpr ⟨block.hash, hash, got⟩, cached⟩

theorem getBlockAt_unknown {height : UInt64} (unknown : ∀ block ∈ archive, block.nHeight ≠ height) :
    getBlockAt reader storage db height = .ok (none, storage) := by
  rw [getBlockAt, unknown_height filed unknown]

end Known

section Transactions
variable {reader : BlockReader} {archive : Set Block} {storage : Storage} {db : DB} (filed : Filed reader archive storage db)
  {block : Block} {i : Nat} {tx : TxBlock}
include filed

theorem cached_tx (known : block ∈ archive) (listed : block.txs[i]? = some tx) {found : TxBlock × TxLocation}
    (cached : storage.cachedTxs tx.hash = some found) : found = (tx, location block i) := by
  obtain ⟨tx', place⟩ := found
  obtain ⟨hash, other, knownToo, k, listedToo, rfl⟩ := filed.cachedTxs cached
  obtain ⟨rfl, rfl, rfl⟩ := filed.distinct.same_place known listed knownToo listedToo hash
  rfl

theorem cacheTx_ok (known : block ∈ archive) (listed : block.txs[i]? = some tx) : ∃ after,
    cacheTx storage tx.hash tx (location block i) = .ok ((some tx, location block i), after) ∧ Cached archive storage after := by
  have cached : storage.cachedTxs.insert tx.hash (tx, location block i) tx.hash = some (tx, location block i) := by
    apply (Index.insert_once_iff fun first found => cached_tx filed known listed found).mpr
    exact .inr ⟨rfl, rfl⟩
  exact ⟨_, bind_ok.mpr ⟨_, Index.get_of_some cached absent, rfl⟩, .tx known listed⟩

theorem chained_tx (inside : block ∈ storage.chain) (listed : block.txs[i]? = some tx) :
    storage.txByHash tx.hash = some (location block i) :=
  filed.indexed.txs.mpr ⟨block, inside, mem_txEntries.mpr ⟨i, tx, listed, rfl, rfl⟩⟩

theorem unchained_tx (known : block ∈ archive) (outside : block ∉ storage.chain) (listed : block.txs[i]? = some tx) :
    storage.txByHash tx.hash = none := by
  cases found : storage.txByHash tx.hash with
  | none => rfl
  | some place =>
    obtain ⟨other, there, entry⟩ := filed.indexed.txs.mp found
    obtain ⟨k, tx', listedToo, same, _⟩ := mem_txEntries.mp entry
    obtain ⟨rfl, _⟩ := filed.distinct.same_place known listed (filed.inside other there) listedToo same.symm
    exact absurd there outside

private theorem toNat_index (known : block ∈ archive) (listed : block.txs[i]? = some tx) : (UInt64.ofNat i).toNat = i := by
  obtain ⟨inside, _⟩ := List.getElem?_eq_some_iff.mp listed
  have few := (filed.storable block known).few
  rw [UInt64.toNat_ofNat', Nat.mod_eq_of_lt (by omega)]

omit filed in
theorem readLocation_bytes {place : TxLocation} (few : place.blockIndex.toNat < 2 ^ 32) :
    readLocation (locationBytes place) = .ok place := by
  have hash : place.blockHash.get.length = 32 := Hash.get_length place.blockHash
  have index : (Utils.uintToBytes 4 place.blockIndex.toNat).length = 4 := uintToBytes_length 4 _
  have height : (Utils.uintToBytes 8 place.blockHeight.toNat).length = 8 := uintToBytes_length 8 _
  have size : (locationBytes place).length = 44 := by
    rw [locationBytes, List.length_append, List.length_append, hash, index, height]
  have first : span (locationBytes place) 0 32 = .ok place.blockHash.get := by
    rw [span, if_pos (by omega), locationBytes, List.append_assoc, List.drop_zero, List.take_left' hash]
  have second : span (locationBytes place) 32 4 = .ok (Utils.uintToBytes 4 place.blockIndex.toNat) := by
    rw [span, if_pos (by omega), locationBytes, List.append_assoc, List.drop_left' hash, List.take_left' index]
  have third : span (locationBytes place) 36 8 = .ok (Utils.uintToBytes 8 place.blockHeight.toNat) := by
    rw [span, if_pos (by omega), locationBytes, List.drop_left' (by rw [List.length_append, hash, index]), List.take_of_length_le height.le]
  refine bind_ok.mpr ⟨_, first, bind_ok.mpr ⟨_, second, bind_ok.mpr ⟨_, third, ?_⟩⟩⟩
  rw [hash_ofBytes_get, uint64_ofBytes, bytesToUint_uintToBytes few, UInt64.ofNat_toNat]
  rfl

/-- The answer is the same wherever the block is, and whatever is cached. -/
theorem getTx_known (known : block ∈ archive) (slim : Slim block) (listed : block.txs[i]? = some tx) : ∃ after,
    getTx reader storage db tx.hash = .ok ((some tx, location block i), after) ∧ Cached archive storage after := by
  have index := toNat_index filed known listed
  by_cases inside : block ∈ storage.chain
  · have there := chained_tx filed inside listed
    refine ⟨storage, ?_, .nothing⟩
    rw [getTx, txExistsInternal, there]
    refine bind_ok.mpr ⟨_, Index.get_of_some there absent, bind_ok.mpr ⟨block, ?_, bind_ok.mpr ⟨tx, ?_, ?_⟩⟩⟩
    · exact Index.get_of_some (chained filed inside) absent
    · rw [location, txInMemory, index, listed]
    · rw [if_neg (not_not.mpr rfl)]
      rfl
  · have stored := stored_of_outside filed known inside
    have there := unchained_tx filed known inside listed
    cases cached : storage.cachedTxs tx.hash with
    | some found =>
      refine ⟨storage, ?_, .nothing⟩
      rw [getTx, txExistsInternal, there, cached]
      refine bind_ok.mpr ⟨_, Index.get_of_some cached absent, ?_⟩
      rw [cached_tx filed known listed cached]
      rfl
    | none =>
      have entry : db.lookup (DBPrefix.txToBlocks ++ tx.hash.get) = some (locationBytes (location block i)) :=
        stored.tx (mem_txEntries.mpr ⟨i, tx, listed, rfl, rfl⟩)
      have kept : db.has tx.hash.get DBPrefix.txToBlocks = true := has_iff.mpr ⟨_, entry⟩
      have few : (location block i).blockIndex.toNat < 2 ^ 32 := by
        obtain ⟨below, _⟩ := List.getElem?_eq_some_iff.mp listed
        exact index.trans_lt (below.trans (filed.storable block known).few)
      obtain ⟨after, got, cachedToo⟩ := cacheTx_ok filed known listed
      refine ⟨after, ?_, cachedToo⟩
      rw [getTx, txExistsInternal, there, cached, kept]
      refine bind_ok.mpr ⟨location block i, ?_, bind_ok.mpr ⟨tx, ?_, got⟩⟩
      · rw [get_of_lookup entry]
        exact readLocation_bytes few
      · rw [location, get_of_lookup stored.bytes]
        exact stored_tx (filed.storable block known) slim (index.symm ▸ listed)

theorem getTx_unknown {txHash : Hash} (unknown : ∀ block ∈ archive, txHash ∉ block.txs.map TxBlock.hash) :
    getTx reader storage db txHash = .ok (noTx, storage) := by
  have unchained : storage.txByHash txHash = none := by
    cases found : storage.txByHash txHash with
    | none => rfl
    | some place =>
      obtain ⟨block, there, entry⟩ := filed.indexed.txs.mp found
      exact absurd (mem_txEntries_hash entry) (unknown block (filed.inside block there))
  have uncached : storage.cachedTxs txHash = none := by
    cases found : storage.cachedTxs txHash with
    | none => rfl
    | some entry =>
      obtain ⟨same, block, known, _, listed, _⟩ := filed.cachedTxs found
      exact absurd (same ▸ List.mem_map_of_mem (List.mem_of_getElem? listed)) (unknown block known)
  have unstored : db.has txHash.get DBPrefix.txToBlocks = false := by
    cases there : db.has txHash.get DBPrefix.txToBlocks with
    | false => rfl
    | true =>
      obtain ⟨value, found⟩ := has_iff.mp there
      obtain ⟨block, known, _, entry, _⟩ := filed.only.txs found
      exact absurd (mem_txEntries_hash entry) (unknown block known)
  rw [getTx, txExistsInternal, unchained, uncached, unstored]
  rfl

end Transactions

/-- What a lookup has to give for a position of a block. -/
structure Answers (block : Block) (blockIndex : UInt64) (outcome : Except Exception (TxAnswer × Storage)) : Prop where
  inside : ∀ tx, block.txs[blockIndex.toNat]? = some tx →
    ∃ after, outcome = .ok ((some tx, ⟨block.hash, blockIndex, block.nHeight⟩), after)
  beyond : block.txs.length ≤ blockIndex.toNat →
    outcome ≠ .error Tx.pastEnd ∧ ∀ tx place after, outcome ≠ .ok ((some tx, place), after)

section Positions
variable {block : Block} {blockIndex : UInt64} {outcome : Except Exception (TxAnswer × Storage)} {what : Exception}

theorem location_toNat : location block blockIndex.toNat = ⟨block.hash, blockIndex, block.nHeight⟩ := by
  rw [location, UInt64.ofNat_toNat]

theorem answers_of_found {tx : TxBlock} {after : Storage} (listed : block.txs[blockIndex.toNat]? = some tx)
    (found : outcome = .ok ((some tx, location block blockIndex.toNat), after)) : Answers block blockIndex outcome := by
  obtain ⟨inside, _⟩ := List.getElem?_eq_some_iff.mp listed
  constructor
  · intro other listedToo
    cases listed.symm.trans listedToo
    exact ⟨after, location_toNat ▸ found⟩
  · exact fun beyond => absurd inside (Nat.not_lt.mpr beyond)

theorem answers_of_refused (beyond : block.txs.length ≤ blockIndex.toNat) (refused : outcome = .error what) (other : what ≠ Tx.pastEnd) :
    Answers block blockIndex outcome := by
  rw [refused]
  constructor
  · intro tx listed
    obtain ⟨inside, _⟩ := List.getElem?_eq_some_iff.mp listed
    exact absurd inside (Nat.not_lt.mpr beyond)
  · exact fun _ => ⟨fun same => other (Except.error.inj same), nofun⟩

private theorem not_answers_of_refused {tx : TxBlock} (listed : block.txs[blockIndex.toNat]? = some tx) (refused : outcome = .error what) :
    ¬ Answers block blockIndex outcome := by
  intro answers
  obtain ⟨after, found⟩ := answers.inside tx listed
  cases refused.symm.trans found

theorem not_answers_of_pastEnd (beyond : block.txs.length ≤ blockIndex.toNat) (ended : outcome = .error Tx.pastEnd) :
    ¬ Answers block blockIndex outcome :=
  fun answers => (answers.beyond beyond).1 ended

end Positions

/-- A position that can be looked up: the cache of blocks hides what the cache of transactions does not have, and the bytes of a
block are read as far as there are entries. -/
def Served (storage : Storage) (block : Block) (blockIndex : UInt64) : Prop :=
  block ∈ storage.chain ∨
    if (storage.cachedBlocks block.hash).isSome then
      ∃ tx, block.txs[blockIndex.toNat]? = some tx ∧ (storage.cachedTxs tx.hash).isSome
    else blockIndex.toNat < block.txs.length + block.txValidators.length

section Indexes
variable {reader : BlockReader} {archive : Set Block} {storage : Storage} {db : DB} (filed : Filed reader archive storage db)
  {block : Block} {blockIndex : UInt64} (known : block ∈ archive)
include filed known

omit filed known in
/-- The list of the cached block is not checked for its end. -/
theorem txOfCachedBlock_eq (cached : storage.cachedBlocks block.hash = some block) : txOfCachedBlock storage block.hash blockIndex =
    match block.txs[blockIndex.toNat]? with
    | none => .error Tx.pastEnd
    | some tx =>
      match storage.cachedTxs tx.hash with
      | none => .error absent
      | some found => .ok ((some found.1, found.2), storage) := by
  rw [txOfCachedBlock, Index.get_of_some cached]
  dsimp only [bind, Except.bind]
  cases block.txs[blockIndex.toNat]? with
  | none => rfl
  | some tx =>
    dsimp only
    rw [Index.get]
    cases storage.cachedTxs tx.hash with
    | none => rfl
    | some found => rfl

theorem txOfCachedBlock_answers (cached : storage.cachedBlocks block.hash = some block) :
    Answers block blockIndex (txOfCachedBlock storage block.hash blockIndex) ↔
      ∃ tx, block.txs[blockIndex.toNat]? = some tx ∧ (storage.cachedTxs tx.hash).isSome := by
  rw [txOfCachedBlock_eq cached]
  cases listed : block.txs[blockIndex.toNat]? with
  | none =>
    constructor
    · exact fun answers => absurd answers (not_answers_of_pastEnd (List.getElem?_eq_none_iff.mp listed) rfl)
    · exact nofun
  | some tx =>
    dsimp only
    cases there : storage.cachedTxs tx.hash with
    | none =>
      constructor
      · exact fun answers => absurd answers (not_answers_of_refused listed rfl)
      · intro found
        obtain ⟨other, same, cachedToo⟩ := found
        cases same
        rw [there] at cachedToo
        cases cachedToo
    | some found =>
      have own := cached_tx filed known listed there
      constructor
      · exact fun _ => ⟨tx, rfl, by rw [there]; rfl⟩
      · intro _
        apply answers_of_found listed
        rw [own]

variable (slim : Slim block)
include slim

theorem txOfStoredBlock_eq (stored : Stored db block) :
    (∀ tx, block.txs[blockIndex.toNat]? = some tx → ∃ after, txOfStoredBlock reader storage db block.hash blockIndex =
      .ok ((some tx, location block blockIndex.toNat), after) ∧ Cached archive storage after) ∧
    (block.txs.length ≤ blockIndex.toNat → txOfStoredBlock reader storage db block.hash blockIndex =
      .error (if blockIndex.toNat < block.txs.length + block.txValidators.length then "Tx is not type 2" else Tx.pastEnd)) := by
  have storable := filed.storable block known
  have height : storage.blockHeightByHash.get block.hash absent = .ok block.nHeight :=
    Index.get_of_some (filed.mapped.heightOf.mpr ⟨block, known, rfl, rfl⟩) absent
  rw [txOfStoredBlock, get_of_lookup stored.bytes]
  constructor
  · intro tx listed
    obtain ⟨after, got, cached⟩ := cacheTx_ok filed known listed
    refine ⟨after, ?_, cached⟩
    rw [location_toNat] at got ⊢
    exact bind_ok.mpr ⟨tx, stored_tx storable slim listed, bind_ok.mpr ⟨block.nHeight, height, got⟩⟩
  · intro beyond
    split
    case isTrue inside =>
      rw [stored_validator storable slim beyond inside]
      rfl
    case isFalse outside =>
      rw [stored_past storable slim (Nat.not_lt.mp outside)]
      rfl

theorem txOfStoredBlock_answers (stored : Stored db block) :
    Answers block blockIndex (txOfStoredBlock reader storage db block.hash blockIndex) ↔
      blockIndex.toNat < block.txs.length + block.txValidators.length := by
  obtain ⟨found, refused⟩ := @txOfStoredBlock_eq reader archive storage db filed block blockIndex known slim stored
  cases listed : block.txs[blockIndex.toNat]? with
  | some tx =>
    obtain ⟨after, got, _⟩ := found tx listed
    obtain ⟨inside, _⟩ := List.getElem?_eq_some_iff.mp listed
    constructor
    · exact fun _ => Nat.lt_add_right _ inside
    · exact fun _ => answers_of_found listed got
  | none =>
    have beyond := List.getElem?_eq_none_iff.mp listed
    have answer := refused beyond
    constructor
    · intro answers
      by_contra outside
      rw [if_neg outside] at answer
      exact not_answers_of_pastEnd beyond answer answers
    · intro inside
      rw [if_pos inside] at answer
      exact answers_of_refused beyond answer (by decide)

omit slim known in
theorem chained_answers (inside : block ∈ storage.chain) {rest : TxBlock → TxLocation → Except Exception (TxAnswer × Storage)}
    (passes : ∀ tx, rest tx (location block blockIndex.toNat) = .ok ((some tx, location block blockIndex.toNat), storage)) :
    Answers block blockIndex (do
      let block ← storage.blockByHash.get block.hash absent
      let transaction ← txInMemory block blockIndex
      let location ← storage.txByHash.get transaction.hash absent
      rest transaction location) := by
  have got : storage.blockByHash.get block.hash absent = .ok block := Index.get_of_some (chained filed inside) absent
  cases listed : block.txs[blockIndex.toNat]? with
  | some tx =>
    refine answers_of_found listed (bind_ok.mpr ⟨block, got, bind_ok.mpr ⟨tx, ?_, bind_ok.mpr ⟨_, ?_, passes tx⟩⟩⟩)
    · rw [txInMemory, listed]
    · exact Index.get_of_some (chained_tx filed inside listed) absent
  | none =>
    refine @answers_of_refused block _ _ "Tx index out of bounds" (List.getElem?_eq_none_iff.mp listed) ?_ (by decide)
    rw [got]
    dsimp only [bind, Except.bind]
    rw [txInMemory, listed]

theorem getTxByBlockHashAndIndex_answers : Answers block blockIndex (getTxByBlockHashAndIndex reader storage db block.hash blockIndex) ↔
    Served storage block blockIndex := by
  have placed := place filed known
  unfold getTxByBlockHashAndIndex Served
  generalize blockExistsInternal storage db block.hash = status at placed ⊢
  cases placed with
  | onChain inside =>
    constructor
    · exact fun _ => .inl inside
    · intro _
      apply chained_answers filed inside
      intro tx
      rw [if_neg]
      · rfl
      · rw [location_toNat]
        exact fun differ => differ.elim (fun other => other rfl) fun other => other rfl
  | onCache outside cached =>
    rw [cached, Option.isSome_some, if_pos rfl, or_iff_right outside]
    exact txOfCachedBlock_answers filed known cached
  | onDB outside uncached stored =>
    rw [uncached, Option.isSome_none, if_neg Bool.false_ne_true, or_iff_right outside]
    exact txOfStoredBlock_answers filed known slim stored

theorem getTxByBlockNumberAndIndex_answers :
    Answers block blockIndex (getTxByBlockNumberAndIndex reader storage db block.nHeight blockIndex) ↔ Served storage block blockIndex := by
  have placed := place filed known
  have hash := mapped_hash filed known
  unfold getTxByBlockNumberAndIndex Served
  rw [place_height filed known, hash]
  generalize blockExistsInternal storage db block.hash = status at placed ⊢
  cases placed with
  | onChain inside =>
    constructor
    · exact fun _ => .inl inside
    · intro _
      exact chained_answers filed inside fun tx => rfl
  | onCache outside cached =>
    rw [cached, Option.isSome_some, if_pos rfl, or_iff_right outside]
    exact txOfCachedBlock_answers filed known cached
  | onDB outside uncached stored =>
    rw [uncached, Option.isSome_none, if_neg Bool.false_ne_true, or_iff_right outside]
    exact txOfStoredBlock_answers filed known slim stored

end Indexes

section Queries
variable {reader : BlockReader} {archive : Set Block} {storage after : Storage} {db : DB} (filed : Filed reader archive storage db)
include filed

theorem cached_indexed (cached : Cached archive storage after) : Indexed after ∧ Mapped archive after ∧ after.chain = storage.chain := by
  obtain ⟨linked, distinct, blocks, txs, heights⟩ := filed.indexed
  obtain ⟨hashOf, heightOf⟩ := filed.mapped
  cases cached with
  | nothing => exact ⟨⟨linked, distinct, blocks, txs, heights⟩, ⟨hashOf, heightOf⟩, rfl⟩
  | block => exact ⟨⟨linked, distinct, blocks, txs, heights⟩, ⟨hashOf, heightOf⟩, rfl⟩
  | tx => exact ⟨⟨linked, distinct, blocks, txs, heights⟩, ⟨hashOf, heightOf⟩, rfl⟩

theorem cached_filed (cached : Cached archive storage after) : Filed reader archive after db := by
  obtain ⟨indexed, mapped, chain⟩ := cached_indexed filed cached
  constructor
  · exact indexed
  · exact mapped
  · exact filed.distinct
  · exact filed.storable
  · exact filed.only
  · rw [chain]
    exact filed.inside
  · rw [chain]
    exact filed.rest
  · intro hash other found
    cases cached with
    | nothing => exact filed.cachedBlocks found
    | tx => exact filed.cachedBlocks found
    | @block block known =>
      cases (Index.insert_once_iff fun first older => cached_block filed known older).mp found with
      | inl older => exact filed.cachedBlocks older
      | inr new =>
        obtain ⟨rfl, rfl⟩ := new
        exact ⟨known, rfl⟩
  · intro txHash other place found
    cases cached with
    | nothing => exact filed.cachedTxs found
    | block => exact filed.cachedTxs found
    | @tx block i tx known listed =>
      cases (Index.insert_once_iff fun first older => cached_tx filed known listed older).mp found with
      | inl older => exact filed.cachedTxs older
      | inr new =>
        obtain ⟨rfl, same⟩ := new
        cases same
        exact ⟨rfl, block, known, i, listed, rfl⟩

omit filed in
theorem left_unchanged {α : Type} {outcome : Except Exception (α × Storage)}
    (unchanged : ∀ answer after, outcome = .ok (answer, after) → after = storage) : Cached archive storage (storage.left outcome) := by
  cases outcome with
  | error what => exact .nothing
  | ok found =>
    obtain ⟨answer, after⟩ := found
    cases unchanged answer after rfl
    exact .nothing

omit filed in
theorem left_ok {α : Type} {outcome : Except Exception (α × Storage)} {answer : α} (found : outcome = .ok (answer, after)) :
    storage.left outcome = after := by
  rw [found, Storage.left]

theorem txOfStoredBlock_left {block : Block} {blockIndex : UInt64} (known : block ∈ archive) (slim : Slim block) (stored : Stored db block) :
    Cached archive storage (storage.left (txOfStoredBlock reader storage db block.hash blockIndex)) := by
  obtain ⟨found, refused⟩ := @txOfStoredBlock_eq reader archive storage db filed block blockIndex known slim stored
  cases listed : block.txs[blockIndex.toNat]? with
  | some tx =>
    obtain ⟨after, got, cached⟩ := found tx listed
    rw [left_ok got]
    exact cached
  | none =>
    rw [refused (List.getElem?_eq_none_iff.mp listed)]
    exact .nothing

omit filed in
theorem txOfCachedBlock_left {block : Block} {blockIndex : UInt64} (cached : storage.cachedBlocks block.hash = some block) :
    Cached archive storage (storage.left (txOfCachedBlock storage block.hash blockIndex)) := by
  apply left_unchanged
  intro answer after found
  rw [txOfCachedBlock_eq cached] at found
  split at found
  · cases found
  · split at found
    · cases found
    · cases found
      rfl

theorem ask_cached (slim : ∀ block ∈ archive, Slim block) (query : Query) : Cached archive storage (ask reader storage db query) := by
  cases query with
  | getBlock hash =>
    by_cases some : ∃ block ∈ archive, block.hash = hash
    · obtain ⟨block, known, rfl⟩ := some
      obtain ⟨after, got, cached⟩ := getBlock_known filed known
      rw [ask, left_ok got]
      exact cached
    · rw [ask, getBlock_unknown filed fun block known same => some ⟨block, known, same⟩]
      exact .nothing
  | getBlockAt height =>
    by_cases some : ∃ block ∈ archive, block.nHeight = height
    · obtain ⟨block, known, rfl⟩ := some
      obtain ⟨after, got, cached⟩ := getBlockAt_known filed known
      rw [ask, left_ok got]
      exact cached
    · rw [ask, getBlockAt_unknown filed fun block known same => some ⟨block, known, same⟩]
      exact .nothing
  | getTx txHash =>
    by_cases some : ∃ block ∈ archive, txHash ∈ block.txs.map TxBlock.hash
    · obtain ⟨block, known, member⟩ := some
      obtain ⟨tx, inside, rfl⟩ := List.mem_map.mp member
      obtain ⟨i, listed⟩ := List.getElem?_of_mem inside
      obtain ⟨after, got, cached⟩ := getTx_known filed known (slim block known) listed
      rw [ask, left_ok got]
      exact cached
    · rw [ask, getTx_unknown filed fun block known member => some ⟨block, known, member⟩]
      exact .nothing
  | getTxByBlockHashAndIndex blockHash blockIndex =>
    by_cases some : ∃ block ∈ archive, block.hash = blockHash
    · obtain ⟨block, known, rfl⟩ := some
      have placed := place filed known
      rw [ask]
      unfold getTxByBlockHashAndIndex
      generalize blockExistsInternal storage db block.hash = status at placed ⊢
      cases placed with
      | onChain inside =>
        apply left_unchanged
        intro answer after found
        obtain ⟨_, _, found⟩ := bind_ok.mp found
        obtain ⟨_, _, found⟩ := bind_ok.mp found
        obtain ⟨_, _, found⟩ := bind_ok.mp found
        split at found
        · cases found
        · cases found
          rfl
      | onCache _ cached => exact txOfCachedBlock_left cached
      | onDB _ _ stored => exact txOfStoredBlock_left filed known (slim block known) stored
    · rw [ask, getTxByBlockHashAndIndex, unknown_hash filed fun block known same => some ⟨block, known, same⟩]
      exact .nothing
  | getTxByBlockNumberAndIndex blockHeight blockIndex =>
    by_cases some : ∃ block ∈ archive, block.nHeight = blockHeight
    · obtain ⟨block, known, rfl⟩ := some
      have placed := place filed known
      have hash := mapped_hash filed known
      rw [ask]
      unfold getTxByBlockNumberAndIndex
      rw [place_height filed known, hash]
      generalize blockExistsInternal storage db block.hash = status at placed ⊢
      cases placed with
      | onChain inside =>
        apply left_unchanged
        intro answer after found
        obtain ⟨_, _, found⟩ := bind_ok.mp found
        obtain ⟨_, _, found⟩ := bind_ok.mp found
        obtain ⟨_, _, found⟩ := bind_ok.mp found
        obtain ⟨_, _, found⟩ := bind_ok.mp found
        cases found
        rfl
      | onCache _ cached => exact txOfCachedBlock_left cached
      | onDB _ _ stored => exact txOfStoredBlock_left filed known (slim block known) stored
    · rw [ask, getTxByBlockNumberAndIndex, unknown_height filed fun block known same => some ⟨block, known, same⟩]
      exact .nothing

end Queries
end OrbiterSDK.Proofs.Lookups
