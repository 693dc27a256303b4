import OrbiterSDK.Proofs.ChainIndex
import OrbiterSDK.Proofs.Saved
import OrbiterSDK.Proofs.BlockEntries

/-! The blocks that a storage knows, in memory or in its database. -/

namespace OrbiterSDK.Proofs.Archive
open Lib PrefixStore Storage ChainIndex
open Saved hiding latestKey

theorem heightKey_inj {first second : UInt64} (same : heightKey first = heightKey second) : first = second :=
  Except.ok.inj ((uint64_read.mpr rfl).symm.trans (uint64_read.mpr same))

theorem hashKey_ne_latest (hash : Hash) : hash.get ≠ latestKey := by
  intro same
  have length : hash.get.length = 32 := Hash.get_length hash
  rw [same] at length
  exact absurd length (by decide +kernel)

theorem blocks_apart : Apart DBPrefix.blocks DBPrefix.blockHeightMaps ∧ Apart DBPrefix.blocks DBPrefix.txToBlocks ∧
    Apart DBPrefix.blockHeightMaps DBPrefix.txToBlocks := by decide

theorem get_of_lookup {db : DB} {pfx key value : Bytes} (found : db.lookup (pfx ++ key) = some value) : db.get key pfx = value := by
  rw [DB.get, found]
  rfl

theorem has_iff {db : DB} {pfx key : Bytes} : db.has key pfx = true ↔ ∃ value, db.lookup (pfx ++ key) = some value :=
  Option.isSome_iff_exists

/-- How the destructor writes an entry of the maps for heights. -/
def mapEntry (map : UInt64 × Hash) : Bytes × Bytes := (heightKey map.1, map.2.get)

theorem readMap_mapEntry : Decodes readMap mapEntry := by
  intro entry map
  constructor
  · intro read
    obtain ⟨height, key, read⟩ := bind_ok.mp read
    obtain ⟨hash, value, read⟩ := bind_ok.mp read
    cases read
    exact Prod.ext (uint64_read.mp key) (hash_read.mp value)
  · intro same
    rw [same]
    exact bind_ok.mpr ⟨map.1, uint64_read.mpr rfl, bind_ok.mpr ⟨map.2, hash_read_get map.2, rfl⟩⟩

/-- A block that comes back from its bytes. -/
structure Storable (reader : BlockReader) (block : Block) : Prop where
  reads : reader.block block.serializeBlock = .ok block
  addressable : block.serializeBlock.length < 2 ^ 63
  few : block.txs.length < 2 ^ 32

/-- Blocks that share no hash, no height and no transaction. -/
structure Distinct (archive : Set Block) : Prop where
  hashes : ∀ {first second}, first ∈ archive → second ∈ archive → first.hash = second.hash → first = second
  heights : ∀ {first second}, first ∈ archive → second ∈ archive → first.nHeight = second.nHeight → first = second
  txs : ∀ block ∈ archive, (block.txs.map TxBlock.hash).Nodup
  apart : ∀ {first second txHash}, first ∈ archive → second ∈ archive → txHash ∈ first.txs.map TxBlock.hash →
    txHash ∈ second.txs.map TxBlock.hash → first = second

theorem Distinct.same_place {archive : Set Block} (distinct : Distinct archive) {block other : Block} {i k : Nat} {tx tx' : TxBlock}
    (known : block ∈ archive) (listed : block.txs[i]? = some tx) (knownToo : other ∈ archive) (listedToo : other.txs[k]? = some tx')
    (same : tx'.hash = tx.hash) : other = block ∧ k = i ∧ tx' = tx := by
  have here : tx.hash ∈ block.txs.map TxBlock.hash := List.mem_map_of_mem (List.mem_of_getElem? listed)
  have there : tx'.hash ∈ other.txs.map TxBlock.hash := List.mem_map_of_mem (List.mem_of_getElem? listedToo)
  have equal : other = block := distinct.apart knownToo known there (same ▸ here)
  cases equal
  have first : (block.txs.map TxBlock.hash)[i]? = some tx.hash := by rw [List.getElem?_map, listed]; rfl
  have second : (block.txs.map TxBlock.hash)[k]? = some tx.hash := by rw [List.getElem?_map, listedToo, ← same]; rfl
  obtain ⟨inside, _⟩ := List.getElem?_eq_some_iff.mp first
  have index : i = k := (List.getElem?_inj inside (distinct.txs block known)).mp (first.trans second.symm)
  cases index
  exact ⟨rfl, rfl, Option.some.inj (listedToo.symm.trans listed)⟩

/-- The database has all that the destructor writes of a block. -/
def Stored (db : DB) (block : Block) : Prop := ∀ entry ∈ blockEntries block, db.lookup entry.1 = some entry.2

/-- The database has nothing of other blocks. -/
structure Only (db : DB) (archive : Set Block) : Prop where
  blocks : ∀ {hash value}, db.lookup (DBPrefix.blocks ++ Hash.get hash) = some value →
    ∃ block ∈ archive, block.hash = hash ∧ value = block.serializeBlock
  heights : ∀ {key value}, db.lookup (DBPrefix.blockHeightMaps ++ key) = some value →
    ∃ block ∈ archive, key = heightKey block.nHeight ∧ value = block.hash.get
  txs : ∀ {txHash value}, db.lookup (DBPrefix.txToBlocks ++ Hash.get txHash) = some value →
    ∃ block ∈ archive, ∃ location, (txHash, location) ∈ txEntries block ∧ value = locationBytes location

/-- The maps for heights know all blocks. -/
structure Mapped (archive : Set Block) (storage : Storage) : Prop where
  hashOf : ∀ {height hash}, storage.blockHashByHeight height = some hash ↔ ∃ block ∈ archive, block.nHeight = height ∧ block.hash = hash
  heightOf : ∀ {height hash}, storage.blockHeightByHash hash = some height ↔ ∃ block ∈ archive, block.nHeight = height ∧ block.hash = hash

/-- The blocks are in the chain or in the database, and the cache has nothing that is not in them. -/
structure Filed (reader : BlockReader) (archive : Set Block) (storage : Storage) (db : DB) : Prop where
  indexed : Indexed storage
  mapped : Mapped archive storage
  distinct : Distinct archive
  storable : ∀ block ∈ archive, Storable reader block
  only : Only db archive
  inside : ∀ block ∈ storage.chain, block ∈ archive
  rest : ∀ block ∈ archive, block ∈ storage.chain ∨ Stored db block
  cachedBlocks : ∀ {hash block}, storage.cachedBlocks hash = some block → block ∈ archive ∧ block.hash = hash
  cachedTxs : ∀ {txHash tx location}, storage.cachedTxs txHash = some (tx, location) → tx.hash = txHash ∧
    ∃ block ∈ archive, ∃ i, block.txs[i]? = some tx ∧ location = ⟨block.hash, UInt64.ofNat i, block.nHeight⟩

section Stores
variable {db : DB} {block : Block}

theorem Stored.bytes (stored : Stored db block) : db.lookup (DBPrefix.blocks ++ block.hash.get) = some block.serializeBlock :=
  stored _ List.mem_cons_self

theorem Stored.height (stored : Stored db block) :
    db.lookup (DBPrefix.blockHeightMaps ++ heightKey block.nHeight) = some block.hash.get :=
  stored _ (List.mem_cons_of_mem _ List.mem_cons_self)

theorem Stored.tx (stored : Stored db block) {txHash : Hash} {location : TxLocation} (listed : (txHash, location) ∈ txEntries block) :
    db.lookup (DBPrefix.txToBlocks ++ txHash.get) = some (locationBytes location) := by
  apply stored (DBPrefix.txToBlocks ++ txHash.get, locationBytes location)
  apply List.mem_cons_of_mem
  apply List.mem_cons_of_mem
  exact List.mem_map.mpr ⟨(txHash, location), listed, rfl⟩

end Stores

/-- A database with a history of the chain. The entries of the transactions of the newest blocks may be missing. -/
structure Recorded (reader : BlockReader) (genesis : Block) (history : List Block) (db : DB) : Prop where
  first : ∃ block, history.head? = some block ∧ block.nHeight = 0 ∧ genesis.hash = block.hash ∧ genesis.validatorSig = block.validatorSig
  linked : history.IsChain Follows
  distinct : Distinct {block | block ∈ history}
  storable : ∀ block ∈ history, Storable reader block
  only : Only db {block | block ∈ history}
  blocks : ∀ block ∈ history, db.lookup (DBPrefix.blocks ++ block.hash.get) = some block.serializeBlock
  heights : ∀ block ∈ history, db.lookup (DBPrefix.blockHeightMaps ++ heightKey block.nHeight) = some block.hash.get
  older : ∀ block ∈ history, block ∈ history.drop (history.length - 501) ∨ Stored db block
  latest : ∃ block, history.getLast? = some block ∧ db.lookup (DBPrefix.blocks ++ latestKey) = some block.serializeBlock

/-- A database without a chain. -/
def Fresh (db : DB) : Prop := ∀ key, db.lookup (DBPrefix.blocks ++ key) = none ∧ db.lookup (DBPrefix.blockHeightMaps ++ key) = none ∧
  db.lookup (DBPrefix.txToBlocks ++ key) = none

/-- A database that the constructor can take. -/
inductive Consistent (reader : BlockReader) (genesis : Block) : List Block → DB → Prop where
  | fresh {db : DB} (fresh : Fresh db) (height : genesis.nHeight = 0) (storable : Storable reader genesis)
      (txs : (genesis.txs.map TxBlock.hash).Nodup) : Consistent reader genesis [genesis] db
  | recorded {history : List Block} {db : DB} (recorded : Recorded reader genesis history db) : Consistent reader genesis history db

variable {reader : BlockReader} {genesis : Block} {history : List Block} {db : DB}

theorem lookup_put {db : DB} {pfx other key value : Bytes} (apart : Apart other pfx) (rest : Bytes) :
    (db.put key value pfx).lookup (other ++ rest) = db.lookup (other ++ rest) :=
  AList.lookup_insert_ne (apart.ne rest key)

theorem lookup_put_self {db : DB} {pfx key value : Bytes} : (db.put key value pfx).lookup (pfx ++ key) = some value := AList.lookup_insert _

theorem lookup_put_ne {db : DB} {pfx key other value : Bytes} (differ : other ≠ key) :
    (db.put key value pfx).lookup (pfx ++ other) = db.lookup (pfx ++ other) :=
  AList.lookup_insert_ne fun same => differ (List.append_cancel_left same)

theorem writeGenesis_block {hash : Hash} : (writeGenesis genesis db).lookup (DBPrefix.blocks ++ hash.get) =
    if hash = genesis.hash then some genesis.serializeBlock else db.lookup (DBPrefix.blocks ++ hash.get) := by
  unfold writeGenesis
  split
  case isTrue same =>
    rw [same]
    exact lookup_put_self
  case isFalse other =>
    rw [lookup_put_ne fun same => other (Hash.get_injective same), lookup_put (by decide), lookup_put_ne (hashKey_ne_latest hash)]

theorem writeGenesis_height {key : Bytes} : (writeGenesis genesis db).lookup (DBPrefix.blockHeightMaps ++ key) =
    if key = heightKey genesis.nHeight then some genesis.hash.get else db.lookup (DBPrefix.blockHeightMaps ++ key) := by
  unfold writeGenesis
  dsimp only
  rw [lookup_put (by decide)]
  split
  case isTrue same =>
    rw [same]
    exact lookup_put_self
  case isFalse other => rw [lookup_put_ne other, lookup_put (by decide)]

private theorem writeGenesis_tx {key : Bytes} : (writeGenesis genesis db).lookup (DBPrefix.txToBlocks ++ key) = db.lookup (DBPrefix.txToBlocks ++ key) := by
  unfold writeGenesis
  dsimp only
  rw [lookup_put (by decide), lookup_put (by decide), lookup_put (by decide)]

private theorem writeGenesis_latest : (writeGenesis genesis db).lookup (DBPrefix.blocks ++ latestKey) = some genesis.serializeBlock := by
  unfold writeGenesis
  dsimp only
  rw [lookup_put_ne (hashKey_ne_latest genesis.hash).symm, lookup_put (by decide)]
  exact lookup_put_self

theorem writeGenesis_recorded (fresh : Fresh db) (height : genesis.nHeight = 0) (storable : Storable reader genesis)
    (txs : (genesis.txs.map TxBlock.hash).Nodup) : Recorded reader genesis [genesis] (writeGenesis genesis db) := by
  have single {block : Block} (member : block ∈ [genesis]) : block = genesis := List.mem_singleton.mp member
  constructor
  · exact ⟨genesis, rfl, height, rfl, rfl⟩
  · exact List.isChain_singleton genesis
  · constructor
    · exact fun first second _ => (single first).trans (single second).symm
    · exact fun first second _ => (single first).trans (single second).symm
    · intro block member
      exact single member ▸ txs
    · exact fun first second _ _ => (single first).trans (single second).symm
  · intro block member
    exact single member ▸ storable
  · constructor
    · intro hash value found
      rw [writeGenesis_block] at found
      split at found
      case isTrue same => exact ⟨genesis, List.mem_singleton_self _, same.symm, (Option.some.inj found).symm⟩
      case isFalse => cases (fresh _).1.symm.trans found
    · intro key value found
      rw [writeGenesis_height] at found
      split at found
      case isTrue same => exact ⟨genesis, List.mem_singleton_self _, same, (Option.some.inj found).symm⟩
      case isFalse => cases (fresh _).2.1.symm.trans found
    · intro txHash value found
      rw [writeGenesis_tx] at found
      cases (fresh _).2.2.symm.trans found
  · intro block member
    rw [single member]
    exact writeGenesis_block.trans (if_pos rfl)
  · intro block member
    rw [single member]
    exact writeGenesis_height.trans (if_pos rfl)
  · intro block member
    apply Or.inl
    rw [List.length_singleton, Nat.sub_eq_zero_of_le (by omega)]
    exact member
  · exact ⟨genesis, rfl, writeGenesis_latest⟩

theorem putGenesis_recorded (consistent : Consistent reader genesis history db) :
    ∃ left, putGenesis genesis db = .ok left ∧ Recorded reader genesis history left := by
  cases consistent with
  | fresh fresh height storable txs =>
    have unknown : ¬ db.has latestKey DBPrefix.blocks = true := by
      intro known
      obtain ⟨value, found⟩ := has_iff.mp known
      cases (fresh latestKey).1.symm.trans found
    refine ⟨writeGenesis genesis db, ?_, writeGenesis_recorded fresh height storable txs⟩
    rw [putGenesis, if_neg unknown, if_neg (not_not.mpr height)]
  | recorded recorded =>
    obtain ⟨block, _, found⟩ := recorded.latest
    refine ⟨db, ?_, recorded⟩
    rw [putGenesis, if_pos (has_iff.mpr ⟨_, found⟩)]

theorem height_of_index {first : Block} {rest : List Block} (linked : (first :: rest).IsChain Follows) :
    ∀ {k : Nat} {block : Block}, (first :: rest)[k]? = some block → block.nHeight.toNat = first.nHeight.toNat + k := by
  induction rest generalizing first with
  | nil =>
    intro k block here
    cases k with
    | zero =>
      cases here
      rfl
    | succ k => cases here
  | cons second rest ih =>
    intro k block here
    obtain ⟨follows, linked⟩ := List.isChain_cons_cons.mp linked
    cases k with
    | zero =>
      cases here
      rfl
    | succ k =>
      rw [ih linked here, follows.2]
      omega

theorem Recorded.height (recorded : Recorded reader genesis history db) {k : Nat} {block : Block} (here : history[k]? = some block) :
    block.nHeight.toNat = k := by
  obtain ⟨first, head, zero, _⟩ := recorded.first
  obtain ⟨rest, rfl⟩ := List.head?_eq_some_iff.mp head
  have height := height_of_index recorded.linked here
  rw [zero] at height
  exact height.trans (Nat.zero_add k)

/-- The maps after all entries of the database have been put in. -/
theorem insertMaps (maps : List (UInt64 × Hash)) : ∀ storage : Storage, maps.foldl insertMap storage = { storage with
    blockHashByHeight := storage.blockHashByHeight.insertAll maps
    blockHeightByHash := storage.blockHeightByHash.insertAll (maps.map Prod.swap) } := by
  induction maps with
  | nil => exact fun _ => rfl
  | cons map rest ih => exact fun storage => ih (insertMap storage map)

theorem Recorded.decoded (recorded : Recorded reader genesis history db) : ∃ maps,
    (db.getBatch DBPrefix.blockHeightMaps).mapM readMap = .ok maps ∧
      ∀ height hash, (height, hash) ∈ maps ↔ ∃ block ∈ history, block.nHeight = height ∧ block.hash = hash := by
  obtain ⟨maps, decoded⟩ := decode_ok readMap_mapEntry fun {key value} found => by
    obtain ⟨block, _, here, there⟩ := recorded.only.heights found
    exact ⟨(block.nHeight, block.hash), Prod.ext here there⟩
  refine ⟨maps, decoded, fun height hash => ?_⟩
  apply (mem_decoded readMap_mapEntry decoded).trans
  constructor
  · intro found
    obtain ⟨block, inside, key, value⟩ := recorded.only.heights found
    exact ⟨block, inside, (heightKey_inj key).symm, (Hash.get_injective value).symm⟩
  · intro listed
    obtain ⟨block, inside, height, hash⟩ := listed
    rw [← height, ← hash]
    exact recorded.heights block inside

theorem Recorded.maps (recorded : Recorded reader genesis history db) : ∃ maps,
    (db.getBatch DBPrefix.blockHeightMaps).mapM readMap = .ok maps ∧ Mapped {block | block ∈ history} (maps.foldl insertMap {}) := by
  obtain ⟨maps, decoded, member⟩ := recorded.decoded
  refine ⟨maps, decoded, ?_⟩
  rw [insertMaps]
  constructor
  · intro height hash
    apply (Index.insertAll_empty_iff ?_).trans (member height hash)
    intro height first second left right
    obtain ⟨block, inside, here, rfl⟩ := (member height first).mp left
    obtain ⟨other, insideToo, there, rfl⟩ := (member height second).mp right
    exact congrArg Block.hash (recorded.distinct.heights inside insideToo (here.trans there.symm))
  · intro height hash
    have swapped {height : UInt64} {hash : Hash} : (hash, height) ∈ maps.map Prod.swap ↔ (height, hash) ∈ maps := by simp
    apply (Index.insertAll_empty_iff ?_).trans (swapped.trans (member height hash))
    intro hash first second left right
    obtain ⟨block, inside, rfl, here⟩ := (member first hash).mp (swapped.mp left)
    obtain ⟨other, insideToo, rfl, there⟩ := (member second hash).mp (swapped.mp right)
    exact congrArg Block.nHeight (recorded.distinct.hashes inside insideToo (here.trans there.symm))

section Additions
variable {archive : Set Block} {storage : Storage} {block : Block} (mapped : Mapped archive storage)
  (distinct : Distinct (insert block archive))
include mapped distinct

/-- A block that shares nothing with the others and is not in the chain can be told from those of the chain. -/
theorem fits_of_archive (indexed : Indexed storage) (inside : ∀ block ∈ storage.chain, block ∈ archive)
    (absent : block ∉ storage.chain) : Fits storage block := by
  have here : block ∈ insert block archive := Set.mem_insert block archive
  have known {other : Block} (member : other ∈ archive) : other ∈ insert block archive := Set.mem_insert_of_mem block member
  constructor
  · cases found : storage.blockHashByHeight block.nHeight with
    | none => exact .inl rfl
    | some hash =>
      obtain ⟨other, member, height, same⟩ := mapped.hashOf.mp found
      have equal : other = block := distinct.heights (known member) here height
      exact .inr (congrArg some (same.symm.trans (congrArg Block.hash equal)))
  · cases found : storage.blockByHash block.hash with
    | none => rfl
    | some other =>
      obtain ⟨there, same⟩ := indexed.blocks.mp found
      have equal : other = block := distinct.hashes (known (inside other there)) here same
      exact absurd (equal ▸ there) absent
  · exact distinct.txs block here
  · intro tx member
    cases found : storage.txByHash tx.hash with
    | none => rfl
    | some location =>
      obtain ⟨other, there, listed⟩ := indexed.txs.mp found
      have equal : other = block :=
        distinct.apart (known (inside other there)) here (mem_txEntries_hash listed) (List.mem_map_of_mem member)
      exact absurd (equal ▸ there) absent

theorem added_mapped (chain : List Block) : Mapped (insert block archive) (addToMappings { storage with chain } block) := by
  have here : block ∈ insert block archive := Set.mem_insert block archive
  have known {other : Block} (member : other ∈ archive) : other ∈ insert block archive := Set.mem_insert_of_mem block member
  constructor
  · intro height hash
    rw [Set.exists_mem_insert, or_comm, ← mapped.hashOf, eq_comm (a := block.nHeight)]
    apply Index.insert_once_iff
    intro first found
    obtain ⟨other, member, at_, same⟩ := mapped.hashOf.mp found
    exact same.symm.trans (congrArg Block.hash (distinct.heights (known member) here at_))
  · intro height hash
    rw [Set.exists_mem_insert, or_comm, ← mapped.heightOf, and_comm, eq_comm (a := block.hash)]
    apply Index.insert_once_iff
    intro first found
    obtain ⟨other, member, at_, same⟩ := mapped.heightOf.mp found
    exact at_.symm.trans (congrArg Block.nHeight (distinct.hashes (known member) here same))

end Additions

/-- A storage that has got so many of the newest blocks. -/
structure Loading (history : List Block) (count : Nat) (storage : Storage) : Prop where
  indexed : Indexed storage
  mapped : Mapped {block | block ∈ history} storage
  chain : storage.chain = history.drop (history.length - count)
  cachedBlocks : storage.cachedBlocks = fun _ => none
  cachedTxs : storage.cachedTxs = fun _ => none

theorem follows_sub {before after : Block} (follows : Follows before after) :
    after.nHeight ≠ 0 ∧ before.nHeight = after.nHeight - 1 := by
  have height := follows.2
  have bound := after.nHeight.toNat_lt
  have positive : after.nHeight ≠ 0 := by
    intro zero
    rw [zero] at height
    exact absurd height.symm (Nat.succ_ne_zero _)
  refine ⟨positive, UInt64.toNat_inj.mp ?_⟩
  have one : (1 : UInt64) ≤ after.nHeight := by
    apply UInt64.le_iff_toNat_le.mpr
    change 1 ≤ after.nHeight.toNat
    omega
  rw [UInt64.toNat_sub_of_le _ _ one]
  change _ = after.nHeight.toNat - 1
  omega

theorem appendRecent_ok (recorded : Recorded reader genesis history db) {depth : UInt64} (deep : depth.toNat + 1 = history.length)
    (turns : Nat) : ∀ {i : UInt64} {storage : Storage}, i.toNat + turns ≤ history.length → i.toNat + turns ≤ 501 →
      Loading history i.toNat storage → ∃ final, appendRecent reader db depth turns i storage = .ok final ∧
        Loading history (i.toNat + turns) final := by
  induction turns with
  | zero => exact fun _ _ loading => ⟨_, rfl, loading⟩
  | succ turns ih =>
    intro i storage enough few loading
    have place : history.length - (i.toNat + 1) < history.length := by omega
    obtain ⟨block, here⟩ : ∃ block, history[history.length - (i.toNat + 1)]? = some block := ⟨_, List.getElem?_eq_getElem place⟩
    have listed : block ∈ history := List.mem_of_getElem? here
    have back : history.drop (history.length - (i.toNat + 1)) = block :: storage.chain := by
      rw [List.drop_eq_getElem_cons place, loading.chain]
      have next : history.length - (i.toNat + 1) + 1 = history.length - i.toNat := by omega
      rw [next, (List.getElem?_eq_some_iff.mp here).2]
    have height : depth - i = block.nHeight := by
      have below : i ≤ depth := UInt64.le_iff_toNat_le.mpr (by omega)
      apply UInt64.toNat_inj.mp
      rw [UInt64.toNat_sub_of_le _ _ below, recorded.height here]
      omega
    have inside : ∀ other ∈ storage.chain, other ∈ history := by
      rw [loading.chain]
      exact fun other member => List.mem_of_mem_drop member
    have absent : block ∉ storage.chain := by
      intro inside
      rw [loading.chain] at inside
      obtain ⟨k, later⟩ := List.getElem?_of_mem inside
      rw [List.getElem?_drop] at later
      have first := recorded.height here
      have second := recorded.height later
      omega
    have again : insert block {block | block ∈ history} = {block | block ∈ history} := Set.insert_eq_of_mem listed
    have mapped := added_mapped loading.mapped (again.symm ▸ recorded.distinct) (block :: storage.chain)
    rw [again] at mapped
    have linked : (block :: storage.chain).IsChain Follows := back ▸ recorded.linked.drop _
    have looked : storage.blockHashByHeight.getOrInsert (depth - i) 0 = (block.hash, storage.blockHashByHeight) :=
      Index.getOrInsert_of_some (loading.mapped.hashOf.mpr ⟨block, listed, height.symm, rfl⟩) 0
    have pushed : pushFront storage block = .ok (addToMappings { storage with chain := block :: storage.chain } block) := by
      apply pushFront_ok.mpr
      refine ⟨fun front first => ?_, rfl⟩
      have follows := linked.rel_head? first
      exact ⟨follows.1, (follows_sub follows).2⟩
    have indexed := pushFront_indexed loading.indexed
      (fits_of_archive loading.mapped (again.symm ▸ recorded.distinct) loading.indexed inside absent)
      (fun front first => (follows_sub (linked.rel_head? first)).1) pushed
    have one : (i + 1).toNat = i.toNat + 1 := by
      rw [UInt64.toNat_add]
      change (i.toNat + 1) % 2 ^ 64 = _
      omega
    have sum : i.toNat + (turns + 1) = (i + 1).toNat + turns := by omega
    obtain ⟨final, rest, loaded⟩ := @ih (i + 1) (addToMappings { storage with chain := block :: storage.chain } block)
      (by omega) (by omega) ⟨indexed, mapped, one ▸ back.symm, loading.cachedBlocks, loading.cachedTxs⟩
    refine ⟨final, ?_, sum ▸ loaded⟩
    rw [appendRecent, looked]
    dsimp only
    rw [get_of_lookup (recorded.blocks block listed)]
    exact bind_ok.mpr ⟨block, (recorded.storable block listed).reads, bind_ok.mpr ⟨_, pushed, rest⟩⟩

theorem Recorded.genesis_checked (recorded : Recorded reader genesis history db) (there : putGenesis genesis db = .ok db) :
    initializeBlockchain reader genesis db = .ok db := by
  obtain ⟨first, head, height, hash, sig⟩ := recorded.first
  have listed : first ∈ history := List.mem_of_mem_head? head
  have map : Hash.read (db.get (heightKey 0) DBPrefix.blockHeightMaps) = .ok first.hash := by
    rw [get_of_lookup (height ▸ recorded.heights first listed)]
    exact hash_read_get first.hash
  have block : reader.block (db.get first.hash.get DBPrefix.blocks) = .ok first := by
    rw [get_of_lookup (recorded.blocks first listed)]
    exact (recorded.storable first listed).reads
  apply bind_ok.mpr
  refine ⟨db, there, bind_ok.mpr ⟨first.hash, map, bind_ok.mpr ⟨first, block, ?_⟩⟩⟩
  rw [if_neg]
  · rfl
  · intro differ
    exact differ.elim (fun other => other hash) fun other => other sig

theorem Recorded.filed (recorded : Recorded reader genesis history db) {storage : Storage} (loading : Loading history 501 storage) :
    Filed reader {block | block ∈ history} storage db := by
  have inside : ∀ block ∈ storage.chain, block ∈ history := by
    rw [loading.chain]
    exact fun block member => List.mem_of_mem_drop member
  constructor
  · exact loading.indexed
  · exact loading.mapped
  · exact recorded.distinct
  · exact recorded.storable
  · exact recorded.only
  · exact inside
  · rw [loading.chain]
    exact recorded.older
  · intro hash block found
    rw [loading.cachedBlocks] at found
    cases found
  · intro txHash tx location found
    rw [loading.cachedTxs] at found
    cases found

/-- The constructor takes the newest blocks into memory and knows the others. -/
theorem load_ok (consistent : Consistent reader genesis history db) : ∃ storage left, load reader genesis db = .ok (storage, left) ∧
    Recorded reader genesis history left ∧ Loading history 501 storage := by
  obtain ⟨left, put, recorded⟩ := putGenesis_recorded consistent
  have again : putGenesis genesis left = .ok left := by
    obtain ⟨block, _, found⟩ := recorded.latest
    rw [putGenesis, if_pos (has_iff.mpr ⟨_, found⟩)]
  have initialized : initializeBlockchain reader genesis db = .ok left := by
    have checked := recorded.genesis_checked again
    rw [initializeBlockchain, put]
    rw [initializeBlockchain, again] at checked
    exact checked
  obtain ⟨latest, last, found⟩ := recorded.latest
  have listed : latest ∈ history := List.mem_of_mem_getLast? last
  have read : reader.block (left.get latestKey DBPrefix.blocks) = .ok latest := by
    rw [get_of_lookup found]
    exact (recorded.storable latest listed).reads
  have deep : latest.nHeight.toNat + 1 = history.length := by
    obtain ⟨before, rfl⟩ := List.getLast?_eq_some_iff.mp last
    rw [recorded.height (List.getElem?_concat_length (l := before) (a := latest)), List.length_append, List.length_singleton]
  obtain ⟨maps, decoded, mapped⟩ := recorded.maps
  have none : Loading history (0 : UInt64).toNat (maps.foldl insertMap {}) := by
    refine ⟨?_, mapped, ?_, ?_, ?_⟩
    · rw [insertMaps]
      exact empty_indexed rfl rfl rfl
    · rw [insertMaps]
      exact List.drop_length.symm
    · rw [insertMaps]
    · rw [insertMaps]
  have zero : (0 : UInt64).toNat = 0 := rfl
  obtain ⟨storage, appended, loading⟩ := appendRecent_ok recorded deep (min 501 (latest.nHeight.toNat + 1)) (i := 0)
    (by omega) (by omega) none
  refine ⟨storage, left, ?_, recorded, ?_⟩
  · exact bind_ok.mpr ⟨left, initialized, bind_ok.mpr ⟨latest, read, bind_ok.mpr ⟨maps, decoded, bind_ok.mpr ⟨storage, appended, rfl⟩⟩⟩⟩
  · refine ⟨loading.indexed, loading.mapped, ?_, loading.cachedBlocks, loading.cachedTxs⟩
    have count : history.length - ((0 : UInt64).toNat + min 501 (latest.nHeight.toNat + 1)) = history.length - 501 := by omega
    rw [loading.chain, count]

theorem load_recorded (consistent : Consistent reader genesis history db) {storage : Storage} {left : DB}
    (loaded : load reader genesis db = .ok (storage, left)) : Recorded reader genesis history left ∧ Loading history 501 storage := by
  obtain ⟨_, _, again, found⟩ := load_ok consistent
  cases Except.ok.inj (loaded.symm.trans again)
  exact found

end OrbiterSDK.Proofs.Archive
