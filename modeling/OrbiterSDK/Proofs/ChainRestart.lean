import OrbiterSDK.Proofs.LookupRuns

/-! A storage that is destroyed and constructed again on its database, after a run in which blocks
were pushed and none was popped. -/

namespace OrbiterSDK.Proofs.ChainRestart
open Lib PrefixStore Storage TxRoundTrip ChainIndex Archive StoredTxs Lookups ChainRuns LookupRuns

/-- The entries of a block, kind by kind. -/
inductive Entry (block : Block) : Bytes → Bytes → Prop where
  | block : Entry block (DBPrefix.blocks ++ block.hash.get) block.serializeBlock
  | height : Entry block (DBPrefix.blockHeightMaps ++ heightKey block.nHeight) block.hash.get
  | tx {txHash : Hash} {place : TxLocation} (listed : (txHash, place) ∈ txEntries block) :
      Entry block (DBPrefix.txToBlocks ++ txHash.get) (locationBytes place)

theorem mem_blockEntries {block : Block} {key value : Bytes} : (key, value) ∈ blockEntries block ↔ Entry block key value := by
  unfold blockEntries
  constructor
  · intro member
    cases member with
    | head => exact .block
    | tail _ member =>
      cases member with
      | head => exact .height
      | tail _ member =>
        obtain ⟨⟨txHash, place⟩, listed, same⟩ := List.mem_map.mp member
        cases same
        exact .tx listed
  · intro entry
    cases entry with
    | block => exact List.mem_cons_self
    | height => exact List.mem_cons_of_mem _ List.mem_cons_self
    | tx listed => exact List.mem_cons_of_mem _ (List.mem_cons_of_mem _ (List.mem_map.mpr ⟨_, listed, rfl⟩))

section Entries
variable {block : Block} {key value : Bytes}

theorem Entry.of_block (entry : Entry block (DBPrefix.blocks ++ key) value) : key = block.hash.get ∧ value = block.serializeBlock := by
  generalize same : DBPrefix.blocks ++ key = whole at entry
  cases entry with
  | block => exact ⟨List.append_cancel_left same, rfl⟩
  | height => exact absurd same (blocks_apart.1.ne _ _)
  | tx => exact absurd same (blocks_apart.2.1.ne _ _)

theorem Entry.of_height (entry : Entry block (DBPrefix.blockHeightMaps ++ key) value) :
    key = heightKey block.nHeight ∧ value = block.hash.get := by
  generalize same : DBPrefix.blockHeightMaps ++ key = whole at entry
  cases entry with
  | block => exact absurd same.symm (blocks_apart.1.ne _ _)
  | height => exact ⟨List.append_cancel_left same, rfl⟩
  | tx => exact absurd same (blocks_apart.2.2.ne _ _)

theorem Entry.of_tx (entry : Entry block (DBPrefix.txToBlocks ++ key) value) :
    ∃ txHash place, (txHash, place) ∈ txEntries block ∧ key = txHash.get ∧ value = locationBytes place := by
  generalize same : DBPrefix.txToBlocks ++ key = whole at entry
  cases entry with
  | block => exact absurd same.symm (blocks_apart.2.1.ne _ _)
  | height => exact absurd same.symm (blocks_apart.2.2.ne _ _)
  | tx listed => exact ⟨_, _, listed, List.append_cancel_left same, rfl⟩

theorem Entry.ne_latest (entry : Entry block key value) : key ≠ DBPrefix.blocks ++ latestKey := by
  intro same
  rw [same] at entry
  exact hashKey_ne_latest block.hash entry.of_block.1.symm

end Entries

theorem entries_once {archive : Set Block} (distinct : Distinct archive) {first second : Block} {key value other : Bytes}
    (known : first ∈ archive) (knownToo : second ∈ archive) (entry : Entry first key value) (entryToo : Entry second key other) :
    value = other := by
  cases entry with
  | block =>
    obtain ⟨hash, written⟩ := entryToo.of_block
    have equal : first = second := distinct.hashes known knownToo (Hash.get_injective hash)
    exact (congrArg Block.serializeBlock equal).trans written.symm
  | height =>
    obtain ⟨height, written⟩ := entryToo.of_height
    have equal : first = second := distinct.heights known knownToo (heightKey_inj height)
    exact (congrArg (fun block : Block => block.hash.get) equal).trans written.symm
  | tx listed =>
    obtain ⟨txHash, place, listedToo, hash, written⟩ := entryToo.of_tx
    cases Hash.get_injective hash
    obtain ⟨i, tx, here, same, rfl⟩ := mem_txEntries.mp listed
    obtain ⟨k, tx', there, sameToo, rfl⟩ := mem_txEntries.mp listedToo
    obtain ⟨rfl, rfl, rfl⟩ := distinct.same_place known here knownToo there (sameToo.symm.trans same)
    exact written.symm

/-- The database behind the destructor. -/
def saved (storage : Storage) (db : DB) (latest : Block) : DB :=
  (db.putBatch (storage.chain.flatMap blockEntries)).put latestKey latest.serializeBlock DBPrefix.blocks

section Saving
variable {reader : BlockReader} {archive : Set Block} {storage : Storage} {db : DB} (filed : Filed reader archive storage db) (latest : Block)

private theorem mem_batch {key value : Bytes} : (key, value) ∈ storage.chain.flatMap blockEntries ↔ ∃ block ∈ storage.chain, Entry block key value := by
  rw [List.mem_flatMap]
  apply exists_congr
  intro block
  rw [mem_blockEntries]

private theorem saved_latest : (saved storage db latest).lookup (DBPrefix.blocks ++ latestKey) = some latest.serializeBlock := lookup_put_self

include filed

theorem saved_iff {key value : Bytes} (other : key ≠ DBPrefix.blocks ++ latestKey) : (saved storage db latest).lookup key = some value ↔
    (∃ block ∈ storage.chain, Entry block key value) ∨
      (∀ block ∈ storage.chain, ∀ value, ¬ Entry block key value) ∧ db.lookup key = some value := by
  have once : ∀ {key first second : Bytes}, (key, first) ∈ storage.chain.flatMap blockEntries →
      (key, second) ∈ storage.chain.flatMap blockEntries → first = second := by
    intro key first second left right
    obtain ⟨block, inside, entry⟩ := mem_batch.mp left
    obtain ⟨block', insideToo, entryToo⟩ := mem_batch.mp right
    exact entries_once filed.distinct (filed.inside block inside) (filed.inside block' insideToo) entry entryToo
  rw [saved, DB.put, AList.lookup_insert_ne other, DB.putBatch, lookup_putAll_iff once, mem_batch]
  apply or_congr_right
  apply and_congr_left
  intro _
  constructor
  · exact fun unwritten block inside value entry => unwritten value (mem_batch.mpr ⟨block, inside, entry⟩)
  · intro unwritten value member
    obtain ⟨block, inside, entry⟩ := mem_batch.mp member
    exact unwritten block inside value entry

theorem saved_stored {block : Block} (known : block ∈ archive) : Stored (saved storage db latest) block := by
  rintro ⟨key, value⟩ member
  have entry := mem_blockEntries.mp member
  apply (saved_iff filed latest entry.ne_latest).mpr
  by_cases written : ∃ other ∈ storage.chain, ∃ value, Entry other key value
  · obtain ⟨other, inside, value', entryToo⟩ := written
    cases entries_once filed.distinct known (filed.inside other inside) entry entryToo
    exact .inl ⟨other, inside, entryToo⟩
  · apply Or.inr
    constructor
    · exact fun other inside value' entryToo => written ⟨other, inside, value', entryToo⟩
    · have outside : block ∉ storage.chain := fun inside => written ⟨block, inside, value, entry⟩
      exact stored_of_outside filed known outside _ member

theorem saved_only : Only (saved storage db latest) archive := by
  constructor
  · intro hash value found
    have other : DBPrefix.blocks ++ hash.get ≠ DBPrefix.blocks ++ latestKey :=
      fun same => hashKey_ne_latest hash (List.append_cancel_left same)
    cases (saved_iff filed latest other).mp found with
    | inl written =>
      obtain ⟨block, inside, entry⟩ := written
      obtain ⟨key, value⟩ := entry.of_block
      exact ⟨block, filed.inside block inside, (Hash.get_injective key).symm, value⟩
    | inr older => exact filed.only.blocks older.2
  · intro key value found
    have other : DBPrefix.blockHeightMaps ++ key ≠ DBPrefix.blocks ++ latestKey := (blocks_apart.1.ne _ _).symm
    cases (saved_iff filed latest other).mp found with
    | inl written =>
      obtain ⟨block, inside, entry⟩ := written
      exact ⟨block, filed.inside block inside, entry.of_height⟩
    | inr older => exact filed.only.heights older.2
  · intro txHash value found
    have other : DBPrefix.txToBlocks ++ txHash.get ≠ DBPrefix.blocks ++ latestKey := (blocks_apart.2.1.ne _ _).symm
    cases (saved_iff filed latest other).mp found with
    | inl written =>
      obtain ⟨block, inside, entry⟩ := written
      obtain ⟨hash, place, listed, key, value⟩ := entry.of_tx
      exact ⟨block, filed.inside block inside, place, Hash.get_injective key ▸ listed, value⟩
    | inr older => exact filed.only.txs older.2

end Saving

def Pushes : Turn → Prop
  | .edit (.pushBack _) => True
  | .edit (.pushFront _) => True
  | .edit .popBack => False
  | .edit .popFront => False
  | .ask _ => True

/-- The chain ends a history from the genesis block to the latest one, of all that is known. -/
structure Newest (reader : BlockReader) (genesis : Block) (storage : Storage) (db : DB) (older : List Block) : Prop where
  first : ∃ block, (older ++ storage.chain).head? = some block ∧ block.nHeight = 0 ∧ genesis.hash = block.hash ∧
    genesis.validatorSig = block.validatorSig
  linked : (older ++ storage.chain).IsChain Follows
  known : known reader storage db = {block | block ∈ older ++ storage.chain}
  some : storage.chain ≠ []

section Runs
variable {reader : BlockReader} {genesis : Block} {storage after : Storage} {db : DB} {older : List Block} {block : Block}

theorem known_added (chain : ∀ other, other ∈ after.chain ↔ other = block ∨ other ∈ storage.chain) :
    known reader after db = insert block (known reader storage db) := by
  ext other
  exact (or_congr_left (chain other)).trans or_assoc

theorem newest_same (newest : Newest reader genesis storage db older) (chain : after.chain = storage.chain) :
    Newest reader genesis after db older := by
  obtain ⟨first, linked, known, some⟩ := newest
  unfold LookupRuns.known at known
  constructor
  · rw [chain]
    exact first
  · rw [chain]
    exact linked
  · unfold LookupRuns.known
    rw [chain]
    exact known
  · rw [chain]
    exact some

theorem pushBack_newest (newest : Newest reader genesis storage db older)
    (links : ∀ back, storage.chain.getLast? = some back → back.hash = block.prevBlockHash ∧ block.nHeight = back.nHeight + 1)
    (positive : storage.chain ≠ [] → block.nHeight ≠ 0) (chain : after.chain = storage.chain ++ [block]) :
    Newest reader genesis after db older := by
  obtain ⟨first, linked, known, some⟩ := newest
  have whole : older ++ after.chain = (older ++ storage.chain) ++ [block] := by rw [chain, List.append_assoc]
  have longer : older ++ storage.chain ≠ [] := List.append_ne_nil_of_right_ne_nil older some
  constructor
  · rw [whole, List.head?_append_of_ne_nil _ longer]
    exact first
  · rw [whole]
    apply linked.append (List.isChain_singleton block)
    intro back last other single
    cases single
    rw [List.getLast?_append_of_ne_nil _ some] at last
    obtain ⟨previous, height⟩ := links back last
    exact ⟨previous.symm, toNat_succ height (positive some)⟩
  · have added : ∀ other, other ∈ after.chain ↔ other = block ∨ other ∈ storage.chain := by
      intro other
      rw [chain, List.mem_append, List.mem_singleton, or_comm]
    rw [known_added added, known, whole]
    ext other
    rw [Set.mem_insert_iff, Set.mem_ofPred_eq, Set.mem_ofPred_eq, List.mem_append (t := [block]), List.mem_singleton, or_comm]
  · rw [chain]
    exact List.append_ne_nil_of_right_ne_nil _ (List.cons_ne_nil block [])

/-- The only block that fits in front of the chain is the one that was there. -/
theorem pushFront_newest (newest : Newest reader genesis storage db older)
    (links : ∀ front, storage.chain.head? = some front → front.prevBlockHash = block.hash ∧ block.nHeight = front.nHeight - 1)
    (positive : ∀ front, storage.chain.head? = some front → front.nHeight ≠ 0)
    (distinct : Distinct (insert block (known reader storage db))) (chain : after.chain = block :: storage.chain) :
    ∃ shorter, Newest reader genesis after db shorter := by
  obtain ⟨first, linked, known, some⟩ := newest
  obtain ⟨front, rest, split⟩ := List.exists_cons_of_ne_nil some
  have head : storage.chain.head? = Option.some front := by rw [split]; rfl
  cases List.eq_nil_or_concat' older with
  | inl empty =>
    obtain ⟨lowest, there, zero, _⟩ := first
    rw [empty, List.nil_append, head] at there
    cases there
    exact absurd zero (positive front head)
  | inr longer =>
    obtain ⟨shorter, last, rfl⟩ := longer
    have follows : Follows last front := (List.isChain_append.mp linked).2.2 last (by rw [List.getLast?_concat]; rfl) front head
    have height : last.nHeight = block.nHeight := (follows_sub follows).2.trans (links front head).2.symm
    have listed : last ∈ LookupRuns.known reader storage db := by
      rw [known]
      exact List.mem_append_left _ (List.mem_append_right _ (List.mem_singleton_self last))
    have same : last = block :=
      distinct.heights (Set.mem_insert_of_mem block listed) (Set.mem_insert block _) height
    cases same
    have whole : shorter ++ after.chain = (shorter ++ [block]) ++ storage.chain := by
      rw [chain, List.append_assoc]
      rfl
    refine ⟨shorter, ?_, ?_, ?_, ?_⟩
    · rw [whole]
      exact first
    · rw [whole]
      exact linked
    · have added : ∀ other, other ∈ after.chain ↔ other = block ∨ other ∈ storage.chain := by
        intro other
        rw [chain, List.mem_cons]
      rw [known_added added, Set.insert_eq_of_mem listed, whole]
      exact known
    · rw [chain]
      exact List.cons_ne_nil block _

theorem turn_newest (kept : Kept reader storage db) (newest : Newest reader genesis storage db older) {next : Turn}
    (fine : Admissible reader db storage next) (pushes : Pushes next) : ∃ shorter, Newest reader genesis (turn reader storage db next) db shorter := by
  cases next with
  | ask query =>
    obtain ⟨_, _, chain⟩ := cached_indexed kept.filed (ask_cached kept.filed kept.slim query)
    exact ⟨older, newest_same newest chain⟩
  | edit edit =>
    rw [turn]
    cases edit with
    | pushBack block =>
      cases pushed : (Edit.pushBack block).apply storage with
      | error what =>
        rw [edit_error pushed]
        exact ⟨older, newest⟩
      | ok after =>
        rw [edit_ok pushed]
        obtain ⟨links, rfl⟩ := pushBack_ok.mp pushed
        exact ⟨older, pushBack_newest newest links (fine links).2 rfl⟩
    | pushFront block =>
      cases pushed : (Edit.pushFront block).apply storage with
      | error what =>
        rw [edit_error pushed]
        exact ⟨older, newest⟩
      | ok after =>
        rw [edit_ok pushed]
        obtain ⟨links, rfl⟩ := pushFront_ok.mp pushed
        obtain ⟨admitted, positive⟩ := fine links
        exact pushFront_newest newest links positive admitted.distinct rfl
    | popBack => exact pushes.elim
    | popFront => exact pushes.elim

theorem turns_newest (turns : List Turn) : ∀ {storage : Storage} {older : List Block}, Kept reader storage db →
    Newest reader genesis storage db older → AllAdmissible reader db storage turns → (∀ next ∈ turns, Pushes next) →
    ∃ shorter, Newest reader genesis (turns.foldl (fun storage => turn reader storage db) storage) db shorter := by
  induction turns with
  | nil => exact fun _ newest _ _ => ⟨_, newest⟩
  | cons next rest ih =>
    intro storage older kept newest fine pushes
    obtain ⟨shorter, newest⟩ := turn_newest kept newest fine.1 (pushes next List.mem_cons_self)
    exact ih (turn_kept kept fine.1) newest fine.2 fun other member => pushes other (List.mem_cons_of_mem _ member)

theorem loaded_newest {history : List Block} (recorded : Recorded reader genesis history db) (loading : Loading history 501 storage) :
    Newest reader genesis storage db (history.take (history.length - 501)) := by
  have whole : history.take (history.length - 501) ++ storage.chain = history := by
    rw [loading.chain, List.take_append_drop]
  constructor
  · rw [whole]
    exact recorded.first
  · rw [whole]
    exact recorded.linked
  · rw [whole]
    exact known_eq (recorded.filed loading)
  · rw [loading.chain]
    obtain ⟨first, head, _⟩ := recorded.first
    obtain ⟨rest, rfl⟩ := List.head?_eq_some_iff.mp head
    intro empty
    have short := List.drop_eq_nil_iff.mp empty
    rw [List.length_cons] at short
    omega

theorem save_recorded (kept : Kept reader storage db) (newest : Newest reader genesis storage db older) : ∃ latest left,
    storage.latest = .ok latest ∧ storage.save db = .ok left ∧ Recorded reader genesis (older ++ storage.chain) left := by
  obtain ⟨first, linked, known, some⟩ := newest
  obtain ⟨filed, slim⟩ := kept
  rw [known] at filed
  obtain ⟨latest, last⟩ : ∃ latest, storage.chain.getLast? = Option.some latest := ⟨_, List.getLast?_eq_some_getLast some⟩
  have there : storage.latest = .ok latest := by rw [Storage.latest, last]
  have stored {block : Block} (member : block ∈ older ++ storage.chain) : Stored (saved storage db latest) block :=
    saved_stored filed latest member
  refine ⟨latest, saved storage db latest, there, bind_ok.mpr ⟨latest, there, rfl⟩, ?_⟩
  constructor
  · exact first
  · exact linked
  · exact filed.distinct
  · exact filed.storable
  · exact saved_only filed latest
  · exact fun block member => (stored member).bytes
  · exact fun block member => (stored member).height
  · exact fun block member => .inr (stored member)
  · refine ⟨latest, ?_, saved_latest latest⟩
    rw [List.getLast?_append_of_ne_nil _ some, last]

end Runs

/-- What both storages answer, each on its own database. -/
structure Agree (reader : BlockReader) (first second : Storage × DB) : Prop where
  latest : first.1.latest = second.1.latest
  blocks : ∀ hash, (getBlock reader first.1 first.2 hash).map Prod.fst = (getBlock reader second.1 second.2 hash).map Prod.fst
  heights : ∀ height, (getBlockAt reader first.1 first.2 height).map Prod.fst = (getBlockAt reader second.1 second.2 height).map Prod.fst
  txs : ∀ txHash, (getTx reader first.1 first.2 txHash).map Prod.fst = (getTx reader second.1 second.2 txHash).map Prod.fst

theorem agree_of_filed {reader : BlockReader} {archive : Set Block} {storage other : Storage} {db left : DB}
    (filed : Filed reader archive storage db) (filedToo : Filed reader archive other left) (slim : ∀ block ∈ archive, Slim block)
    (latest : storage.latest = other.latest) : Agree reader (storage, db) (other, left) := by
  constructor
  · exact latest
  · intro hash
    by_cases some : ∃ block ∈ archive, block.hash = hash
    · obtain ⟨block, known, rfl⟩ := some
      obtain ⟨_, first, _⟩ := getBlock_known filed known
      obtain ⟨_, second, _⟩ := getBlock_known filedToo known
      rw [first, second]
      rfl
    · have unknown : ∀ block ∈ archive, block.hash ≠ hash := fun block known same => some ⟨block, known, same⟩
      rw [getBlock_unknown filed unknown, getBlock_unknown filedToo unknown]
      rfl
  · intro height
    by_cases some : ∃ block ∈ archive, block.nHeight = height
    · obtain ⟨block, known, rfl⟩ := some
      obtain ⟨_, first, _⟩ := getBlockAt_known filed known
      obtain ⟨_, second, _⟩ := getBlockAt_known filedToo known
      rw [first, second]
      rfl
    · have unknown : ∀ block ∈ archive, block.nHeight ≠ height := fun block known same => some ⟨block, known, same⟩
      rw [getBlockAt_unknown filed unknown, getBlockAt_unknown filedToo unknown]
      rfl
  · intro txHash
    by_cases some : ∃ block ∈ archive, txHash ∈ block.txs.map TxBlock.hash
    · obtain ⟨block, known, member⟩ := some
      obtain ⟨tx, inside, rfl⟩ := List.mem_map.mp member
      obtain ⟨i, listed⟩ := List.getElem?_of_mem inside
      obtain ⟨_, first, _⟩ := getTx_known filed known (slim block known) listed
      obtain ⟨_, second, _⟩ := getTx_known filedToo known (slim block known) listed
      rw [first, second]
      rfl
    · have unknown : ∀ block ∈ archive, txHash ∉ block.txs.map TxBlock.hash := fun block known member => some ⟨block, known, member⟩
      rw [getTx_unknown filed unknown, getTx_unknown filedToo unknown]
      rfl

/-- However many blocks were pushed, a storage that is constructed on what another one has left gives its answers. -/
theorem restart_agrees {reader : BlockReader} {genesis : Block} {history : List Block} {storage : Storage} {db left : DB}
    (consistent : Consistent reader genesis history db) (slim : ∀ block ∈ history, Slim block)
    (loaded : load reader genesis db = .ok (storage, left)) (turns : List Turn) (fine : AllAdmissible reader left storage turns)
    (pushes : ∀ next ∈ turns, Pushes next) :
    let current := turns.foldl (fun storage => turn reader storage left) storage
    ∃ saved reopened, current.save left = .ok saved ∧ load reader genesis saved = .ok reopened ∧
      Agree reader reopened (current, left) := by
  obtain ⟨recorded, loading⟩ := load_recorded consistent loaded
  have start := loaded_kept consistent slim loaded
  have kept := turns_kept turns start fine
  obtain ⟨older, newest⟩ := turns_newest turns start (loaded_newest recorded loading) fine pushes
  obtain ⟨latest, saved, there, save, written⟩ := save_recorded kept newest
  obtain ⟨reopened, last, load, rewritten, reloading⟩ := load_ok (.recorded written)
  refine ⟨saved, (reopened, last), save, load, ?_⟩
  obtain ⟨filed, small⟩ := kept
  rw [newest.known] at filed small
  refine agree_of_filed (rewritten.filed reloading) filed small ?_
  obtain ⟨back, ends, _⟩ := written.latest
  have longer := List.getLast?_append_of_ne_nil older newest.some
  have window : reopened.chain.getLast? = some back := by
    rw [reloading.chain, List.getLast?_drop, if_neg, ends]
    obtain ⟨before, split⟩ := List.getLast?_eq_some_iff.mp ends
    rw [split, List.length_append, List.length_singleton]
    omega
  rw [Storage.latest, Storage.latest, window, ← longer, ends]

theorem transfer_survives : ∃ tx storage left, OneTransfer tx ∧ load oneKeyReader (firstWith tx) ∅ = .ok (storage, left) ∧
    let current := [Turn.edit (.pushBack (secondWith tx)), .ask (.getTx tx.hash)].foldl (fun storage => turn oneKeyReader storage left) storage
    ∃ saved reopened, current.save left = .ok saved ∧ load oneKeyReader (firstWith tx) saved = .ok reopened ∧
      Agree oneKeyReader reopened (current, left) := by
  obtain ⟨tx, transfer⟩ := exists_transfer
  obtain ⟨storage, left, loaded, recorded, loading⟩ := load_ok (first_consistent transfer)
  refine ⟨tx, storage, left, transfer, loaded, ?_⟩
  refine restart_agrees (first_consistent transfer) (first_slim transfer) loaded _
    ⟨second_admissible transfer recorded loading, trivial, trivial⟩ ?_
  intro next member
  rcases List.mem_cons.mp member with rfl | member
  · trivial
  · cases List.mem_singleton.mp member
    trivial

/-- The queries that put the transfer and then its block into the caches. -/
def filling (tx : TxBlock) : List Turn := [.ask (.getTxByBlockHashAndIndex (firstWith tx).hash 0), .ask (.getBlock (firstWith tx).hash)]

/-- What the run of the constructor, the pop and the queries leaves. -/
def filledWith (tx : TxBlock) (storage : Storage) (db : DB) : Storage :=
  (.edit .popFront :: filling tx).foldl (fun storage => turn oneKeyReader storage db) storage

/-- The first block is only in the database, and both caches have what they were asked for. -/
theorem exists_filled : ∃ tx storage db, OneTransfer tx ∧ restartedWith tx = .ok (storage, db) ∧ (∀ block ∈ storage.chain, Stored db block) ∧
    Stored db (firstWith tx) ∧ (filledWith tx storage db).chain.length = 1 ∧ Served (filledWith tx storage db) (firstWith tx) 0 ∧
    ((filledWith tx storage db).cachedBlocks (firstWith tx).hash).isSome = true := by
  obtain ⟨tx, transfer⟩ := exists_transfer
  have runs : ((signedTransfer (List.replicate 56 0)).toOption.all fun tx => (restartedWith tx).toOption.any fun restarted =>
      let stored (block : Block) : Bool := (blockEntries block).all fun entry => restarted.2.lookup entry.1 = some entry.2
      let current := filledWith tx restarted.1 restarted.2
      restarted.1.chain.all stored && stored (firstWith tx) && decide (current.chain.length = 1) &&
        (current.cachedTxs tx.hash).isSome && (current.cachedBlocks (firstWith tx).hash).isSome) = true := by decide +kernel
  rw [transfer.built] at runs
  obtain ⟨⟨storage, db⟩, restarted, runs⟩ := (Option.any_eq_true _ _).mp runs
  simp only [Bool.and_eq_true, List.all_eq_true, decide_eq_true_eq] at runs
  obtain ⟨⟨⟨⟨chain, first⟩, one⟩, cachedTx⟩, cachedBlock⟩ := runs
  refine ⟨tx, storage, db, transfer, toOption_some.mp restarted, chain, first, one, .inr ?_, cachedBlock⟩
  rw [if_pos cachedBlock]
  exact ⟨tx, rfl, cachedTx⟩

theorem restarted_consistent {tx : TxBlock} (transfer : OneTransfer tx) {storage : Storage} {db : DB} (restarted : restartedWith tx = .ok (storage, db)) :
    ∃ history saved, Consistent oneKeyReader (firstWith tx) history saved ∧ (∀ block ∈ history, Slim block) ∧
      load oneKeyReader (firstWith tx) saved = .ok (storage, db) := by
  obtain ⟨⟨first, left⟩, loaded, restarted⟩ := bind_ok.mp restarted
  obtain ⟨pushed, pushes, restarted⟩ := bind_ok.mp restarted
  obtain ⟨saved, saves, reloaded⟩ := bind_ok.mp restarted
  obtain ⟨recorded, loading⟩ := load_recorded (first_consistent transfer) loaded
  have fine := second_admissible transfer recorded loading
  have turned : turn oneKeyReader first left (.edit (.pushBack (secondWith tx))) = pushed := @edit_ok _ _ (.pushBack (secondWith tx)) pushes
  have kept := loaded_kept (first_consistent transfer) (first_slim transfer) loaded
  have keptToo := turn_kept kept fine
  obtain ⟨older, newest⟩ := turn_newest kept (loaded_newest recorded loading) fine trivial
  rw [turned] at keptToo newest
  obtain ⟨latest, saved', _, savesToo, written⟩ := save_recorded keptToo newest
  cases Except.ok.inj (saves.symm.trans savesToo)
  refine ⟨_, saved, .recorded written, ?_, reloaded⟩
  have slim := keptToo.slim
  rw [newest.known] at slim
  exact slim

/-- The transfer is found at its place, though its block is not in memory and is in the cache. -/
theorem stored_transfer_is_looked_up : ∃ tx storage db, OneTransfer tx ∧ restartedWith tx = .ok (storage, db) ∧
    let current := filledWith tx storage db
    current.chain.length = 1 ∧ (current.cachedBlocks (firstWith tx).hash).isSome = true ∧
      TxAnswered (known oneKeyReader current db) tx.hash (getTx oneKeyReader current db tx.hash) ∧
      Answered (known oneKeyReader current db) (fun block => block.hash = (firstWith tx).hash) 0
        (getTxByBlockHashAndIndex oneKeyReader current db (firstWith tx).hash 0) ∧
      ∃ after, getTxByBlockHashAndIndex oneKeyReader current db (firstWith tx).hash 0 =
        .ok ((some tx, ⟨(firstWith tx).hash, 0, 0⟩), after) := by
  obtain ⟨tx, storage, db, transfer, restarted, chain, stored, one, served, cachedBlock⟩ := exists_filled
  obtain ⟨history, saved, consistent, slim, loaded⟩ := restarted_consistent transfer restarted
  have fine : AllAdmissible oneKeyReader db storage (.edit .popFront :: filling tx) :=
    ⟨fun block head => chain block (List.mem_of_mem_head? head), trivial, trivial, trivial⟩
  have kept := turns_kept _ (loaded_kept consistent slim loaded) fine
  have there : firstWith tx ∈ known oneKeyReader (filledWith tx storage db) db := .inr ⟨stored, first_storable transfer⟩
  obtain ⟨byHash, byPlace, _⟩ := lookups_agree_iff consistent slim loaded _ fine
  have answered := (byPlace (firstWith tx).hash 0).mpr fun block member same => kept.filed.distinct.hashes member there same ▸ served
  exact ⟨tx, storage, db, transfer, restarted, one, cachedBlock, byHash tx.hash, answered, (answered.found _ there rfl).inside tx rfl⟩

def earlierWith (tx : TxBlock) : Block := sealedBlock origin.hash 1 2 [tx]

def laterWith (tx : TxBlock) : Block := sealedBlock (earlierWith tx).hash 2 3 [tx]

def pushedWith (tx : TxBlock) : Except Exception (Storage × DB) := do
  let (storage, db) ← load oneKeyReader origin ∅
  let storage ← storage.pushBack (earlierWith tx)
  let storage ← storage.pushBack (laterWith tx)
  pure (storage, db)

def reopenedWith (tx : TxBlock) : Except Exception (Storage × DB) := do
  let (storage, db) ← pushedWith tx
  let db ← storage.save db
  load oneKeyReader origin db

/-- Before the restart the transaction is in the earlier block, after it in the later one. -/
theorem repeated_tx_moves : ∃ tx storage db reopened left, signedTransfer [] = .ok tx ∧ pushedWith tx = .ok (storage, db) ∧
    reopenedWith tx = .ok (reopened, left) ∧
    (getTx oneKeyReader storage db tx.hash).map Prod.fst = .ok (some tx, ⟨(earlierWith tx).hash, 0, 1⟩) ∧
    (getTx oneKeyReader reopened left tx.hash).map Prod.fst = .ok (some tx, ⟨(laterWith tx).hash, 0, 2⟩) ∧
    (earlierWith tx).hash ≠ (laterWith tx).hash := by
  have runs : ((signedTransfer []).toOption.any fun tx => (pushedWith tx).toOption.any fun pushed =>
      (reopenedWith tx).toOption.any fun reopened => decide (
        (getTx oneKeyReader pushed.1 pushed.2 tx.hash).map Prod.fst = .ok (some tx, ⟨(earlierWith tx).hash, 0, 1⟩) ∧
        (getTx oneKeyReader reopened.1 reopened.2 tx.hash).map Prod.fst = .ok (some tx, ⟨(laterWith tx).hash, 0, 2⟩) ∧
        (earlierWith tx).hash ≠ (laterWith tx).hash)) = true := by decide +kernel
  obtain ⟨tx, signed, runs⟩ := (Option.any_eq_true _ _).mp runs
  obtain ⟨⟨storage, db⟩, pushed, runs⟩ := (Option.any_eq_true _ _).mp runs
  obtain ⟨⟨reopened, left⟩, restarted, runs⟩ := (Option.any_eq_true _ _).mp runs
  exact ⟨tx, storage, db, reopened, left, toOption_some.mp signed, toOption_some.mp pushed, toOption_some.mp restarted,
    of_decide_eq_true runs⟩

end OrbiterSDK.Proofs.ChainRestart
