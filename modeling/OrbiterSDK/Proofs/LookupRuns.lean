import OrbiterSDK.Proofs.Lookups
import OrbiterSDK.Proofs.ChainRuns

/-! Runs in which the chain is changed at its ends and anything is asked in between. What is known
only grows, and answers depend on nothing else. -/

namespace OrbiterSDK.Proofs.LookupRuns
open Lib Storage ChainIndex Archive TxRoundTrip StoredTxs Lookups ChainRuns

/-- The blocks of the chain, and those of which the database has everything. -/
def known (reader : BlockReader) (storage : Storage) (db : DB) : Set Block :=
  {block | block ∈ storage.chain ∨ Stored db block ∧ Storable reader block}

/-- A block that comes back from its bytes and shares nothing with those that are known. -/
structure Admitted (reader : BlockReader) (storage : Storage) (db : DB) (block : Block) : Prop where
  distinct : Distinct (insert block (known reader storage db))
  storable : Storable reader block
  slim : Slim block

/-- A push that is accepted is of such a block, and a pop is of one that the database has. -/
def Admissible (reader : BlockReader) (db : DB) (storage : Storage) : Turn → Prop
  | .edit (.pushBack block) =>
    (∀ back, storage.chain.getLast? = some back → back.hash = block.prevBlockHash ∧ block.nHeight = back.nHeight + 1) →
      Admitted reader storage db block ∧ (storage.chain ≠ [] → block.nHeight ≠ 0)
  | .edit (.pushFront block) =>
    (∀ front, storage.chain.head? = some front → front.prevBlockHash = block.hash ∧ block.nHeight = front.nHeight - 1) →
      Admitted reader storage db block ∧ ∀ front, storage.chain.head? = some front → front.nHeight ≠ 0
  | .edit .popBack => ∀ block, storage.chain.getLast? = some block → Stored db block
  | .edit .popFront => ∀ block, storage.chain.head? = some block → Stored db block
  | .ask _ => True

def AllAdmissible (reader : BlockReader) (db : DB) : Storage → List Turn → Prop
  | _, [] => True
  | storage, next :: rest => Admissible reader db storage next ∧ AllAdmissible reader db (turn reader storage db next) rest

section Steps
variable {reader : BlockReader} {archive : Set Block} {storage : Storage} {db : DB} {block : Block}

theorem known_eq (filed : Filed reader archive storage db) : known reader storage db = archive := by
  ext block
  constructor
  · intro member
    cases member with
    | inl inside => exact filed.inside block inside
    | inr kept =>
      obtain ⟨stored, storable⟩ := kept
      obtain ⟨other, there, _, same⟩ := filed.only.blocks stored.bytes
      have reads := storable.reads
      rw [same, (filed.storable other there).reads] at reads
      exact Except.ok.inj reads ▸ there
  · exact fun member => (filed.rest block member).imp_right fun stored => ⟨stored, filed.storable block member⟩

/-- All that is known is filed, and its transactions can be counted. -/
structure Kept (reader : BlockReader) (storage : Storage) (db : DB) : Prop where
  filed : Filed reader (known reader storage db) storage db
  slim : ∀ block ∈ known reader storage db, Slim block

theorem kept_of_filed (filed : Filed reader archive storage db) (slim : ∀ block ∈ archive, Slim block) : Kept reader storage db := by
  have same := known_eq filed
  constructor
  · rw [same]
    exact filed
  · rw [same]
    exact slim

theorem added_filed (filed : Filed reader archive storage db) (distinct : Distinct (insert block archive)) (storable : Storable reader block)
    {chain : List Block} (linked : chain.IsChain Follows) (absent : block ∉ storage.chain) (perm : chain.Perm (block :: storage.chain)) :
    Filed reader (insert block archive) (addToMappings { storage with chain } block) db := by
  have known {other : Block} (member : other ∈ archive) : other ∈ insert block archive := Set.mem_insert_of_mem block member
  constructor
  · exact added_indexed filed.indexed (fits_of_archive filed.mapped distinct filed.indexed filed.inside absent) linked perm
  · exact added_mapped filed.mapped distinct chain
  · exact distinct
  · exact Set.forall_mem_insert.mpr ⟨storable, filed.storable⟩
  · obtain ⟨blocks, heights, txs⟩ := filed.only
    constructor
    · intro hash value found
      obtain ⟨other, member, same⟩ := blocks found
      exact ⟨other, known member, same⟩
    · intro key value found
      obtain ⟨other, member, same⟩ := heights found
      exact ⟨other, known member, same⟩
    · intro txHash value found
      obtain ⟨other, member, same⟩ := txs found
      exact ⟨other, known member, same⟩
  · intro other inside
    cases List.mem_cons.mp (perm.mem_iff.mp inside) with
    | inl same => exact same ▸ Set.mem_insert block archive
    | inr older => exact known (filed.inside other older)
  · have here {other : Block} (either : other = block ∨ other ∈ storage.chain) : other ∈ chain :=
      perm.mem_iff.mpr (List.mem_cons.mpr either)
    intro other member
    cases member with
    | inl same => exact .inl (here (.inl same))
    | inr older => exact (filed.rest other older).imp_left fun inside => here (.inr inside)
  · intro hash other found
    obtain ⟨member, same⟩ := filed.cachedBlocks found
    exact ⟨known member, same⟩
  · intro txHash tx place found
    obtain ⟨same, other, member, listed⟩ := filed.cachedTxs found
    exact ⟨same, other, known member, listed⟩

theorem removed_filed (filed : Filed reader archive storage db) (stored : Stored db block) {chain : List Block}
    (linked : chain.IsChain Follows) (perm : storage.chain.Perm (block :: chain)) :
    Filed reader archive { removeFromMappings storage block with chain } db := by
  obtain ⟨hashOf, heightOf⟩ := filed.mapped
  constructor
  · exact removed_indexed filed.indexed linked perm
  · exact ⟨hashOf, heightOf⟩
  · exact filed.distinct
  · exact filed.storable
  · exact filed.only
  · exact fun other inside => filed.inside other (perm.mem_iff.mpr (List.mem_cons_of_mem _ inside))
  · intro other member
    cases filed.rest other member with
    | inr storedToo => exact .inr storedToo
    | inl inside =>
      cases List.mem_cons.mp (perm.mem_iff.mp inside) with
      | inl same => exact .inr (same ▸ stored)
      | inr rest => exact .inl rest
  · exact filed.cachedBlocks
  · exact filed.cachedTxs

theorem turn_kept (kept : Kept reader storage db) {next : Turn} (fine : Admissible reader db storage next) :
    Kept reader (turn reader storage db next) db := by
  obtain ⟨filed, slim⟩ := kept
  cases next with
  | ask query => exact kept_of_filed (cached_filed filed (ask_cached filed slim query)) slim
  | edit edit =>
    rw [turn]
    cases edit with
    | pushBack block =>
      cases pushed : (Edit.pushBack block).apply storage with
      | error what =>
        rw [edit_error pushed]
        exact ⟨filed, slim⟩
      | ok after =>
        rw [edit_ok pushed]
        obtain ⟨links, rfl⟩ := pushBack_ok.mp pushed
        obtain ⟨⟨distinct, storable, small⟩, positive⟩ := fine links
        have linked := pushBack_linked filed.indexed.linked links positive
        have absent : block ∉ storage.chain := fun inside =>
          Nat.lt_irrefl _ ((List.pairwise_append.mp (heights_grow linked)).2.2 block inside block (List.mem_singleton_self block))
        have added := added_filed filed distinct storable linked absent (List.perm_append_singleton block storage.chain)
        exact kept_of_filed added (Set.forall_mem_insert.mpr ⟨small, slim⟩)
    | pushFront block =>
      cases pushed : (Edit.pushFront block).apply storage with
      | error what =>
        rw [edit_error pushed]
        exact ⟨filed, slim⟩
      | ok after =>
        rw [edit_ok pushed]
        obtain ⟨links, rfl⟩ := pushFront_ok.mp pushed
        obtain ⟨⟨distinct, storable, small⟩, positive⟩ := fine links
        have linked := pushFront_linked filed.indexed.linked links positive
        have absent : block ∉ storage.chain := fun inside =>
          Nat.lt_irrefl _ ((List.pairwise_cons.mp (heights_grow linked)).1 block inside)
        have added := added_filed filed distinct storable linked absent (.refl _)
        exact kept_of_filed added (Set.forall_mem_insert.mpr ⟨small, slim⟩)
    | popBack =>
      cases popped : Edit.popBack.apply storage with
      | error what =>
        rw [edit_error popped]
        exact ⟨filed, slim⟩
      | ok after =>
        rw [edit_ok popped]
        obtain ⟨block, last, rfl⟩ := popBack_ok popped
        obtain ⟨before, split⟩ := List.getLast?_eq_some_iff.mp last
        refine kept_of_filed (removed_filed filed (fine block last) filed.indexed.linked.dropLast ?_) slim
        rw [split, List.dropLast_concat]
        exact List.perm_append_singleton block before
    | popFront =>
      cases popped : Edit.popFront.apply storage with
      | error what =>
        rw [edit_error popped]
        exact ⟨filed, slim⟩
      | ok after =>
        rw [edit_ok popped]
        obtain ⟨block, first, rfl⟩ := popFront_ok popped
        obtain ⟨behind, split⟩ := List.head?_eq_some_iff.mp first
        refine kept_of_filed (removed_filed filed (fine block first) filed.indexed.linked.tail ?_) slim
        rw [split]
        exact .refl _

theorem turns_kept (turns : List Turn) : ∀ {storage : Storage}, Kept reader storage db → AllAdmissible reader db storage turns →
    Kept reader (turns.foldl (fun storage => turn reader storage db) storage) db := by
  induction turns with
  | nil => exact fun kept _ => kept
  | cons next rest ih => exact fun kept fine => ih (turn_kept kept fine.1) fine.2

end Steps

/-- What a lookup by its hash has to give for a transaction. -/
structure TxAnswered (known : Set Block) (txHash : Hash) (outcome : Except Exception (TxAnswer × Storage)) : Prop where
  found : ∀ block ∈ known, ∀ i tx, block.txs[i]? = some tx → tx.hash = txHash → ∃ after, outcome = .ok ((some tx, location block i), after)
  missing : (∀ block ∈ known, txHash ∉ block.txs.map TxBlock.hash) → ∃ after, outcome = .ok (noTx, after)

/-- What a lookup by its position has to give. -/
structure Answered (known : Set Block) (meant : Block → Prop) (blockIndex : UInt64) (outcome : Except Exception (TxAnswer × Storage)) :
    Prop where
  found : ∀ block ∈ known, meant block → Answers block blockIndex outcome
  missing : (∀ block ∈ known, ¬ meant block) → ∃ after, outcome = .ok (noTx, after)

section Answers
variable {reader : BlockReader} {storage : Storage} {db : DB}

private theorem answered_iff {meant : Block → Prop} {blockIndex : UInt64} {outcome : Except Exception (TxAnswer × Storage)}
    (found : ∀ block ∈ known reader storage db, meant block → (Answers block blockIndex outcome ↔ Served storage block blockIndex))
    (missing : (∀ block ∈ known reader storage db, ¬ meant block) → outcome = .ok (noTx, storage)) :
    Answered (known reader storage db) meant blockIndex outcome ↔
      ∀ block ∈ known reader storage db, meant block → Served storage block blockIndex :=
  ⟨fun answered block member here => (found block member here).mp (answered.found block member here),
    fun served => ⟨fun block member here => (found block member here).mpr (served block member here), fun unknown => ⟨storage, missing unknown⟩⟩⟩

variable (kept : Kept reader storage db)
include kept

theorem tx_answered (txHash : Hash) : TxAnswered (known reader storage db) txHash (getTx reader storage db txHash) := by
  constructor
  · rintro block member i tx listed rfl
    obtain ⟨after, got, _⟩ := getTx_known kept.filed member (kept.slim block member) listed
    exact ⟨after, got⟩
  · exact fun unknown => ⟨storage, getTx_unknown kept.filed unknown⟩

theorem answered_by_hash_iff (blockHash : Hash) (blockIndex : UInt64) :
    Answered (known reader storage db) (fun block => block.hash = blockHash) blockIndex
      (getTxByBlockHashAndIndex reader storage db blockHash blockIndex) ↔
    ∀ block ∈ known reader storage db, block.hash = blockHash → Served storage block blockIndex := by
  apply answered_iff
  · rintro block member rfl
    exact getTxByBlockHashAndIndex_answers kept.filed member (kept.slim block member)
  · intro unknown
    rw [getTxByBlockHashAndIndex, unknown_hash kept.filed unknown]

theorem answered_by_height_iff (blockHeight blockIndex : UInt64) :
    Answered (known reader storage db) (fun block => block.nHeight = blockHeight) blockIndex
      (getTxByBlockNumberAndIndex reader storage db blockHeight blockIndex) ↔
    ∀ block ∈ known reader storage db, block.nHeight = blockHeight → Served storage block blockIndex := by
  apply answered_iff
  · rintro block member rfl
    exact getTxByBlockNumberAndIndex_answers kept.filed member (kept.slim block member)
  · intro unknown
    rw [getTxByBlockNumberAndIndex, unknown_height kept.filed unknown]

end Answers

theorem loaded_kept {reader : BlockReader} {genesis : Block} {history : List Block} {storage : Storage} {db left : DB}
    (consistent : Consistent reader genesis history db) (slim : ∀ block ∈ history, Slim block)
    (loaded : load reader genesis db = .ok (storage, left)) : Kept reader storage left := by
  obtain ⟨recorded, loading⟩ := load_recorded consistent loaded
  exact kept_of_filed (recorded.filed loading) slim

/-- Whatever was asked before, a transaction is found by its hash. By its position it is found as long as its block is in the
chain, or is not in the cache, or is there together with the transaction. -/
theorem lookups_agree_iff {reader : BlockReader} {genesis : Block} {history : List Block} {storage : Storage} {db left : DB}
    (consistent : Consistent reader genesis history db) (slim : ∀ block ∈ history, Slim block)
    (loaded : load reader genesis db = .ok (storage, left)) (turns : List Turn) (fine : AllAdmissible reader left storage turns) :
    let current := turns.foldl (fun storage => turn reader storage left) storage
    (∀ txHash, TxAnswered (known reader current left) txHash (getTx reader current left txHash)) ∧
    (∀ blockHash blockIndex,
      Answered (known reader current left) (fun block => block.hash = blockHash) blockIndex
        (getTxByBlockHashAndIndex reader current left blockHash blockIndex) ↔
      ∀ block ∈ known reader current left, block.hash = blockHash → Served current block blockIndex) ∧
    ∀ blockHeight blockIndex,
      Answered (known reader current left) (fun block => block.nHeight = blockHeight) blockIndex
        (getTxByBlockNumberAndIndex reader current left blockHeight blockIndex) ↔
      ∀ block ∈ known reader current left, block.nHeight = blockHeight → Served current block blockIndex := by
  have kept := turns_kept turns (loaded_kept consistent slim loaded) fine
  exact ⟨tx_answered kept, answered_by_hash_iff kept, answered_by_height_iff kept⟩

section OneTransfer
variable {tx : TxBlock} (transfer : OneTransfer tx)
include transfer

theorem first_slim : ∀ block ∈ [firstWith tx], Slim block := by
  intro block member
  cases List.mem_singleton.mp member
  constructor
  · intro other listed
    exact List.mem_singleton.mp listed ▸ transfer.small
  · exact nofun

theorem both_distinct : Distinct (insert (secondWith tx) {block | block ∈ [firstWith tx]}) := by
  have heights : (0 : UInt64) ≠ 1 := by decide
  constructor
  · rintro first second (rfl | first) (rfl | second) same
    · rfl
    · cases List.mem_singleton.mp second
      exact absurd same transfer.apart
    · cases List.mem_singleton.mp first
      exact absurd same.symm transfer.apart
    · exact (List.mem_singleton.mp first).trans (List.mem_singleton.mp second).symm
  · rintro first second (rfl | first) (rfl | second) same
    · rfl
    · cases List.mem_singleton.mp second
      exact absurd same.symm heights
    · cases List.mem_singleton.mp first
      exact absurd same heights
    · exact (List.mem_singleton.mp first).trans (List.mem_singleton.mp second).symm
  · rintro block (rfl | member)
    · exact List.nodup_nil
    · cases List.mem_singleton.mp member
      exact List.nodup_singleton _
  · rintro first second txHash (rfl | first) (rfl | second) listed listedToo
    · rfl
    · cases listed
    · cases listedToo
    · exact (List.mem_singleton.mp first).trans (List.mem_singleton.mp second).symm

theorem second_admissible {storage : Storage} {left : DB} (recorded : Recorded oneKeyReader (firstWith tx) [firstWith tx] left)
    (loading : Loading [firstWith tx] 501 storage) :
    Admissible oneKeyReader left storage (.edit (.pushBack (secondWith tx))) := by
  have storable : Storable oneKeyReader (secondWith tx) := sealed_storable (Nat.zero_le 1) (List.forall_mem_nil _) (List.forall_mem_nil _)
  refine fun _ => ⟨⟨?_, storable, nofun, nofun⟩, fun _ => show (1 : UInt64) ≠ 0 by decide⟩
  rw [known_eq (recorded.filed loading)]
  exact both_distinct transfer

end OneTransfer

/-- The storage after a restart. -/
def restartedWith (tx : TxBlock) : Except Exception (Storage × DB) := do
  let (storage, db) ← load oneKeyReader (firstWith tx) ∅
  let storage ← storage.pushBack (secondWith tx)
  let db ← storage.save db
  load oneKeyReader (firstWith tx) db

/-- Once its block was asked for, a transaction of the database is not found any more. -/
theorem cached_block_hides_its_txs : ∃ tx storage db, signedTransfer [] = .ok tx ∧ restartedWith tx = .ok (storage, db) ∧
    let lookup (storage : Storage) (blockIndex : UInt64) :=
      (getTxByBlockHashAndIndex oneKeyReader storage db (firstWith tx).hash blockIndex).map Prod.fst
    let shorter := storage.edit .popFront
    let asked := ask oneKeyReader shorter db (.getBlock (firstWith tx).hash)
    lookup shorter 0 = .ok (some tx, ⟨(firstWith tx).hash, 0, 0⟩) ∧ lookup asked 0 = .error absent ∧
      lookup asked 1 = .error Tx.pastEnd := by
  have runs : ((signedTransfer []).toOption.any fun tx => (restartedWith tx).toOption.any fun restarted =>
      let lookup (storage : Storage) (blockIndex : UInt64) :=
        (getTxByBlockHashAndIndex oneKeyReader storage restarted.2 (firstWith tx).hash blockIndex).map Prod.fst
      let shorter := restarted.1.edit .popFront
      let asked := ask oneKeyReader shorter restarted.2 (.getBlock (firstWith tx).hash)
      decide (lookup shorter 0 = .ok (some tx, ⟨(firstWith tx).hash, 0, 0⟩) ∧ lookup asked 0 = .error absent ∧
        lookup asked 1 = .error Tx.pastEnd)) = true := by decide +kernel
  obtain ⟨tx, signed, runs⟩ := (Option.any_eq_true _ _).mp runs
  obtain ⟨⟨storage, db⟩, restarted, runs⟩ := (Option.any_eq_true _ _).mp runs
  exact ⟨tx, storage, db, toOption_some.mp signed, toOption_some.mp restarted, of_decide_eq_true runs⟩

end OrbiterSDK.Proofs.LookupRuns
