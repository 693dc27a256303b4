import OrbiterSDK.Storage
import Mathlib.Data.List.Chain

/-! The maps of a storage beside its chain: what holds of them as long as no block comes in that
they cannot tell from another one. -/

namespace OrbiterSDK.Proofs.ChainIndex
open Lib Storage

theorem mem_txEntries {block : Block} {txHash : Hash} {location : TxLocation} : (txHash, location) ∈ txEntries block ↔
    ∃ i tx, block.txs[i]? = some tx ∧ txHash = tx.hash ∧ location = ⟨block.hash, UInt64.ofNat i, block.nHeight⟩ := by
  unfold txEntries
  rw [List.mem_map]
  constructor
  · intro listed
    obtain ⟨⟨tx, i⟩, member, same⟩ := listed
    cases same
    exact ⟨i, tx, List.mk_mem_zipIdx_iff_getElem?.mp member, rfl, rfl⟩
  · intro placed
    obtain ⟨i, tx, here, rfl, rfl⟩ := placed
    exact ⟨(tx, i), List.mk_mem_zipIdx_iff_getElem?.mpr here, rfl⟩

theorem txEntries_keys (block : Block) : (txEntries block).map Prod.fst = block.txs.map TxBlock.hash := by
  unfold txEntries
  rw [List.map_map]
  exact (List.map_map (f := Prod.fst) (g := TxBlock.hash)).symm.trans (congrArg _ (List.zipIdx_map_fst 0 block.txs))

private theorem txEntries_block {block : Block} {entry : Hash × TxLocation} (member : entry ∈ txEntries block) :
    entry.2.blockHash = block.hash := by
  obtain ⟨txHash, location⟩ := entry
  obtain ⟨i, tx, _, _, rfl⟩ := mem_txEntries.mp member
  rfl

theorem mem_txEntries_hash {block : Block} {entry : Hash × TxLocation} (member : entry ∈ txEntries block) :
    entry.1 ∈ block.txs.map TxBlock.hash := by
  rw [← txEntries_keys]
  exact List.mem_map_of_mem member

private theorem exists_txEntry {block : Block} {txHash : Hash} (member : txHash ∈ block.txs.map TxBlock.hash) :
    ∃ location, (txHash, location) ∈ txEntries block := by
  rw [← txEntries_keys] at member
  obtain ⟨⟨_, location⟩, listed, rfl⟩ := List.mem_map.mp member
  exact ⟨location, listed⟩

/-- A block and the one behind it. -/
def Follows (before after : Block) : Prop := after.prevBlockHash = before.hash ∧ after.nHeight.toNat = before.nHeight.toNat + 1

structure Indexed (storage : Storage) : Prop where
  linked : storage.chain.IsChain Follows
  distinct : (storage.chain.map Block.hash).Nodup
  blocks : ∀ {hash block}, storage.blockByHash hash = some block ↔ block ∈ storage.chain ∧ block.hash = hash
  txs : ∀ {txHash location}, storage.txByHash txHash = some location ↔ ∃ block ∈ storage.chain, (txHash, location) ∈ txEntries block
  heights : ∀ block ∈ storage.chain, storage.blockHashByHeight block.nHeight = some block.hash

/-- A block that the maps can tell from those of the chain. -/
structure Fits (storage : Storage) (block : Block) : Prop where
  height : storage.blockHashByHeight block.nHeight = none ∨ storage.blockHashByHeight block.nHeight = some block.hash
  hash : storage.blockByHash block.hash = none
  txs : (block.txs.map TxBlock.hash).Nodup
  newTxs : ∀ tx ∈ block.txs, storage.txByHash tx.hash = none

variable {storage next : Storage} {block : Block}

theorem empty_indexed {storage : Storage} (chain : storage.chain = []) (blocks : storage.blockByHash = fun _ => none)
    (txs : storage.txByHash = fun _ => none) : Indexed storage := by
  constructor
  · rw [chain]
    exact .nil
  · rw [chain]
    exact List.nodup_nil
  · intro hash block
    rw [blocks, chain]
    simp
  · intro txHash location
    rw [txs, chain]
    simp
  · rw [chain]
    exact nofun

theorem added_indexed (indexed : Indexed storage) (fits : Fits storage block) {chain : List Block} (linked : chain.IsChain Follows)
    (perm : chain.Perm (block :: storage.chain)) : Indexed (addToMappings { storage with chain } block) := by
  have member {other : Block} : other ∈ chain ↔ other = block ∨ other ∈ storage.chain := by
    rw [perm.mem_iff, List.mem_cons]
  have new : ∀ entry ∈ txEntries block, storage.txByHash entry.1 = none := by
    intro entry listed
    obtain ⟨tx, inside, same⟩ := List.mem_map.mp (mem_txEntries_hash listed)
    exact same ▸ fits.newTxs tx inside
  constructor
  · exact linked
  · have apart : block.hash ∉ storage.chain.map Block.hash := by
      intro listed
      obtain ⟨other, inside, same⟩ := List.mem_map.mp listed
      cases fits.hash.symm.trans (indexed.blocks.mpr ⟨inside, same⟩)
    apply (perm.map Block.hash).nodup_iff.mpr
    exact List.nodup_cons.mpr ⟨apart, indexed.distinct⟩
  · intro hash other
    apply Index.insert_apply_iff.trans
    change storage.blockByHash hash = some other ∨ hash = block.hash ∧ storage.blockByHash block.hash = none ∧ block = other ↔
      other ∈ chain ∧ other.hash = hash
    rw [indexed.blocks, member, or_and_right, or_comm]
    apply or_congr_left
    constructor
    · intro inserted
      obtain ⟨key, _, same⟩ := inserted
      exact ⟨same.symm, same ▸ key.symm⟩
    · intro same
      obtain ⟨rfl, key⟩ := same
      exact ⟨key.symm, fits.hash, rfl⟩
  · intro txHash location
    apply (Index.insertAll_apply_iff (txEntries_keys block ▸ fits.txs) new).trans
    change storage.txByHash txHash = some location ∨ (txHash, location) ∈ txEntries block ↔
      ∃ block ∈ chain, (txHash, location) ∈ txEntries block
    rw [indexed.txs]
    constructor
    · intro either
      cases either with
      | inl older =>
        obtain ⟨other, inside, listed⟩ := older
        exact ⟨other, member.mpr (.inr inside), listed⟩
      | inr here => exact ⟨block, member.mpr (.inl rfl), here⟩
    · intro listed
      obtain ⟨other, inside, listed⟩ := listed
      cases member.mp inside with
      | inl same => exact .inr (same ▸ listed)
      | inr older => exact .inl ⟨other, older, listed⟩
  · intro other inside
    apply Index.insert_apply_iff.mpr
    cases member.mp inside with
    | inl same =>
      cases same
      cases fits.height with
      | inl unmapped => exact .inr ⟨rfl, unmapped, rfl⟩
      | inr mapped => exact .inl mapped
    | inr older => exact .inl (indexed.heights other older)

theorem removed_indexed (indexed : Indexed storage) {chain : List Block} (linked : chain.IsChain Follows)
    (perm : storage.chain.Perm (block :: chain)) : Indexed { removeFromMappings storage block with chain } := by
  have hashes := (perm.map Block.hash).nodup_iff.mp indexed.distinct
  obtain ⟨apart, distinct⟩ := List.nodup_cons.mp hashes
  have there : block ∈ storage.chain := perm.mem_iff.mpr List.mem_cons_self
  have member {other : Block} : other ∈ chain ↔ other ∈ storage.chain ∧ other.hash ≠ block.hash := by
    rw [perm.mem_iff, List.mem_cons]
    constructor
    · intro inside
      exact ⟨.inr inside, fun same => apart (same ▸ List.mem_map_of_mem inside)⟩
    · intro either
      obtain ⟨here, other⟩ := either
      exact here.resolve_left fun same => other (congrArg Block.hash same)
  constructor
  · exact linked
  · exact distinct
  · intro hash other
    apply Index.erase_apply_iff.trans
    change hash ≠ block.hash ∧ storage.blockByHash hash = some other ↔ other ∈ chain ∧ other.hash = hash
    rw [indexed.blocks, member, and_assoc]
    constructor
    · intro kept
      obtain ⟨differs, inside, same⟩ := kept
      exact ⟨inside, same ▸ differs, same⟩
    · intro kept
      obtain ⟨inside, differs, same⟩ := kept
      exact ⟨same ▸ differs, inside, same⟩
  · intro txHash location
    apply Index.eraseAll_apply_iff.trans
    change txHash ∉ block.txs.map TxBlock.hash ∧ storage.txByHash txHash = some location ↔
      ∃ block ∈ chain, (txHash, location) ∈ txEntries block
    rw [indexed.txs]
    constructor
    · intro kept
      obtain ⟨unerased, other, inside, listed⟩ := kept
      refine ⟨other, member.mpr ⟨inside, fun same => ?_⟩, listed⟩
      have equal : other = block := List.inj_on_of_nodup_map indexed.distinct inside there same
      exact unerased (equal ▸ mem_txEntries_hash listed)
    · intro kept
      obtain ⟨other, inside, listed⟩ := kept
      obtain ⟨older, differs⟩ := member.mp inside
      refine ⟨fun erased => ?_, other, older, listed⟩
      -- The hash would have two locations.
      obtain ⟨place, here⟩ := exists_txEntry erased
      have first := indexed.txs.mpr ⟨other, older, listed⟩
      have second := indexed.txs.mpr ⟨block, there, here⟩
      have same : location = place := Option.some.inj (first.symm.trans second)
      exact differs ((txEntries_block listed).symm.trans ((congrArg TxLocation.blockHash same).trans (txEntries_block here)))
  · intro other inside
    exact indexed.heights other (member.mp inside).1

/-- What is pushed is compared twice with the block it comes next to. -/
private theorem checked_ok {linked risen : Prop} [Decidable linked] [Decidable risen] {wrong high : Exception} {pushed : Storage} :
    (if ¬ linked then .error wrong else if ¬ risen then .error high else .ok pushed) = Except.ok next ↔
      (linked ∧ risen) ∧ next = pushed := by
  by_cases first : linked <;> by_cases second : risen <;> simp [first, second, eq_comm]

theorem pushBack_ok : storage.pushBack block = .ok next ↔
    (∀ back, storage.chain.getLast? = some back → back.hash = block.prevBlockHash ∧ block.nHeight = back.nHeight + 1) ∧
      next = addToMappings { storage with chain := storage.chain ++ [block] } block := by
  unfold pushBack
  dsimp only
  cases there : storage.chain.getLast? with
  | none => exact ⟨fun pushed => ⟨nofun, (Except.ok.inj pushed).symm⟩, fun pushed => congrArg _ pushed.2.symm⟩
  | some back =>
    refine checked_ok.trans (and_congr_left fun _ => ⟨?_, fun pushed => pushed back rfl⟩)
    rintro linked _ ⟨⟩
    exact linked

theorem pushFront_ok : storage.pushFront block = .ok next ↔
    (∀ front, storage.chain.head? = some front → front.prevBlockHash = block.hash ∧ block.nHeight = front.nHeight - 1) ∧
      next = addToMappings { storage with chain := block :: storage.chain } block := by
  unfold pushFront
  dsimp only
  cases there : storage.chain.head? with
  | none => exact ⟨fun pushed => ⟨nofun, (Except.ok.inj pushed).symm⟩, fun pushed => congrArg _ pushed.2.symm⟩
  | some front =>
    refine checked_ok.trans (and_congr_left fun _ => ⟨?_, fun pushed => pushed front rfl⟩)
    rintro linked _ ⟨⟩
    exact linked

theorem popBack_ok (popped : storage.popBack = .ok next) : ∃ block, storage.chain.getLast? = some block ∧
    next = { removeFromMappings storage block with chain := storage.chain.dropLast } := by
  unfold popBack at popped
  split at popped
  case h_1 => cases popped
  case h_2 block there =>
    cases popped
    exact ⟨block, there, rfl⟩

theorem popFront_ok (popped : storage.popFront = .ok next) : ∃ block, storage.chain.head? = some block ∧
    next = { removeFromMappings storage block with chain := storage.chain.tail } := by
  unfold popFront at popped
  split at popped
  case h_1 => cases popped
  case h_2 block there =>
    cases popped
    exact ⟨block, there, rfl⟩

/-- The number behind another one, unless it starts again with zero. -/
theorem toNat_succ {before after : UInt64} (step : after = before + 1) (positive : after ≠ 0) : after.toNat = before.toNat + 1 := by
  have sum : after.toNat = (before.toNat + 1) % 2 ^ 64 := by
    rw [step, UInt64.toNat_add]
    rfl
  have bound := before.toNat_lt
  have some : after.toNat ≠ 0 := fun zero => positive (UInt64.toNat_inj.mp zero)
  omega

theorem pushBack_linked (linked : storage.chain.IsChain Follows)
    (links : ∀ back, storage.chain.getLast? = some back → back.hash = block.prevBlockHash ∧ block.nHeight = back.nHeight + 1)
    (positive : storage.chain ≠ [] → block.nHeight ≠ 0) : (storage.chain ++ [block]).IsChain Follows := by
  apply linked.append (List.isChain_singleton block)
  intro back last first single
  cases single
  obtain ⟨previous, height⟩ := links back last
  refine ⟨previous.symm, toNat_succ height (positive ?_)⟩
  intro empty
  rw [empty] at last
  cases last

theorem pushFront_linked (linked : storage.chain.IsChain Follows)
    (links : ∀ front, storage.chain.head? = some front → front.prevBlockHash = block.hash ∧ block.nHeight = front.nHeight - 1)
    (positive : ∀ front, storage.chain.head? = some front → front.nHeight ≠ 0) : (block :: storage.chain).IsChain Follows := by
  apply linked.cons
  intro front first
  obtain ⟨previous, height⟩ := links front first
  refine ⟨previous, toNat_succ ?_ (positive front first)⟩
  rw [height, UInt64.sub_add_cancel]

theorem pushBack_indexed (indexed : Indexed storage) (fits : Fits storage block) (positive : storage.chain ≠ [] → block.nHeight ≠ 0)
    (pushed : storage.pushBack block = .ok next) : Indexed next := by
  obtain ⟨links, rfl⟩ := pushBack_ok.mp pushed
  apply added_indexed indexed fits
  · exact pushBack_linked indexed.linked links positive
  · exact List.perm_append_singleton block storage.chain

theorem pushFront_indexed (indexed : Indexed storage) (fits : Fits storage block)
    (positive : ∀ front, storage.chain.head? = some front → front.nHeight ≠ 0) (pushed : storage.pushFront block = .ok next) : Indexed next := by
  obtain ⟨links, rfl⟩ := pushFront_ok.mp pushed
  apply added_indexed indexed fits
  · exact pushFront_linked indexed.linked links positive
  · exact .refl _

theorem heights_grow {chain : List Block} (linked : chain.IsChain Follows) :
    chain.Pairwise fun before after => before.nHeight.toNat < after.nHeight.toNat := by
  have grows : chain.IsChain fun before after => before.nHeight.toNat < after.nHeight.toNat :=
    linked.imp fun before after follows => by rw [follows.2]; exact Nat.lt_succ_self _
  have trans : IsTrans Block fun before after => before.nHeight.toNat < after.nHeight.toNat := ⟨fun _ _ _ => Nat.lt_trans⟩
  exact List.isChain_iff_pairwise.mp grows

theorem popBack_indexed (indexed : Indexed storage) (popped : storage.popBack = .ok next) : Indexed next := by
  obtain ⟨block, last, rfl⟩ := popBack_ok popped
  obtain ⟨before, split⟩ := List.getLast?_eq_some_iff.mp last
  apply removed_indexed indexed indexed.linked.dropLast
  rw [split, List.dropLast_concat]
  exact List.perm_append_singleton block before

theorem popFront_indexed (indexed : Indexed storage) (popped : storage.popFront = .ok next) : Indexed next := by
  obtain ⟨block, first, rfl⟩ := popFront_ok popped
  obtain ⟨behind, split⟩ := List.head?_eq_some_iff.mp first
  apply removed_indexed indexed indexed.linked.tail
  rw [split]
  exact .refl _

end OrbiterSDK.Proofs.ChainIndex
