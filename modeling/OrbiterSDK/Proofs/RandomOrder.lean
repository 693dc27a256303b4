import OrbiterSDK.Proofs.Admission
import OrbiterSDK.Proofs.Saved

/-! The order of the validators depends on the set of them and the latest block only, also
after a restart. -/

namespace OrbiterSDK.Proofs.RandomOrder
open Lib PrefixStore RdPoS Saved

variable {α : Type} {sha3 : Bytes → Hash}

private theorem swap_ok {v : List α} {n i : Nat} (first : n < v.length) (second : i < v.length) :
    ∃ swapped, RandomGen.swap v n i = .ok swapped ∧ swapped.Perm v := by
  refine ⟨(v.set n v[i]).set i v[n], ?_, List.set_set_perm first second⟩
  rw [RandomGen.swap, List.getElem?_eq_getElem first, List.getElem?_eq_getElem second]

theorem shuffleFrom_ok (turns : Nat) : ∀ {i : Nat} {seed : Hash} {v : List α}, i + turns = v.length →
    ∃ result, RandomGen.shuffleFrom sha3 turns i seed v = .ok result ∧ result.2.Perm v := by
  induction turns with
  | zero =>
    intro i seed v _
    exact ⟨(seed, v), rfl, .refl v⟩
  | succ turns ih =>
    intro i seed v length
    have positive : 0 < v.length - i := by omega
    have drawn := Nat.mod_lt (sha3 seed.get).toNat positive
    obtain ⟨swapped, swap, same⟩ := swap_ok (by omega : i + (sha3 seed.get).toNat % (v.length - i) < v.length) (by omega : i < v.length)
    obtain ⟨result, rest, perm⟩ := @ih (i + 1) (sha3 seed.get) swapped (by rw [same.length_eq]; omega)
    refine ⟨result, ?_, perm.trans same⟩
    rw [RandomGen.shuffleFrom]
    exact bind_ok.mpr ⟨swapped, swap, rest⟩

theorem shuffle_ok (seed : Hash) (v : List α) : ∃ result, RandomGen.shuffle sha3 seed v = .ok result ∧ result.2.Perm v :=
  shuffleFrom_ok v.length (Nat.zero_add _)

variable {rdpos next : RdPoS} {db : DB} {latest : Block}

/-- What the latest block has made of the validators. -/
structure Drawn (sha3 : Bytes → Hash) (rdpos : RdPoS) (latest : Block) : Prop where
  seed : rdpos.bestRandomSeed = latest.blockRandomness
  list : RandomGen.shuffle sha3 latest.blockRandomness rdpos.validators.elements = .ok (rdpos.randomGen, rdpos.randomList)

/-- The entries of a database are a set of validators. -/
structure Stores (db : DB) (validators : OrderedSet Address) : Prop where
  nonempty : validators.elements ≠ []
  listed : ∀ {key value}, db.lookup (DBPrefix.rdPoS ++ key) = some value → ∃ validator ∈ validators.elements, value = validator.get
  stored : ∀ validator ∈ validators.elements, ∃ key, db.lookup (DBPrefix.rdPoS ++ key) = some validator.get

theorem load_spec {genesisValidators : List Address} {minValidators : UInt32} {opened : RdPoS × DB}
    (loaded : load sha3 db genesisValidators minValidators latest = .ok opened) :
    Drawn sha3 opened.1 latest ∧ Stores opened.2 opened.1.validators := by
  unfold load at loaded
  dsimp only at loaded
  generalize initializeBlockchain db genesisValidators = db at loaded
  split at loaded
  case isTrue => cases loaded
  case isFalse occupied =>
    obtain ⟨addresses, read, loaded⟩ := bind_ok.mp loaded
    obtain ⟨shuffled, shuffle, loaded⟩ := bind_ok.mp loaded
    cases loaded
    have listed {key value : Bytes} (found : db.lookup (DBPrefix.rdPoS ++ key) = some value) :
        ∃ validator ∈ (OrderedSet.ofList addresses).elements, value = validator.get := by
      obtain ⟨validator, member, same⟩ := mapM_mem read (mem_scan.mpr found)
      exact ⟨validator, OrderedSet.mem_ofList.mpr member, address_read.mp same⟩
    refine ⟨⟨rfl, shuffle⟩, ?_, listed, ?_⟩
    · intro none
      obtain ⟨⟨key, value⟩, member⟩ := List.exists_mem_of_ne_nil _ fun empty => occupied (List.isEmpty_iff.mpr empty)
      obtain ⟨validator, inside, _⟩ := listed (mem_scan.mp member)
      rw [none] at inside
      cases inside
    · intro validator member
      obtain ⟨⟨key, value⟩, entry, same⟩ := mem_of_mapM read (OrderedSet.mem_ofList.mp member)
      exact ⟨key, address_read.mp same ▸ mem_scan.mp entry⟩

/-- From entries that are there the validators are taken as they are. -/
theorem load_stored {validators : OrderedSet Address} (stores : Stores db validators) (genesisValidators : List Address)
    (minValidators : UInt32) (latest : Block) :
    ∃ opened, load sha3 db genesisValidators minValidators latest = .ok opened ∧ opened.1.validators = validators := by
  obtain ⟨validator, member⟩ := List.exists_mem_of_ne_nil _ stores.nonempty
  obtain ⟨key, found⟩ := stores.stored validator member
  have occupied : ¬ (db.getBatch DBPrefix.rdPoS).isEmpty = true := by
    intro empty
    have listed := mem_scan.mpr found
    rw [DB.getBatch] at empty
    rw [List.isEmpty_iff.mp empty] at listed
    cases listed
  obtain ⟨addresses, read⟩ : ∃ addresses, ((db.getBatch DBPrefix.rdPoS).mapM fun entry => Address.read entry.2) = .ok addresses := by
    apply mapM_ok
    intro entry listed
    obtain ⟨validator, _, same⟩ := stores.listed (mem_scan.mp listed)
    exact ⟨validator, address_read.mpr same⟩
  have same : OrderedSet.ofList addresses = validators := by
    apply OrderedSet.eq_of_mem_iff
    intro other
    rw [OrderedSet.mem_ofList]
    constructor
    · intro inside
      obtain ⟨entry, listed, same⟩ := mem_of_mapM read inside
      obtain ⟨third, inside, equal⟩ := stores.listed (mem_scan.mp listed)
      rw [equal, address_read_get] at same
      cases same
      exact inside
    · intro inside
      obtain ⟨key, found⟩ := stores.stored other inside
      obtain ⟨third, inside, same⟩ := mapM_mem read (mem_scan.mpr found)
      rw [address_read_get] at same
      cases same
      exact inside
  obtain ⟨shuffled, shuffle, _⟩ := @shuffle_ok _ sha3 latest.blockRandomness (OrderedSet.ofList addresses).elements
  refine ⟨(⟨minValidators, OrderedSet.ofList addresses, shuffled.2, [], shuffled.1, latest.blockRandomness⟩, db), ?_, same⟩
  unfold load
  rw [initializeBlockchain, if_neg occupied]
  dsimp only
  rw [if_neg occupied]
  exact bind_ok.mpr ⟨addresses, read, bind_ok.mpr ⟨shuffled, shuffle, rfl⟩⟩

theorem load_validators_eq {validators : OrderedSet Address} (stores : Stores db validators) {genesisValidators : List Address}
    {minValidators : UInt32} {opened : RdPoS × DB} (loaded : load sha3 db genesisValidators minValidators latest = .ok opened) :
    opened.1.validators = validators := by
  obtain ⟨other, reloaded, same⟩ := @load_stored sha3 db validators stores genesisValidators minValidators latest
  rw [Except.ok.inj (loaded.symm.trans reloaded)]
  exact same

theorem mem_indexed {validators : List Address} {key value : Bytes} : (key, value) ∈ indexed validators ↔
    ∃ i validator, validators[i]? = some validator ∧ key = DBPrefix.rdPoS ++ Utils.uintToBytes 8 i ∧ value = validator.get := by
  unfold indexed
  rw [List.mem_map]
  constructor
  · rintro ⟨⟨validator, i⟩, member, same⟩
    cases same
    exact ⟨i, validator, List.mem_zipIdx_iff_getElem?.mp member, rfl, rfl⟩
  · rintro ⟨i, validator, here, key, value⟩
    exact ⟨(validator, i), List.mem_zipIdx_iff_getElem?.mpr here, Prod.ext key.symm value.symm⟩

theorem indexed_once {validators : List Address} (sized : validators.length ≤ 2 ^ 64) {key value other : Bytes}
    (first : (key, value) ∈ indexed validators) (second : (key, other) ∈ indexed validators) : value = other := by
  have width : (2 : Nat) ^ 64 = 256 ^ 8 := by norm_num
  obtain ⟨i, left, leftAt, leftKey, leftValue⟩ := mem_indexed.mp first
  obtain ⟨j, right, rightAt, rightKey, rightValue⟩ := mem_indexed.mp second
  have leftBound := (List.getElem?_eq_some_iff.mp leftAt).1
  have rightBound := (List.getElem?_eq_some_iff.mp rightAt).1
  have index : i = j := by
    apply Utils.uintToBytes_injective (width ▸ leftBound.trans_le sized) (width ▸ rightBound.trans_le sized)
    exact List.append_cancel_left (leftKey.symm.trans rightKey)
  rw [index] at leftAt
  rw [leftValue, rightValue, Option.some.inj (leftAt.symm.trans rightAt)]

theorem save_stores (sized : rdpos.validators.elements.length ≤ 2 ^ 64) (stores : Stores db rdpos.validators) :
    Stores (rdpos.save db) rdpos.validators := by
  constructor
  · exact stores.nonempty
  · intro key value found
    cases (lookup_putAll_iff (indexed_once sized)).mp found with
    | inl written =>
      obtain ⟨i, validator, here, _, same⟩ := mem_indexed.mp written
      exact ⟨validator, List.mem_of_getElem? here, same⟩
    | inr older => exact stores.listed older.2
  · intro validator member
    obtain ⟨i, here⟩ := List.getElem?_of_mem member
    refine ⟨Utils.uintToBytes 8 i, (lookup_putAll_iff (indexed_once sized)).mpr (.inl ?_)⟩
    exact mem_indexed.mpr ⟨i, validator, here, rfl, rfl⟩

/-- Nothing but the latest block and the entries of the database matters. -/
structure Kept (sha3 : Bytes → Hash) (rdpos : RdPoS) (db : DB) (latest : Block) : Prop where
  drawn : Drawn sha3 rdpos latest
  stores : Stores db rdpos.validators
  sized : rdpos.validators.elements.length ≤ 2 ^ 64

theorem processBlock_spec {block : Block} (processed : rdpos.processBlock sha3 block = .ok next) :
    next.validators = rdpos.validators ∧ Drawn sha3 next block := by
  unfold processBlock at processed
  split at processed
  case isTrue => cases processed
  case isFalse =>
    obtain ⟨shuffled, shuffle, processed⟩ := bind_ok.mp processed
    cases processed
    exact ⟨rfl, rfl, shuffle⟩

theorem lived_kept (lived : Lived sha3 rdpos db latest) : Kept sha3 rdpos db latest := by
  induction lived with
  | start genesisValidators minValidators latest loaded sized => exact ⟨(load_spec loaded).1, (load_spec loaded).2, sized⟩
  | processBlock block lived processed kept =>
    obtain ⟨same, drawn⟩ := processBlock_spec processed
    exact ⟨drawn, same ▸ kept.stores, same ▸ kept.sized⟩
  | addValidatorTx tx lived answered kept =>
    cases Admission.addValidatorTx_cases answered with
    | inl same => exact same ▸ kept
    | inr accepted => exact accepted.2 ▸ ⟨⟨kept.drawn.seed, kept.drawn.list⟩, kept.stores, kept.sized⟩
  | clearMempool lived kept => exact ⟨⟨kept.drawn.seed, kept.drawn.list⟩, kept.stores, kept.sized⟩
  | elsewhere lived same kept =>
    refine ⟨kept.drawn, ⟨kept.stores.nonempty, ?_, ?_⟩, kept.sized⟩
    · intro key value found
      exact kept.stores.listed ((same key).symm.trans found)
    · intro validator member
      obtain ⟨key, found⟩ := kept.stores.stored validator member
      exact ⟨key, (same key).trans found⟩
  | restart lived stopped genesisValidators minValidators loaded kept =>
    have stores := stopped.elim (fun saved => saved ▸ save_stores kept.sized kept.stores) fun crashed => crashed ▸ kept.stores
    obtain ⟨drawn, stored⟩ := load_spec loaded
    exact ⟨drawn, stored, (load_validators_eq stores loaded) ▸ kept.sized⟩

/-- Nodes with the same validators and the same latest block have the same order. -/
theorem drawn_agree {other : RdPoS} (drawn : Drawn sha3 rdpos latest) (others : Drawn sha3 other latest)
    (same : other.validators = rdpos.validators) : other.randomList = rdpos.randomList ∧ other.bestRandomSeed = rdpos.bestRandomSeed := by
  have list := others.list
  rw [same] at list
  have equal := Prod.mk.inj (Except.ok.inj (list.symm.trans drawn.list))
  exact ⟨equal.2, others.seed.trans drawn.seed.symm⟩

theorem lived_perm (lived : Lived sha3 rdpos db latest) : rdpos.randomList.Perm rdpos.validators.elements := by
  obtain ⟨shuffled, shuffle, perm⟩ := @shuffle_ok _ sha3 latest.blockRandomness rdpos.validators.elements
  cases (Except.ok.inj (shuffle.symm.trans (lived_kept lived).drawn.list) : shuffled = _)
  exact perm

/-- A node that has processed the blocks one by one has the order of one that is constructed from
its database and the latest block, and of any other one with these validators. The order is a
permutation of the validators, and shuffling never uses an index outside of its list. -/
theorem restarted_nodes_agree (lived : Lived sha3 rdpos db latest) :
    (∀ left, left = rdpos.save db ∨ left = db → ∀ genesisValidators minValidators,
      ∃ opened, load sha3 left genesisValidators minValidators latest = .ok opened ∧ opened.1.validators = rdpos.validators ∧
        opened.1.randomList = rdpos.randomList ∧ opened.1.bestRandomSeed = rdpos.bestRandomSeed) ∧
      (∀ other elsewhere, Lived sha3 other elsewhere latest → other.validators = rdpos.validators →
        other.randomList = rdpos.randomList ∧ other.bestRandomSeed = rdpos.bestRandomSeed) ∧
      rdpos.randomList.Perm rdpos.validators.elements ∧
      ∀ (seed : Hash) (v : List Address), ∃ shuffled, RandomGen.shuffle sha3 seed v = .ok shuffled := by
  have kept := lived_kept lived
  refine ⟨?_, ?_, ?_, ?_⟩
  · intro left stopped genesisValidators minValidators
    have stores : Stores left rdpos.validators := by
      cases stopped with
      | inl saved => exact saved ▸ save_stores kept.sized kept.stores
      | inr crashed => exact crashed ▸ kept.stores
    obtain ⟨opened, loaded, same⟩ := @load_stored sha3 _ _ stores genesisValidators minValidators latest
    exact ⟨opened, loaded, same, drawn_agree kept.drawn (load_spec loaded).1 same⟩
  · intro other elsewhere lived same
    exact drawn_agree kept.drawn (lived_kept lived).drawn same
  · exact lived_perm lived
  · intro seed v
    obtain ⟨shuffled, shuffle, _⟩ := @shuffle_ok _ sha3 seed v
    exact ⟨shuffled, shuffle⟩

/-- A finalized block with some randomness. -/
abbrev drawing (nHeight : UInt64) (blockRandomness : Hash) : Block where
  validatorSig := []
  prevBlockHash := 0
  blockRandomness
  validatorMerkleRoot := 0
  txMerkleRoot := 0
  timestamp := 0
  nHeight
  txValidators := []
  txs := []
  validator := 0
  finalized := true
  hash := 0

abbrev mixing : Bytes → Hash := fun bytes => Hash.ofBytes (5 :: bytes.take 31)

theorem three_validators_agree : ∃ rdpos db, Lived mixing rdpos db (drawing 1 9) ∧ rdpos.validators.elements = [1, 2, 3] ∧
    ∃ opened, load mixing (rdpos.save db) [] 1 (drawing 1 9) = .ok opened ∧ opened.1.randomList = rdpos.randomList := by
  have start := @Lived.start mixing ∅ _ [3, 1, 2] 1 (drawing 0 7) rfl (by decide)
  have lived := Lived.processBlock (drawing 1 9) start rfl
  obtain ⟨opened, loaded, _, list, _⟩ := (restarted_nodes_agree lived).1 _ (.inl rfl) [] 1
  exact ⟨_, _, lived, rfl, opened, loaded, list⟩

end OrbiterSDK.Proofs.RandomOrder
