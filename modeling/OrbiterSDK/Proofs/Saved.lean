import OrbiterSDK.Persistence
import OrbiterSDK.Proofs.ByteStrings

/-! What the destructors leave in the database. Every kind of entry has its own prefix, and
none of the prefixes begins another. -/

namespace OrbiterSDK.Proofs.Saved
open Lib PrefixStore State Utils ByteStrings

private theorem power_160 : (2 : Nat) ^ 160 = 256 ^ 20 := by norm_num

private theorem power_256 : (2 : Nat) ^ 256 = 256 ^ 32 := by norm_num

theorem address_read_get (addr : Address) : Address.read addr.get = .ok addr := by
  have length : addr.get.length = 20 := uintToBytes_length 20 _
  rw [Address.read, if_neg (not_not.mpr length)]
  exact congrArg Except.ok (bitVec_ofBytes power_160 addr)

theorem hash_read_get (hash : Hash) : Hash.read hash.get = .ok hash := by
  have length : hash.get.length = 32 := uintToBytes_length 32 _
  rw [Hash.read, if_neg (not_not.mpr length)]
  exact congrArg Except.ok (bitVec_ofBytes power_256 hash)

theorem address_read {bytes : Bytes} {addr : Address} : Address.read bytes = .ok addr ↔ bytes = addr.get := by
  constructor
  · intro read
    unfold Address.read at read
    split at read
    case isTrue => cases read
    case isFalse size =>
      rw [← Except.ok.inj read]
      exact (bytes_ofBitVec power_160 (not_not.mp size)).symm
  · intro same
    rw [same]
    exact address_read_get addr

theorem hash_read {bytes : Bytes} {hash : Hash} : Hash.read bytes = .ok hash ↔ bytes = hash.get := by
  constructor
  · intro read
    unfold Hash.read at read
    split at read
    case isTrue => cases read
    case isFalse size =>
      rw [← Except.ok.inj read]
      exact (bytes_ofBitVec power_256 (not_not.mp size)).symm
  · intro same
    rw [same]
    exact hash_read_get hash

theorem address_get_inj {first second : Address} (same : first.get = second.get) : first = second :=
  Except.ok.inj ((address_read_get first).symm.trans (address_read.mpr same))

theorem uint64_read {bytes : Bytes} {value : UInt64} : Utils.bytesToUint64 bytes = .ok value ↔ bytes = uintToBytes 8 value.toNat := by
  have length : (uintToBytes 8 value.toNat).length = 8 := uintToBytes_length 8 _
  constructor
  · intro read
    unfold Utils.bytesToUint64 at read
    split at read
    case isTrue => cases read
    case isFalse size =>
      have eight : bytes.length = 8 := not_not.mp size
      have fits : bytesToUint bytes < 2 ^ 64 := by
        have bound := bytesToUint_lt bytes
        rw [eight] at bound
        exact bound
      rw [← Except.ok.inj read, UInt64.toNat_ofNat', Nat.mod_eq_of_lt fits, ← eight, uintToBytes_bytesToUint]
  · intro same
    rw [same, Utils.bytesToUint64, if_neg (not_not.mpr length), bytesToUint_uintToBytes value.toNat_lt, UInt64.ofNat_toNat]

theorem uint256_read {bytes : Bytes} {value : Uint256} :
    Utils.bytesToUint256 bytes = .ok value ↔ bytes = uintToBytes 32 value.toNat := by
  have length : (uintToBytes 32 value.toNat).length = 32 := uintToBytes_length 32 _
  constructor
  · intro read
    unfold Utils.bytesToUint256 at read
    split at read
    case isTrue => cases read
    case isFalse size =>
      rw [← Except.ok.inj read]
      exact (bytes_ofBitVec power_256 (not_not.mp size)).symm
  · intro same
    rw [same, Utils.bytesToUint256, if_neg (not_not.mpr length)]
    exact congrArg Except.ok (bitVec_ofBytes power_256 value)

/-- The key of the height, which is an entry of its own among those of the host. -/
def latestKey : Bytes := DBPrefix.evmHost ++ DB.keyFromStr "latest"

theorem code_apart : Apart DB.accountsCode DB.accountsHashcode ∧ Apart DB.accountsCode DB.accountsStorage ∧
    Apart DB.accountsCode DB.contractAddresses := by decide +kernel

theorem hashcode_apart : Apart DB.accountsHashcode DB.accountsStorage ∧ Apart DB.accountsHashcode DB.contractAddresses ∧
    Apart DB.accountsStorage DB.contractAddresses := by decide +kernel

theorem native_apart : Apart DBPrefix.nativeAccounts DBPrefix.evmHost := by decide

theorem latest_apart : Apart latestKey DB.accountsCode ∧ Apart latestKey DB.accountsHashcode ∧
    Apart latestKey DB.accountsStorage ∧ Apart latestKey DB.contractAddresses := by decide +kernel

/-- The entries of a host, kind by kind. -/
inductive HostEntry (host : EVMHost) : Bytes → Bytes → Prop where
  | code {addr : Address} (member : addr ∈ host.accounts.keys) :
      HostEntry host (DB.accountsCode ++ addr.get) (host.account addr).code.first
  | codeHash {addr : Address} (member : addr ∈ host.accounts.keys) :
      HostEntry host (DB.accountsHashcode ++ addr.get) (host.account addr).codeHash.first.get
  | slot {addr : Address} {key : Hash} (member : key ∈ (host.account addr).storage.keys) :
      HostEntry host (DB.accountsStorage ++ (addr.get ++ key.get)) ((host.account addr).storage.value key).second.get
  | created {txHash : Hash} (member : txHash ∈ host.contractAddresses.keys) :
      HostEntry host (DB.contractAddresses ++ txHash.get) (host.contractAddresses.value txHash).get

theorem mem_accounts_of_slot {host : EVMHost} {addr : Address} {key : Hash} (member : key ∈ (host.account addr).storage.keys) :
    addr ∈ host.accounts.keys := by
  by_contra outside
  rw [EVMHost.account, host.accounts.absent addr outside] at member
  exact absurd member (Finset.notMem_empty key)

theorem mem_batch {host : EVMHost} (walk : host.Walk) {key value : Bytes} :
    (key, value) ∈ walk.addresses.flatMap (EVMHost.accountEntries walk) ++ EVMHost.contractEntries walk ↔
      HostEntry host key value := by
  rw [List.mem_append, List.mem_flatMap]
  constructor
  · rintro (⟨addr, member, entry⟩ | entry)
    · have exists_account := (walk.mem_addresses addr).mp member
      cases entry with
      | head => exact .code exists_account
      | tail _ entry =>
        cases entry with
        | head => exact .codeHash exists_account
        | tail _ entry =>
          obtain ⟨slot, listed, same⟩ := List.mem_map.mp entry
          cases same
          exact .slot ((walk.mem_slots addr slot).mp listed)
    · obtain ⟨txHash, listed, same⟩ := List.mem_map.mp entry
      cases same
      exact .created ((walk.mem_txHashes txHash).mp listed)
  · intro entry
    cases entry with
    | @code addr member => exact .inl ⟨addr, (walk.mem_addresses addr).mpr member, List.mem_cons_self⟩
    | @codeHash addr member =>
      exact .inl ⟨addr, (walk.mem_addresses addr).mpr member, List.mem_cons_of_mem _ List.mem_cons_self⟩
    | @slot addr key member =>
      refine .inl ⟨addr, (walk.mem_addresses addr).mpr (mem_accounts_of_slot member), ?_⟩
      apply List.mem_cons_of_mem
      apply List.mem_cons_of_mem
      exact List.mem_map.mpr ⟨key, (walk.mem_slots addr key).mpr member, rfl⟩
    | @created txHash member => exact .inr (List.mem_map.mpr ⟨txHash, (walk.mem_txHashes txHash).mpr member, rfl⟩)

theorem append_get_inj {first second : Address} {left right : Hash}
    (same : first.get ++ left.get = second.get ++ right.get) : first = second ∧ left = right := by
  have sizes : first.get.length = second.get.length := (uintToBytes_length 20 _).trans (uintToBytes_length 20 _).symm
  obtain ⟨addresses, hashes⟩ := List.append_inj same sizes
  exact ⟨address_get_inj addresses, Hash.get_injective hashes⟩

variable {host : EVMHost} {key value : Bytes}

theorem entry_code : HostEntry host (DB.accountsCode ++ key) value ↔
    ∃ addr ∈ host.accounts.keys, key = addr.get ∧ value = (host.account addr).code.first := by
  constructor
  · intro entry
    generalize same : DB.accountsCode ++ key = whole at entry
    cases entry with
    | code member => exact ⟨_, member, List.append_cancel_left same, rfl⟩
    | codeHash => exact absurd same (code_apart.1.ne _ _)
    | slot => exact absurd same (code_apart.2.1.ne _ _)
    | created => exact absurd same (code_apart.2.2.ne _ _)
  · rintro ⟨addr, member, sameKey, sameValue⟩
    rw [sameKey, sameValue]
    exact .code member

theorem entry_codeHash : HostEntry host (DB.accountsHashcode ++ key) value ↔
    ∃ addr ∈ host.accounts.keys, key = addr.get ∧ value = (host.account addr).codeHash.first.get := by
  constructor
  · intro entry
    generalize same : DB.accountsHashcode ++ key = whole at entry
    cases entry with
    | code => exact absurd same.symm (code_apart.1.ne _ _)
    | codeHash member => exact ⟨_, member, List.append_cancel_left same, rfl⟩
    | slot => exact absurd same (hashcode_apart.1.ne _ _)
    | created => exact absurd same (hashcode_apart.2.1.ne _ _)
  · rintro ⟨addr, member, sameKey, sameValue⟩
    rw [sameKey, sameValue]
    exact .codeHash member

theorem entry_slot : HostEntry host (DB.accountsStorage ++ key) value ↔
    ∃ addr, ∃ slot ∈ (host.account addr).storage.keys,
      key = addr.get ++ slot.get ∧ value = ((host.account addr).storage.value slot).second.get := by
  constructor
  · intro entry
    generalize same : DB.accountsStorage ++ key = whole at entry
    cases entry with
    | code => exact absurd same.symm (code_apart.2.1.ne _ _)
    | codeHash => exact absurd same.symm (hashcode_apart.1.ne _ _)
    | slot member => exact ⟨_, _, member, List.append_cancel_left same, rfl⟩
    | created => exact absurd same (hashcode_apart.2.2.ne _ _)
  · rintro ⟨addr, slot, member, sameKey, sameValue⟩
    rw [sameKey, sameValue]
    exact .slot member

theorem entry_created : HostEntry host (DB.contractAddresses ++ key) value ↔
    ∃ txHash ∈ host.contractAddresses.keys, key = txHash.get ∧ value = (host.contractAddresses.value txHash).get := by
  constructor
  · intro entry
    generalize same : DB.contractAddresses ++ key = whole at entry
    cases entry with
    | code => exact absurd same.symm (code_apart.2.2.ne _ _)
    | codeHash => exact absurd same.symm (hashcode_apart.2.1.ne _ _)
    | slot => exact absurd same.symm (hashcode_apart.2.2.ne _ _)
    | created member => exact ⟨_, member, List.append_cancel_left same, rfl⟩
  · rintro ⟨txHash, member, sameKey, sameValue⟩
    rw [sameKey, sameValue]
    exact .created member

theorem HostEntry.unique {other : Bytes} (left : HostEntry host key value) (right : HostEntry host key other) : value = other := by
  cases left with
  | code =>
    obtain ⟨_, _, same, sameValue⟩ := entry_code.mp right
    rw [sameValue, address_get_inj same]
  | codeHash =>
    obtain ⟨_, _, same, sameValue⟩ := entry_codeHash.mp right
    rw [sameValue, address_get_inj same]
  | slot =>
    obtain ⟨_, _, _, same, sameValue⟩ := entry_slot.mp right
    obtain ⟨sameAddr, sameSlot⟩ := append_get_inj same
    rw [sameValue, sameAddr, sameSlot]
  | created =>
    obtain ⟨_, _, same, sameValue⟩ := entry_created.mp right
    rw [sameValue, Hash.get_injective same]

/-- Where the entries of a host are. -/
structure HostRegion (pfx : Bytes) : Prop where
  native : Apart pfx DBPrefix.nativeAccounts
  latest : Apart latestKey pfx

theorem region_code : HostRegion DB.accountsCode := ⟨by decide, latest_apart.1⟩

theorem region_codeHash : HostRegion DB.accountsHashcode := ⟨by decide, latest_apart.2.1⟩

theorem region_slot : HostRegion DB.accountsStorage := ⟨by decide, latest_apart.2.2.1⟩

theorem region_created : HostRegion DB.contractAddresses := ⟨by decide, latest_apart.2.2.2⟩

theorem HostEntry.region {host : EVMHost} {key value : Bytes} (entry : HostEntry host key value) :
    ∃ pfx rest, HostRegion pfx ∧ key = pfx ++ rest := by
  cases entry with
  | code => exact ⟨_, _, region_code, rfl⟩
  | codeHash => exact ⟨_, _, region_codeHash, rfl⟩
  | slot => exact ⟨_, _, region_slot, rfl⟩
  | created => exact ⟨_, _, region_created, rfl⟩

section Lookups
variable (walk : host.Walk) (db : DB) (nHeight : UInt64) {pfx : Bytes}

private theorem apart_latest (region : HostRegion pfx) : pfx ++ key ≠ latestKey := by
  intro same
  rw [← List.append_nil latestKey] at same
  exact region.latest.ne [] key same.symm

private theorem batch_once {first second : Bytes}
    (left : (key, first) ∈ walk.addresses.flatMap (EVMHost.accountEntries walk) ++ EVMHost.contractEntries walk)
    (right : (key, second) ∈ walk.addresses.flatMap (EVMHost.accountEntries walk) ++ EVMHost.contractEntries walk) :
    first = second :=
  ((mem_batch walk).mp left).unique ((mem_batch walk).mp right)

/-- Every entry that the database has of a kind is of the host or older. -/
theorem lookup_saveHost_region (region : HostRegion pfx) :
    (EVMHost.save walk db nHeight).lookup (pfx ++ key) = some value ↔ HostEntry host (pfx ++ key) value ∨
      (∀ other, ¬ HostEntry host (pfx ++ key) other) ∧ db.lookup (pfx ++ key) = some value := by
  have older : (db.put (DB.keyFromStr "latest") (uintToBytes 8 nHeight.toNat) DBPrefix.evmHost).lookup (pfx ++ key) =
      db.lookup (pfx ++ key) :=
    AList.lookup_insert_ne (apart_latest region)
  rw [← older, ← mem_batch walk]
  simp only [← mem_batch walk]
  exact lookup_putAll_iff (batch_once walk)

theorem lookup_saveHost_latest : (EVMHost.save walk db nHeight).lookup latestKey = some (uintToBytes 8 nHeight.toNat) := by
  apply (lookup_putAll_of_not_mem _).trans (AList.lookup_insert _)
  intro entry listed same
  obtain ⟨pfx, rest, region, begins⟩ := ((mem_batch walk).mp listed).region
  exact apart_latest region (begins.symm.trans same)

theorem lookup_saveHost_native : (EVMHost.save walk db nHeight).lookup (DBPrefix.nativeAccounts ++ key) =
    db.lookup (DBPrefix.nativeAccounts ++ key) := by
  apply (lookup_putAll_of_not_mem _).trans (AList.lookup_insert_ne (native_apart.ne key _))
  intro entry listed same
  obtain ⟨pfx, rest, region, begins⟩ := ((mem_batch walk).mp listed).region
  exact region.native.ne rest key (begins.symm.trans same)

end Lookups

variable {World : Type} {state : State World} (walk : state.evmHost.Walk) (db : DB)

/-- The batch of the state's destructor. -/
def nativeBatch : List (Bytes × Bytes) :=
  walk.addresses.map fun address => nativeEntry address (state.balanceOf address) (state.nonceOf address)

theorem save_eq : state.save walk db = EVMHost.save walk (db.putAll (nativeBatch walk)) state.latest.nHeight := rfl

private theorem mem_nativeBatch {key value : Bytes} : (DBPrefix.nativeAccounts ++ key, value) ∈ nativeBatch walk ↔
    ∃ addr ∈ state.evmHost.accounts.keys, key = addr.get ∧
      value = (nativeEntry addr (state.balanceOf addr) (state.nonceOf addr)).2 := by
  rw [nativeBatch, List.mem_map]
  constructor
  · rintro ⟨addr, listed, same⟩
    obtain ⟨sameKey, sameValue⟩ := Prod.ext_iff.mp same
    exact ⟨addr, (walk.mem_addresses addr).mp listed, (List.append_cancel_left sameKey).symm, sameValue.symm⟩
  · rintro ⟨addr, member, sameKey, sameValue⟩
    rw [sameKey, sameValue]
    exact ⟨addr, (walk.mem_addresses addr).mpr member, rfl⟩

private theorem nativeBatch_once {key first second : Bytes} (left : (key, first) ∈ nativeBatch walk)
    (right : (key, second) ∈ nativeBatch walk) : first = second := by
  obtain ⟨addr, _, same⟩ := List.mem_map.mp left
  obtain ⟨sameKey, sameValue⟩ := Prod.ext_iff.mp same
  obtain ⟨addr', _, same'⟩ := List.mem_map.mp right
  obtain ⟨sameKey', sameValue'⟩ := Prod.ext_iff.mp same'
  obtain rfl := address_get_inj (List.append_cancel_left (sameKey.trans sameKey'.symm))
  exact sameValue.symm.trans sameValue'

theorem lookup_region {pfx key value : Bytes} (region : HostRegion pfx) :
    (state.save walk db).lookup (pfx ++ key) = some value ↔ HostEntry state.evmHost (pfx ++ key) value ∨
      (∀ other, ¬ HostEntry state.evmHost (pfx ++ key) other) ∧ db.lookup (pfx ++ key) = some value := by
  have older : (db.putAll (nativeBatch walk)).lookup (pfx ++ key) = db.lookup (pfx ++ key) := by
    apply lookup_putAll_of_not_mem
    intro entry listed same
    obtain ⟨addr, _, rfl⟩ := List.mem_map.mp listed
    exact region.native.ne key addr.get same.symm
  rw [save_eq, lookup_saveHost_region walk _ _ region, older]

/-- The database has no entries but those that are overwritten, or, for created contracts,
that look like them. -/
structure Covered (db : DB) (host : EVMHost) : Prop where
  native : ∀ {key value}, db.lookup (DBPrefix.nativeAccounts ++ key) = some value → ∃ addr ∈ host.accounts.keys, key = addr.get
  code : ∀ {key value}, db.lookup (DB.accountsCode ++ key) = some value → ∃ addr ∈ host.accounts.keys, key = addr.get
  codeHash : ∀ {key value}, db.lookup (DB.accountsHashcode ++ key) = some value → ∃ addr ∈ host.accounts.keys, key = addr.get
  slot : ∀ {key value}, db.lookup (DB.accountsStorage ++ key) = some value →
    ∃ addr, ∃ slot ∈ (host.account addr).storage.keys, key = addr.get ++ slot.get
  created : ∀ {key value}, db.lookup (DB.contractAddresses ++ key) = some value →
    ∃ (txHash : Hash) (addr : Address), key = txHash.get ∧ value = addr.get

section Written
variable (covered : Covered db state.evmHost)

private theorem lookup_overwritten {pfx : Bytes} (region : HostRegion pfx)
    (overwritten : db.lookup (pfx ++ key) = some value → ∃ other, HostEntry state.evmHost (pfx ++ key) other) :
    (state.save walk db).lookup (pfx ++ key) = some value ↔ HostEntry state.evmHost (pfx ++ key) value := by
  rw [lookup_region walk db region]
  constructor
  · intro either
    cases either with
    | inl entry => exact entry
    | inr older =>
      obtain ⟨other, entry⟩ := overwritten older.2
      exact absurd entry (older.1 other)
  · exact .inl

include covered

theorem saved_code : (state.save walk db).lookup (DB.accountsCode ++ key) = some value ↔
    ∃ addr ∈ state.evmHost.accounts.keys, key = addr.get ∧ value = (state.evmHost.account addr).code.first := by
  rw [lookup_overwritten walk db region_code, entry_code]
  intro older
  obtain ⟨addr, member, same⟩ := covered.code older
  exact ⟨_, entry_code.mpr ⟨addr, member, same, rfl⟩⟩

theorem saved_codeHash : (state.save walk db).lookup (DB.accountsHashcode ++ key) = some value ↔
    ∃ addr ∈ state.evmHost.accounts.keys, key = addr.get ∧ value = (state.evmHost.account addr).codeHash.first.get := by
  rw [lookup_overwritten walk db region_codeHash, entry_codeHash]
  intro older
  obtain ⟨addr, member, same⟩ := covered.codeHash older
  exact ⟨_, entry_codeHash.mpr ⟨addr, member, same, rfl⟩⟩

theorem saved_slot : (state.save walk db).lookup (DB.accountsStorage ++ key) = some value ↔
    ∃ addr, ∃ slot ∈ (state.evmHost.account addr).storage.keys,
      key = addr.get ++ slot.get ∧ value = ((state.evmHost.account addr).storage.value slot).second.get := by
  rw [lookup_overwritten walk db region_slot, entry_slot]
  intro older
  obtain ⟨addr, slot, member, same⟩ := covered.slot older
  exact ⟨_, entry_slot.mpr ⟨addr, slot, member, same, rfl⟩⟩

omit covered in
theorem saved_created : (state.save walk db).lookup (DB.contractAddresses ++ key) = some value ↔
    (∃ txHash ∈ state.evmHost.contractAddresses.keys,
      key = txHash.get ∧ value = (state.evmHost.contractAddresses.value txHash).get) ∨
    (∀ txHash ∈ state.evmHost.contractAddresses.keys, key ≠ txHash.get) ∧
      db.lookup (DB.contractAddresses ++ key) = some value := by
  have forgotten : (∀ other, ¬ HostEntry state.evmHost (DB.contractAddresses ++ key) other) ↔
      ∀ txHash ∈ state.evmHost.contractAddresses.keys, key ≠ txHash.get := by
    constructor
    · intro unwritten txHash member same
      exact unwritten _ (entry_created.mpr ⟨txHash, member, same, rfl⟩)
    · intro apart other entry
      obtain ⟨txHash, member, same, _⟩ := entry_created.mp entry
      exact apart txHash member same
  rw [lookup_region walk db region_created, entry_created, forgotten]

theorem saved_native : (state.save walk db).lookup (DBPrefix.nativeAccounts ++ key) = some value ↔
    ∃ addr ∈ state.evmHost.accounts.keys, key = addr.get ∧
      value = (nativeEntry addr (state.balanceOf addr) (state.nonceOf addr)).2 := by
  rw [save_eq, lookup_saveHost_native, ← mem_nativeBatch walk, lookup_putAll_iff (nativeBatch_once walk)]
  constructor
  · intro either
    cases either with
    | inl listed => exact listed
    | inr older =>
      obtain ⟨addr, member, same⟩ := covered.native older.2
      exact absurd ((mem_nativeBatch walk).mpr ⟨addr, member, same, rfl⟩) (older.1 _)
  · exact .inl

end Written

theorem saved_latest :
    (state.save walk db).lookup latestKey = some (uintToBytes 8 state.latest.nHeight.toNat) :=
  lookup_saveHost_latest walk _ _

end OrbiterSDK.Proofs.Saved
