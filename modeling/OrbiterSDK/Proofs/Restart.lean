import OrbiterSDK.Proofs.Growth
import OrbiterSDK.Proofs.Loaded
import OrbiterSDK.Proofs.NonceOrder

/-! Restarts. A node that is stopped and started again has the state it had, but for code
that was not in step and for created contracts that the database still has. -/

namespace OrbiterSDK.Proofs.Restart
open Lib PrefixStore State Utils Saved Loaded Growth

variable {World : Type}

theorem readDb_saved {db : DB} {nHeight : UInt64} {read : Database} (decoded : Decoded db read)
    (latest : db.lookup latestKey = some (uintToBytes 8 nHeight.toNat)) :
    EVMHost.readDb db nHeight = .ok { read with nativeAccounts := [] } := by
  have saved : db.has (DB.keyFromStr "latest") DBPrefix.evmHost = true := congrArg Option.isSome latest
  have bytes : db.get (DB.keyFromStr "latest") DBPrefix.evmHost = uintToBytes 8 nHeight.toNat :=
    congrArg (fun found => Option.getD found []) latest
  rw [EVMHost.readDb, if_pos saved, bytes]
  apply bind_ok.mpr
  refine ⟨nHeight, uint64_read.mpr rfl, ?_⟩
  rw [if_neg (not_not.mpr rfl)]
  refine bind_ok.mpr ⟨_, decoded.code, bind_ok.mpr ⟨_, decoded.codeHash, ?_⟩⟩
  exact bind_ok.mpr ⟨_, decoded.created, bind_ok.mpr ⟨_, decoded.slot, rfl⟩⟩

theorem decoded_saved {state : State World} (walk : state.evmHost.Walk) {db : DB} (covered : Covered db state.evmHost) :
    ∃ read, Decoded (state.save walk db) read := by
  have codes : ∃ items, ((state.save walk db).getBatch DB.accountsCode).mapM EVMHost.readCode = .ok items := by
    apply decode_ok decodes_code
    intro key value found
    obtain ⟨addr, _, same, sameValue⟩ := (saved_code walk db covered).mp found
    exact ⟨(addr, _), Prod.ext same sameValue⟩
  have codeHashes : ∃ items, ((state.save walk db).getBatch DB.accountsHashcode).mapM EVMHost.readHashcode = .ok items := by
    apply decode_ok decodes_hashcode
    intro key value found
    obtain ⟨addr, _, same, sameValue⟩ := (saved_codeHash walk db covered).mp found
    exact ⟨(addr, _), Prod.ext same sameValue⟩
  have created : ∃ items, ((state.save walk db).getBatch DB.contractAddresses).mapM EVMHost.readContract = .ok items := by
    apply decode_ok decodes_contract
    intro key value found
    cases (saved_created walk db).mp found with
    | inl current =>
      obtain ⟨txHash, _, same, sameValue⟩ := current
      exact ⟨(txHash, _), Prod.ext same sameValue⟩
    | inr older =>
      obtain ⟨txHash, addr, same, sameValue⟩ := covered.created older.2
      exact ⟨(txHash, addr), Prod.ext same sameValue⟩
  have slots : ∃ items, ((state.save walk db).getBatch DB.accountsStorage).mapM EVMHost.readSlot = .ok items := by
    apply decode_ok decodes_slot
    intro key value found
    obtain ⟨addr, slot, _, same, sameValue⟩ := (saved_slot walk db covered).mp found
    exact ⟨(addr, slot, _), Prod.ext same sameValue⟩
  have natives : ∃ items, ((state.save walk db).getBatch DBPrefix.nativeAccounts).mapM readNative = .ok items := by
    apply decode_ok decodes_account
    intro key value found
    obtain ⟨addr, _, same, sameValue⟩ := (saved_native walk db covered).mp found
    exact ⟨(addr, state.balanceOf addr, state.nonceOf addr), Prod.ext same sameValue⟩
  obtain ⟨accountsCode, code⟩ := codes
  obtain ⟨accountsHashcode, codeHash⟩ := codeHashes
  obtain ⟨contractAddresses, created⟩ := created
  obtain ⟨accountsStorage, slot⟩ := slots
  obtain ⟨nativeAccounts, native⟩ := natives
  exact ⟨⟨accountsCode, accountsHashcode, contractAddresses, accountsStorage, nativeAccounts⟩, ⟨code, codeHash, created, slot, native⟩⟩

/-- Genesis balances are put in again only if there are no accounts. -/
def Seeded (genesisBalances : List (Address × Uint256)) (host : EVMHost) : Prop :=
  genesisBalances = [] ∨ host.accounts.keys.Nonempty

section Restarted
variable {state : State World} (walk : state.evmHost.Walk) {db : DB} (covered : Covered db state.evmHost)
  {genesisBalances : List (Address × Uint256)}
include covered

theorem native_listed {read : Database} (decoded : Decoded (state.save walk db) read) {addr : Address}
    (member : addr ∈ state.evmHost.accounts.keys) : (addr, state.balanceOf addr, state.nonceOf addr) ∈ read.nativeAccounts :=
  (mem_decoded decodes_account decoded.native).mpr ((saved_native walk db covered).mpr ⟨addr, member, rfl, rfl⟩)

/-- The state can be constructed again from what its destructor has left. -/
theorem load_saved (seeded : Seeded genesisBalances state.evmHost) {read : Database} (decoded : Decoded (state.save walk db) read)
    (world : World) (events : List Event) (rdposSeed : Hash) :
    load (state.save walk db) genesisBalances world events rdposSeed state.storage =
      .ok (construct read world events rdposSeed state.storage, state.save walk db) := by
  have kept : (if ((state.save walk db).getBatch DBPrefix.nativeAccounts).isEmpty
      then putGenesis (state.save walk db) genesisBalances else state.save walk db) = state.save walk db := by
    cases seeded with
    | inl none =>
      rw [none]
      exact ite_self _
    | inr some =>
      obtain ⟨addr, member⟩ := some
      apply if_neg
      intro empty
      have found := (saved_native walk db covered).mpr ⟨addr, member, rfl, rfl⟩
      have listed := mem_scan.mpr found
      rw [DB.getBatch, List.isEmpty_iff] at empty
      rw [empty] at listed
      cases listed
  rw [load]
  refine bind_ok.mpr ⟨_, readDb_saved decoded (saved_latest walk db), ?_⟩
  simp only [kept]
  exact bind_ok.mpr ⟨_, decoded.native, rfl⟩

variable {read : Database} (decoded : Decoded (state.save walk db) read) (addr : Address)
include decoded

theorem code_reopened : ((withNative read).value addr).code =
    ⟨(state.evmHost.account addr).code.first, (state.evmHost.account addr).code.first⟩ := by
  apply code_withNative
  · rintro ⟨_, code⟩ listed rfl
    obtain ⟨other, _, same, sameValue⟩ := (saved_code walk db covered).mp ((mem_decoded decodes_code decoded.code).mp listed)
    rw [address_get_inj same]
    exact sameValue
  · intro unlisted
    have outside : addr ∉ state.evmHost.accounts.keys := by
      intro member
      have found := (saved_code walk db covered).mpr ⟨addr, member, rfl, rfl⟩
      exact unlisted (addr, _) ((mem_decoded decodes_code decoded.code).mpr found) rfl
    rw [EVMHost.account, state.evmHost.accounts.absent addr outside]
    rfl

theorem codeHash_reopened : ((withNative read).value addr).codeHash =
    ⟨(state.evmHost.account addr).codeHash.first, (state.evmHost.account addr).codeHash.first⟩ := by
  apply codeHash_withNative
  · rintro ⟨_, codeHash⟩ listed rfl
    obtain ⟨other, _, same, sameValue⟩ :=
      (saved_codeHash walk db covered).mp ((mem_decoded decodes_hashcode decoded.codeHash).mp listed)
    rw [address_get_inj same]
    exact Hash.get_injective sameValue
  · intro unlisted
    have outside : addr ∉ state.evmHost.accounts.keys := by
      intro member
      have found := (saved_codeHash walk db covered).mpr ⟨addr, member, rfl, rfl⟩
      exact unlisted (addr, _) ((mem_decoded decodes_hashcode decoded.codeHash).mpr found) rfl
    rw [EVMHost.account, state.evmHost.accounts.absent addr outside]
    rfl

theorem slot_reopened (key : Hash) : ((withNative read).value addr).storage.value key =
    ⟨state.evmHost.getStorage addr key, state.evmHost.getStorage addr key⟩ := by
  apply slot_withNative
  · rintro ⟨_, _, value⟩ listed ⟨rfl, rfl⟩
    obtain ⟨other, slot, _, same, sameValue⟩ :=
      (saved_slot walk db covered).mp ((mem_decoded decodes_slot decoded.slot).mp listed)
    obtain ⟨sameAddr, sameKey⟩ := append_get_inj same
    rw [sameAddr, sameKey]
    exact Hash.get_injective sameValue
  · intro unlisted
    have outside : key ∉ (state.evmHost.account addr).storage.keys := by
      intro member
      have found := (saved_slot walk db covered).mpr ⟨addr, key, member, rfl, rfl⟩
      exact unlisted (addr, key, _) ((mem_decoded decodes_slot decoded.slot).mpr found) ⟨rfl, rfl⟩
    rw [EVMHost.getStorage, Table.absent _ key outside]
    rfl

theorem native_reopened : (((withNative read).value addr).balance, ((withNative read).value addr).nonce) =
    (⟨state.balanceOf addr, state.balanceOf addr⟩, ⟨state.nonceOf addr, state.nonceOf addr⟩) := by
  apply native_withNative
  · rintro ⟨addr, balance, nonce⟩ listed rfl
    obtain ⟨other, _, same, sameValue⟩ :=
      (saved_native walk db covered).mp ((mem_decoded decodes_account decoded.native).mp listed)
    obtain rfl := address_get_inj same
    have entries : accountEntry (addr, balance, nonce) = accountEntry (addr, state.balanceOf addr, state.nonceOf addr) :=
      Prod.ext rfl sameValue
    exact congrArg Prod.snd (decodes_account.injective entries)
  · intro unlisted
    have outside : addr ∉ state.evmHost.accounts.keys :=
      fun member => unlisted _ (native_listed walk covered decoded member) rfl
    have default : state.evmHost.account addr = default := state.evmHost.accounts.absent addr outside
    rw [State.balanceOf, State.nonceOf, EVMHost.balanceOf, default]
    exact ⟨rfl, rfl⟩

omit covered in
theorem find_reopened (world : World) (events : List Event) (rdposSeed : Hash) (storage : Chain) (txHash : Hash) (found : Address) :
    (construct read world events rdposSeed storage).evmHost.contractAddresses.find txHash = some found ↔
      (state.save walk db).lookup (DB.contractAddresses ++ txHash.get) = some found.get := by
  have listed : ∀ {addr}, (txHash, addr) ∈ read.contractAddresses ↔
      (state.save walk db).lookup (DB.contractAddresses ++ txHash.get) = some addr.get :=
    mem_decoded decodes_contract decoded.created
  have here : ∀ addr, (state.save walk db).lookup (DB.contractAddresses ++ txHash.get) = some addr.get →
      (construct read world events rdposSeed storage).evmHost.contractAddresses.find txHash = some addr := by
    intro addr present
    apply find_contracts
    · rintro ⟨_, other⟩ member rfl
      have both := (listed.mp member).symm.trans present
      exact congrArg some (address_get_inj (Option.some.inj both))
    · intro unlisted
      exact absurd rfl (unlisted _ (listed.mpr present))
  constructor
  · intro opened
    by_contra missing
    have unlisted : ∀ item ∈ read.contractAddresses, item.1 ≠ txHash := by
      rintro ⟨_, addr⟩ member rfl
      have same := (here addr (listed.mp member)).symm.trans opened
      rw [Option.some.inj same] at member
      exact missing (listed.mp member)
    have none : (construct read world events rdposSeed storage).evmHost.contractAddresses.find txHash = none :=
      find_contracts (fun item member same => absurd same (unlisted item member)) fun _ => rfl
    exact absurd (opened.symm.trans none) (Option.some_ne_none found)
  · exact here found

theorem contracts_reopened_iff (world : World) (events : List Event) (rdposSeed : Hash) (storage : Chain) :
    (construct read world events rdposSeed storage).evmHost.contractAddresses = state.evmHost.contractAddresses ↔
      ∀ txHash, (db.lookup (DB.contractAddresses ++ txHash.get)).isSome → txHash ∈ state.evmHost.contractAddresses.keys := by
  have opened := find_reopened walk decoded world events rdposSeed storage
  constructor
  · intro same txHash stored
    by_contra forgotten
    obtain ⟨value, older⟩ := Option.isSome_iff_exists.mp stored
    obtain ⟨_, addr, _, sameValue⟩ := covered.created older
    have apart : ∀ other ∈ state.evmHost.contractAddresses.keys, txHash.get ≠ other.get := by
      intro other member sameKey
      rw [← Hash.get_injective sameKey] at member
      exact forgotten member
    have still := (saved_created walk db).mpr (.inr ⟨apart, older⟩)
    rw [sameValue] at still
    have found := (opened txHash addr).mpr still
    rw [same] at found
    exact forgotten (Table.find_eq_some found).1
  · intro known
    apply Table.eq_of_find
    intro txHash
    apply Option.ext
    intro addr
    rw [opened txHash addr, saved_created walk db]
    constructor
    · intro either
      cases either with
      | inl current =>
        obtain ⟨other, member, sameKey, sameValue⟩ := current
        obtain rfl := Hash.get_injective sameKey
        rw [address_get_inj sameValue, Table.find, if_pos member]
      | inr older => exact absurd rfl (older.1 txHash (known txHash (Option.isSome_iff_exists.mpr ⟨_, older.2⟩)))
    · intro found
      obtain ⟨member, sameValue⟩ := Table.find_eq_some found
      exact .inl ⟨txHash, member, rfl, congrArg Address.get sameValue.symm⟩

end Restarted

/-- What holds of a state and its database at any time. -/
structure Kept (genesisBalances : List (Address × Uint256)) (state : State World) (db : DB) : Prop where
  covered : Covered db state.evmHost
  seeded : Seeded genesisBalances state.evmHost

section Grown
variable {before after : EVMHost} (grown : HostGrown before after)
include grown

theorem covered_grown {db : DB} (covered : Covered db before) : Covered db after where
  native found := by
    obtain ⟨addr, member, same⟩ := covered.native found
    exact ⟨addr, grown.keys member, same⟩
  code found := by
    obtain ⟨addr, member, same⟩ := covered.code found
    exact ⟨addr, grown.keys member, same⟩
  codeHash found := by
    obtain ⟨addr, member, same⟩ := covered.codeHash found
    exact ⟨addr, grown.keys member, same⟩
  slot found := by
    obtain ⟨addr, slot, member, same⟩ := covered.slot found
    exact ⟨addr, slot, grown.slots addr member, same⟩
  created := covered.created

theorem seeded_grown {genesisBalances : List (Address × Uint256)} (seeded : Seeded genesisBalances before) :
    Seeded genesisBalances after := by
  cases seeded with
  | inl none => exact .inl none
  | inr some => exact .inr (some.mono grown.keys)

end Grown

theorem covered_elsewhere {db db' : DB} {host : EVMHost} (covered : Covered db host)
    (same : ∀ key, db'.lookup (DBPrefix.nativeAccounts ++ key) = db.lookup (DBPrefix.nativeAccounts ++ key) ∧
      db'.lookup (DBPrefix.evmHost ++ key) = db.lookup (DBPrefix.evmHost ++ key)) : Covered db' host := by
  have inside : ∀ (name : String) (key : Bytes), db'.lookup (DB.makeNewPrefix DBPrefix.evmHost name ++ key) =
      db.lookup (DB.makeNewPrefix DBPrefix.evmHost name ++ key) := by
    intro name key
    rw [DB.makeNewPrefix, List.append_assoc]
    exact (same _).2
  constructor
  case native => exact fun found => covered.native ((same _).1.symm.trans found)
  case code => exact fun found => covered.code ((inside _ _).symm.trans found)
  case codeHash => exact fun found => covered.codeHash ((inside _ _).symm.trans found)
  case slot => exact fun found => covered.slot ((inside _ _).symm.trans found)
  case created => exact fun found => covered.created ((inside _ _).symm.trans found)

theorem keys_construct {read : Database} {item : Address × Uint256 × UInt64} (listed : item ∈ read.nativeAccounts) (world : World)
    (events : List Event) (rdposSeed : Hash) (storage : Chain) :
    item.1 ∈ (construct read world events rdposSeed storage).evmHost.accounts.keys := by
  rw [accounts_construct, keys_withNative]
  exact Finset.mem_union_right _ (List.mem_toFinset.mpr (List.mem_map_of_mem listed))

section Fresh
variable {db : DB} {genesisBalances : List (Address × Uint256)}
  (fresh : ∀ key, db.lookup (DBPrefix.nativeAccounts ++ key) = none ∧ db.lookup (DBPrefix.evmHost ++ key) = none)

theorem putGenesis_eq : putGenesis db genesisBalances = db.putAll (genesisBalances.map fun entry => nativeEntry entry.1 entry.2 0) := by
  rw [PrefixStore.putAll, List.foldl_map]
  rfl

theorem lookup_putGenesis_host (key : Bytes) :
    (putGenesis db genesisBalances).lookup (DBPrefix.evmHost ++ key) = db.lookup (DBPrefix.evmHost ++ key) := by
  rw [putGenesis_eq]
  apply lookup_putAll_of_not_mem
  intro entry listed same
  obtain ⟨account, _, rfl⟩ := List.mem_map.mp listed
  exact native_apart.ne account.1.get key same

include fresh

theorem decoded_fresh {nativeAccounts : List (Address × Uint256 × UInt64)}
    (native : ((putGenesis db genesisBalances).getBatch DBPrefix.nativeAccounts).mapM readNative = .ok nativeAccounts) :
    Decoded (putGenesis db genesisBalances) { nativeAccounts } := by
  have none : ∀ name, (putGenesis db genesisBalances).getBatch (DB.makeNewPrefix DBPrefix.evmHost name) = [] := by
    intro name
    apply scan_eq_nil
    intro key
    rw [DB.makeNewPrefix, List.append_assoc, lookup_putGenesis_host]
    exact (fresh _).2
  constructor
  case code => exact congrArg (List.mapM EVMHost.readCode) (none _)
  case codeHash => exact congrArg (List.mapM EVMHost.readHashcode) (none _)
  case created => exact congrArg (List.mapM EVMHost.readContract) (none _)
  case slot => exact congrArg (List.mapM EVMHost.readSlot) (none _)
  case native => exact native

theorem load_of_fresh (world : World) (events : List Event) (rdposSeed : Hash) (storage : Chain) :
    load db genesisBalances world events rdposSeed storage = (do
      let nativeAccounts ← ((putGenesis db genesisBalances).getBatch DBPrefix.nativeAccounts).mapM readNative
      pure (construct { nativeAccounts } world events rdposSeed storage, putGenesis db genesisBalances)) := by
  have unsaved : EVMHost.readDb db storage.latest.nHeight = .ok {} := by
    rw [EVMHost.readDb, if_neg]
    · rfl
    · rw [DB.has, (fresh _).2]
      exact Bool.false_ne_true
  have empty : (db.getBatch DBPrefix.nativeAccounts).isEmpty = true := by
    rw [List.isEmpty_iff]
    exact scan_eq_nil fun key => (fresh key).1
  rw [load, unsaved, ok_bind]
  simp only [if_pos empty]

theorem load_fresh {opened : State World × DB} {world : World} {events : List Event} {rdposSeed : Hash} {storage : Chain}
    (loaded : load db genesisBalances world events rdposSeed storage = .ok opened) : Kept genesisBalances opened.1 opened.2 := by
  rw [load_of_fresh fresh] at loaded
  obtain ⟨nativeAccounts, native, same⟩ := bind_ok.mp loaded
  cases same
  have decoded := decoded_fresh fresh native
  refine ⟨covered_construct decoded world events rdposSeed storage, ?_⟩
  cases genesis : genesisBalances with
  | nil => exact .inl rfl
  | cons account rest =>
    subst genesis
    have put : ((putGenesis db (account :: rest)).lookup (DBPrefix.nativeAccounts ++ account.1.get)).isSome = true := by
      rw [putGenesis_eq]
      exact lookup_putAll_isSome (List.mem_map_of_mem List.mem_cons_self)
    obtain ⟨value, found⟩ := Option.isSome_iff_exists.mp put
    obtain ⟨item, listed, _⟩ := decoded_of_lookup decodes_account native found
    exact .inr ⟨item.1, keys_construct listed world events rdposSeed storage⟩

end Fresh

theorem kept_restart {genesisBalances : List (Address × Uint256)} {state : State World} {db : DB} (kept : Kept genesisBalances state db)
    (walk : state.evmHost.Walk) {read : Database} (decoded : Decoded (state.save walk db) read) (world : World) (events : List Event)
    (rdposSeed : Hash) : Kept genesisBalances (construct read world events rdposSeed state.storage) (state.save walk db) where
  covered := covered_construct decoded world events rdposSeed state.storage
  seeded := by
    cases kept.seeded with
    | inl none => exact .inl none
    | inr some =>
      obtain ⟨addr, member⟩ := some
      exact .inr ⟨addr, keys_construct (native_listed walk kept.covered decoded member) world events rdposSeed state.storage⟩

/-- At any time in the lives of a node its database has no entries that nobody overwrites. -/
theorem lived_kept {env : Env World} {genesisBalances : List (Address × Uint256)} {state : State World} {db : DB}
    (lived : Lived env genesisBalances state db) : Kept genesisBalances state db := by
  induction lived with
  | start world events rdposSeed storage fresh loaded => exact load_fresh fresh loaded
  | step operation _ performed ended kept =>
    have grown := grown_perform performed
    exact ⟨covered_grown grown kept.covered, seeded_grown grown kept.seeded⟩
  | elsewhere _ same kept => exact ⟨covered_elsewhere kept.covered same, kept.seeded⟩
  | @restart state db opened _ walk world events rdposSeed loaded kept =>
    obtain ⟨read, decoded⟩ := decoded_saved walk kept.covered
    have expected := load_saved walk kept.covered kept.seeded decoded world events rdposSeed
    rw [← Except.ok.inj (expected.symm.trans loaded)]
    exact kept_restart kept walk decoded world events rdposSeed

structure Survives (before after : EVMHost) : Prop where
  balance : ∀ addr, after.balanceOf addr = before.balanceOf addr
  nonce : ∀ addr, (after.account addr).nonce.second = (before.account addr).nonce.second
  code : ∀ addr, (after.account addr).code.second = (before.account addr).code.second
  codeHash : ∀ addr, after.getCodeHash addr = before.getCodeHash addr
  storage : ∀ addr key, after.getStorage addr key = before.getStorage addr key
  contractAddresses : after.contractAddresses = before.contractAddresses
  isEvmContract : ∀ addr, after.isEvmContract addr = before.isEvmContract addr

theorem isEvmContract_eq (host : EVMHost) (addr : Address) : host.isEvmContract addr = decide (0 < (host.account addr).code.second.length) := by
  unfold EVMHost.isEvmContract Table.find
  split
  case h_1 missing =>
    split at missing
    case isTrue => cases missing
    case isFalse outside =>
      rw [EVMHost.account, host.accounts.absent addr outside]
      rfl
  case h_2 found =>
    split at found
    case isTrue =>
      cases found
      rfl
    case isFalse => cases found

/-- A node can always be started again. It has the state it had if and only if the code of every
account is in step, and the database has no contract that the state does not know. -/
theorem restart_survives_iff {env : Env World} {genesisBalances : List (Address × Uint256)} {state : State World} {db : DB}
    (lived : Lived env genesisBalances state db) (walk : state.evmHost.Walk) (world : World) (events : List Event) (rdposSeed : Hash) :
    ∃ opened, load (state.save walk db) genesisBalances world events rdposSeed state.storage = .ok opened ∧
      (Survives state.evmHost opened.1.evmHost ↔
        (∀ addr, (state.evmHost.account addr).code.InStep ∧ (state.evmHost.account addr).codeHash.InStep) ∧
        ∀ txHash, (db.lookup (DB.contractAddresses ++ Hash.get txHash)).isSome → txHash ∈ state.evmHost.contractAddresses.keys) := by
  have kept := lived_kept lived
  obtain ⟨read, decoded⟩ := decoded_saved walk kept.covered
  refine ⟨_, load_saved walk kept.covered kept.seeded decoded world events rdposSeed, ?_⟩
  have code := code_reopened walk kept.covered decoded
  have codeHash := codeHash_reopened walk kept.covered decoded
  have native := native_reopened walk kept.covered decoded
  have contracts := contracts_reopened_iff walk kept.covered decoded world events rdposSeed state.storage
  constructor
  · intro survives
    refine ⟨fun addr => ⟨?_, ?_⟩, contracts.mp survives.contractAddresses⟩
    · exact (congrArg Versioned.second (code addr)).symm.trans (survives.code addr)
    · exact (congrArg Versioned.second (codeHash addr)).symm.trans (survives.codeHash addr)
  · rintro ⟨steady, known⟩
    have sameCode : ∀ addr, ((withNative read).value addr).code.second = (state.evmHost.account addr).code.second :=
      fun addr => (congrArg Versioned.second (code addr)).trans (steady addr).1
    constructor
    case balance => exact fun addr => congrArg (fun pair => pair.1.second) (native addr)
    case nonce => exact fun addr => congrArg (fun pair => pair.2.second) (native addr)
    case code => exact sameCode
    case codeHash => exact fun addr => (congrArg Versioned.second (codeHash addr)).trans (steady addr).2
    case storage => exact fun addr key => (congrArg Versioned.second (slot_reopened walk kept.covered decoded addr key) :)
    case contractAddresses => exact contracts.mpr known
    case isEvmContract =>
      intro addr
      rw [isEvmContract_eq, isEvmContract_eq, ← sameCode addr]
      rfl

open Conservation NonceOrder

def chain : Chain := ⟨[], genesis⟩

/-- Some order in which the maps of a host can be walked. -/
noncomputable def someWalk (host : EVMHost) : host.Walk where
  addresses := host.accounts.keys.toList
  slots addr := (host.account addr).storage.keys.toList
  txHashes := host.contractAddresses.keys.toList
  mem_addresses _ := Finset.mem_toList
  mem_slots _ _ := Finset.mem_toList
  mem_txHashes _ := Finset.mem_toList

/-- A machine in which a created contract writes its first slot and gets one byte of code. -/
def writingEnv : Env Unit :=
  let env := bareEnv fun msg _ => .callback (.setStorage msg.recipient 1 2) fun _ => .done .success 0 [0xfe]
  { env with vm := { env.vm with sha3 := fun _ => 9 } }

abbrev genesisBalances : List (Address × Uint256) := [(7, 1000000000000000000000)]

def settled : State Unit := construct { nativeAccounts := [(7, 1000000000000000000000, 0)] } () [] 0 chain

def creation : TxBlock := { donation with «to» := 0 }

/-- The state after the block with the creation. -/
def grown : State Unit := ((perform writingEnv (.processNextBlock (nextBlock [creation]))).eval settled).2

theorem settled_lived : Lived writingEnv genesisBalances settled (putGenesis ∅ genesisBalances) := by
  have native : ((putGenesis ∅ genesisBalances).getBatch DBPrefix.nativeAccounts).mapM readNative =
      .ok [(7, 1000000000000000000000, 0)] := by decide +kernel
  exact .start () [] 0 chain (fun _ => ⟨rfl, rfl⟩)
    ((load_of_fresh (fun _ => ⟨rfl, rfl⟩) () [] 0 chain).trans (bind_ok.mpr ⟨_, native, rfl⟩))

private theorem grown_lived : Lived writingEnv genesisBalances grown (putGenesis ∅ genesisBalances) :=
  .step (.processNextBlock (nextBlock [creation])) settled_lived Prod.mk.eta.symm (by decide)

/-- Accounts that are missing have nothing that could be out of step. -/
theorem inStep_of_keys {host : EVMHost}
    (known : ∀ addr ∈ host.accounts.keys, (host.account addr).code.InStep ∧ (host.account addr).codeHash.InStep) (addr : Address) :
    (host.account addr).code.InStep ∧ (host.account addr).codeHash.InStep := by
  by_cases member : addr ∈ host.accounts.keys
  · exact known addr member
  · rw [EVMHost.account, host.accounts.absent addr member]
    exact ⟨rfl, rfl⟩

theorem grown_survives : (grown.balanceOf 9 = 100000 ∧ grown.nonceOf 7 = 1 ∧ (grown.evmHost.account 9).code.second = [0xfe] ∧
      grown.evmHost.getCodeHash 9 = 9 ∧ grown.evmHost.getStorage 9 1 = 2 ∧ grown.evmHost.contractAddresses.find 2 = some 9) ∧
    ∃ opened, load (grown.save (someWalk _) (putGenesis ∅ genesisBalances)) genesisBalances () [] 0 grown.storage = .ok opened ∧
      Survives grown.evmHost opened.1.evmHost := by
  refine ⟨by decide, ?_⟩
  obtain ⟨opened, loaded, survives⟩ := restart_survives_iff grown_lived (someWalk _) () [] 0
  have keys : grown.evmHost.accounts.keys = {0, 7, 9} := by decide
  refine ⟨opened, loaded, survives.mpr ⟨inStep_of_keys ?_, ?_⟩⟩
  · rw [keys]
    simp only [Finset.mem_insert, Finset.mem_singleton]
    rintro addr (rfl | rfl | rfl)
    all_goals
      unfold Versioned.InStep
      decide
  intro txHash stored
  rw [DB.contractAddresses, DB.makeNewPrefix, List.append_assoc, lookup_putGenesis_host] at stored
  cases stored

/-- A machine that creates any contract. -/
abbrev creatingEnv : Env Unit := bareEnv fun _ _ => .done .success 0 []

def unborn : State Unit := construct {} () [] 0 chain

private theorem unborn_lived : Lived creatingEnv [] unborn ∅ :=
  .start () [] 0 chain (fun _ => ⟨rfl, rfl⟩) (rfl : load ∅ [] () [] 0 chain = .ok (unborn, ∅))

/-- Somebody asks which contract no transaction has created. -/
def asked : State Unit := ((perform creatingEnv (.getEvmContractAddress 0)).eval unborn).2

def askedWalk : asked.evmHost.Walk where
  addresses := []
  slots _ := []
  txHashes := [0]
  mem_addresses addr := by
    rw [show asked.evmHost.accounts.keys = ∅ from rfl]
    simp
  mem_slots addr key := by
    rw [show (asked.evmHost.account addr).storage.keys = ∅ from rfl]
    simp
  mem_txHashes txHash := by
    rw [show asked.evmHost.contractAddresses.keys = insert 0 ∅ from rfl]
    simp

def reopened : State Unit := construct { contractAddresses := [(0, 0)] } () [] 0 chain

theorem reopened_decoded : Decoded (asked.save askedWalk ∅) { contractAddresses := [(0, 0)] } := by
  constructor
  all_goals decide +kernel

private theorem asked_lived : Lived creatingEnv [] asked ∅ :=
  .step (.getEvmContractAddress 0) unborn_lived rfl (by decide)

theorem reopened_lived : Lived creatingEnv [] reopened (asked.save askedWalk ∅) := by
  have kept := lived_kept asked_lived
  exact .restart asked_lived askedWalk () [] 0 (load_saved askedWalk kept.covered kept.seeded reopened_decoded () [] 0)

/-- The gas of a creation is estimated, which takes it back. -/
def estimated : State Unit := ((perform creatingEnv (.estimateGas ⟨0, 0, 1000, 0, 0, 0, [], []⟩)).eval reopened).2

private theorem estimated_lived : Lived creatingEnv [] estimated (asked.save askedWalk ∅) :=
  .step (.estimateGas ⟨0, 0, 1000, 0, 0, 0, [], []⟩) reopened_lived Prod.mk.eta.symm (by decide +kernel)

theorem returns_of_stored {World : Type} {env : Env World} {genesisBalances : List (Address × Uint256)} {state : State World} {db : DB}
    (lived : Lived env genesisBalances state db) (walk : state.evmHost.Walk) {txHash : Hash}
    (stored : (db.lookup (DB.contractAddresses ++ txHash.get)).isSome = true)
    (erased : txHash ∉ state.evmHost.contractAddresses.keys) (world : World) (events : List Event) (rdposSeed : Hash) :
    ∃ opened, load (state.save walk db) genesisBalances world events rdposSeed state.storage = .ok opened ∧
      ¬ Survives state.evmHost opened.1.evmHost := by
  have kept := lived_kept lived
  obtain ⟨read, decoded⟩ := decoded_saved walk kept.covered
  refine ⟨_, load_saved walk kept.covered kept.seeded decoded world events rdposSeed, ?_⟩
  intro survives
  have known := (contracts_reopened_iff walk kept.covered decoded world events rdposSeed state.storage).mp survives.contractAddresses
  exact erased (known txHash stored)

/-- After the next restart there is a contract again that had been taken back. -/
theorem forgotten_contract_returns : Lived creatingEnv [] estimated (asked.save askedWalk ∅) ∧
    ∃ opened, load (estimated.save (someWalk _) (asked.save askedWalk ∅)) [] () [] 0 estimated.storage = .ok opened ∧
      ¬ Survives estimated.evmHost opened.1.evmHost := by
  refine ⟨estimated_lived, ?_⟩
  apply returns_of_stored estimated_lived
  case txHash => exact 0
  case stored => decide +kernel
  case erased => decide +kernel

end OrbiterSDK.Proofs.Restart
