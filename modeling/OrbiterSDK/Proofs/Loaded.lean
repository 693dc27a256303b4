import OrbiterSDK.Proofs.HostRuns
import OrbiterSDK.Proofs.Saved

/-! What the constructors read from the database. Every kind of entry is the encoding of one
value, so that what is read is what is found. -/

namespace OrbiterSDK.Proofs.Loaded
open Lib PrefixStore State Utils Saved

def codeEntry (item : Address × Bytes) : Bytes × Bytes := (item.1.get, item.2)

def hashcodeEntry (item : Address × Hash) : Bytes × Bytes := (item.1.get, item.2.get)

def contractEntry (item : Hash × Address) : Bytes × Bytes := (item.1.get, item.2.get)

def slotEntry (item : Address × Hash × Hash) : Bytes × Bytes := (item.1.get ++ item.2.1.get, item.2.2.get)

def accountEntry (item : Address × Uint256 × UInt64) : Bytes × Bytes :=
  (item.1.get, uintToBytes 32 item.2.1.toNat ++ uintToBytes 8 item.2.2.toNat)

theorem decodes_code : Decodes EVMHost.readCode codeEntry := by
  rintro ⟨key, value⟩ ⟨addr, code⟩
  constructor
  · intro read
    obtain ⟨_, here, same⟩ := bind_ok.mp read
    cases same
    exact Prod.ext (address_read.mp here) rfl
  · intro same
    rw [same]
    exact bind_ok.mpr ⟨addr, address_read_get addr, rfl⟩

theorem decodes_hashcode : Decodes EVMHost.readHashcode hashcodeEntry := by
  rintro ⟨key, value⟩ ⟨addr, codeHash⟩
  constructor
  · intro read
    obtain ⟨_, here, read⟩ := bind_ok.mp read
    obtain ⟨_, there, same⟩ := bind_ok.mp read
    cases same
    exact Prod.ext (address_read.mp here) (hash_read.mp there)
  · intro same
    rw [same]
    exact bind_ok.mpr ⟨addr, address_read_get addr, bind_ok.mpr ⟨codeHash, hash_read_get codeHash, rfl⟩⟩

theorem decodes_contract : Decodes EVMHost.readContract contractEntry := by
  rintro ⟨key, value⟩ ⟨txHash, addr⟩
  constructor
  · intro read
    obtain ⟨_, here, read⟩ := bind_ok.mp read
    obtain ⟨_, there, same⟩ := bind_ok.mp read
    cases same
    exact Prod.ext (hash_read.mp here) (address_read.mp there)
  · intro same
    rw [same]
    exact bind_ok.mpr ⟨txHash, hash_read_get txHash, bind_ok.mpr ⟨addr, address_read_get addr, rfl⟩⟩

theorem decodes_slot : Decodes EVMHost.readSlot slotEntry := by
  rintro ⟨key, value⟩ ⟨addr, slot, hash⟩
  constructor
  · intro read
    obtain ⟨_, front, read⟩ := bind_ok.mp read
    obtain ⟨_, back, read⟩ := bind_ok.mp read
    obtain ⟨_, there, same⟩ := bind_ok.mp read
    cases same
    have whole : key = addr.get ++ slot.get := by
      rw [← address_read.mp front, ← hash_read.mp back]
      exact (List.take_append_drop 20 key).symm
    exact Prod.ext whole (hash_read.mp there)
  · intro same
    rw [same]
    have size : addr.get.length = 20 := uintToBytes_length 20 _
    have front : Address.read ((addr.get ++ slot.get).take 20) = .ok addr := by
      rw [List.take_left' size]
      exact address_read_get addr
    have back : Hash.read ((addr.get ++ slot.get).drop 20) = .ok slot := by
      rw [List.drop_left' size]
      exact hash_read_get slot
    exact bind_ok.mpr ⟨addr, front, bind_ok.mpr ⟨slot, back, bind_ok.mpr ⟨hash, hash_read_get hash, rfl⟩⟩⟩

theorem decodes_account : Decodes readNative accountEntry := by
  rintro ⟨key, value⟩ ⟨addr, balance, nonce⟩
  constructor
  · intro read
    obtain ⟨_, front, read⟩ := bind_ok.mp read
    obtain ⟨_, back, read⟩ := bind_ok.mp read
    obtain ⟨_, here, same⟩ := bind_ok.mp read
    cases same
    have whole : value = uintToBytes 32 balance.toNat ++ uintToBytes 8 nonce.toNat := by
      rw [← uint256_read.mp front, ← uint64_read.mp back]
      exact (List.take_append_drop 32 value).symm
    exact Prod.ext (address_read.mp here) whole
  · intro same
    rw [same]
    have size : (uintToBytes 32 balance.toNat).length = 32 := uintToBytes_length 32 _
    have front : bytesToUint256 ((uintToBytes 32 balance.toNat ++ uintToBytes 8 nonce.toNat).take 32) = .ok balance := by
      rw [List.take_left' size]
      exact uint256_read.mpr rfl
    have back : bytesToUint64 ((uintToBytes 32 balance.toNat ++ uintToBytes 8 nonce.toNat).drop 32) = .ok nonce := by
      rw [List.drop_left' size]
      exact uint64_read.mpr rfl
    exact bind_ok.mpr ⟨balance, front, bind_ok.mpr ⟨nonce, back, bind_ok.mpr ⟨addr, address_read_get addr, rfl⟩⟩⟩

section Accounts

def setCode (item : Address × Bytes) (acc : EVMAccount) : EVMAccount := { acc with code := ⟨item.2, item.2⟩ }

def setCodeHash (item : Address × Hash) (acc : EVMAccount) : EVMAccount := { acc with codeHash := ⟨item.2, item.2⟩ }

def setSlot (item : Address × Hash × Hash) (acc : EVMAccount) : EVMAccount :=
  { acc with storage := acc.storage.modify item.2.1 fun _ => ⟨item.2.2, item.2.2⟩ }

def setNative (item : Address × Uint256 × UInt64) (acc : EVMAccount) : EVMAccount :=
  { acc with balance := ⟨item.2.1, item.2.1⟩, nonce := ⟨item.2.2, item.2.2⟩ }

variable (read : Database)

/-- The accounts after each of the four loops. -/
def withCode : Table Address EVMAccount := Table.empty.modifyEach Prod.fst setCode read.accountsCode

def withCodeHash : Table Address EVMAccount := (withCode read).modifyEach Prod.fst setCodeHash read.accountsHashcode

def withSlots : Table Address EVMAccount := (withCodeHash read).modifyEach Prod.fst setSlot read.accountsStorage

def withNative : Table Address EVMAccount := (withSlots read).modifyEach Prod.fst setNative read.nativeAccounts

theorem accounts_construct {World : Type} (world : World) (events : List Event) (rdposSeed : Hash) (storage : Chain) :
    (construct read world events rdposSeed storage).evmHost.accounts = withNative read := rfl

theorem keys_withNative : (withNative read).keys = (((read.accountsCode.map Prod.fst).toFinset ∪
    (read.accountsHashcode.map Prod.fst).toFinset) ∪ (read.accountsStorage.map Prod.fst).toFinset) ∪
      (read.nativeAccounts.map Prod.fst).toFinset := by
  simp only [withNative, withSlots, withCodeHash, withCode, Table.modifyEach_keys, Table.empty_keys, Finset.empty_union]

variable {read} {addr : Address}

variable {γ : Type} (project : EVMAccount → γ)

private theorem kept_native (kept : ∀ item acc, project (setNative item acc) = project acc) :
    project ((withNative read).value addr) = project ((withSlots read).value addr) :=
  Table.modifyEach_project project kept _ addr

private theorem kept_slots (kept : ∀ item acc, project (setSlot item acc) = project acc) :
    project ((withSlots read).value addr) = project ((withCodeHash read).value addr) :=
  Table.modifyEach_project project kept _ addr

private theorem kept_codeHash (kept : ∀ item acc, project (setCodeHash item acc) = project acc) :
    project ((withCodeHash read).value addr) = project ((withCode read).value addr) :=
  Table.modifyEach_project project kept _ addr

private theorem kept_code (kept : ∀ item acc, project (setCode item acc) = project acc) :
    project ((withCode read).value addr) = project default :=
  Table.modifyEach_project project kept _ addr

theorem code_withNative {code : Bytes} (once : ∀ item ∈ read.accountsCode, item.1 = addr → item.2 = code)
    (absent : (∀ item ∈ read.accountsCode, item.1 ≠ addr) → code = []) : ((withNative read).value addr).code = ⟨code, code⟩ := by
  rw [kept_native EVMAccount.code fun _ _ => rfl, kept_slots EVMAccount.code fun _ _ => rfl,
    kept_codeHash EVMAccount.code fun _ _ => rfl]
  apply Table.modifyEach_wanted EVMAccount.code fun item : Address × Bytes => item.1 = addr
  · exact fun _ _ same => same
  · intro item member same acc
    rw [← once item member same]
    rfl
  · exact fun _ _ same missed => absurd same missed
  · intro unlisted
    rw [absent unlisted]
    rfl

theorem codeHash_withNative {codeHash : Hash} (once : ∀ item ∈ read.accountsHashcode, item.1 = addr → item.2 = codeHash)
    (absent : (∀ item ∈ read.accountsHashcode, item.1 ≠ addr) → codeHash = 0) :
    ((withNative read).value addr).codeHash = ⟨codeHash, codeHash⟩ := by
  rw [kept_native EVMAccount.codeHash fun _ _ => rfl, kept_slots EVMAccount.codeHash fun _ _ => rfl]
  apply Table.modifyEach_wanted EVMAccount.codeHash fun item : Address × Hash => item.1 = addr
  · exact fun _ _ same => same
  · intro item member same acc
    rw [← once item member same]
    rfl
  · exact fun _ _ same missed => absurd same missed
  · intro unlisted
    rw [kept_code EVMAccount.codeHash fun _ _ => rfl, absent unlisted]
    rfl

theorem slot_withNative {key value : Hash}
    (once : ∀ item ∈ read.accountsStorage, item.1 = addr ∧ item.2.1 = key → item.2.2 = value)
    (absent : (∀ item ∈ read.accountsStorage, ¬ (item.1 = addr ∧ item.2.1 = key)) → value = 0) :
    ((withNative read).value addr).storage.value key = ⟨value, value⟩ := by
  rw [kept_native EVMAccount.storage fun _ _ => rfl]
  apply Table.modifyEach_wanted (fun acc : EVMAccount => acc.storage.value key)
    fun item : Address × Hash × Hash => item.1 = addr ∧ item.2.1 = key
  · exact fun _ _ same => same.1
  · intro item member same acc
    rw [← once item member same, ← same.2]
    exact Table.modify_value_self acc.storage item.2.1 fun _ => ⟨item.2.2, item.2.2⟩
  · intro item member here missed acc
    exact Table.modify_value_of_ne acc.storage (fun _ => ⟨item.2.2, item.2.2⟩) fun same => missed ⟨here, same.symm⟩
  · intro unlisted
    rw [kept_codeHash EVMAccount.storage fun _ _ => rfl, kept_code EVMAccount.storage fun _ _ => rfl, absent unlisted]
    rfl

theorem slots_withNative {item : Address × Hash × Hash} (listed : item ∈ read.accountsStorage) :
    item.2.1 ∈ ((withNative read).value item.1).storage.keys := by
  rw [kept_native EVMAccount.storage fun _ _ => rfl]
  have reached : (item.2.1 ∈ ((withSlots read).value item.1).storage.keys) = True := by
    apply Table.modifyEach_wanted (fun acc : EVMAccount => item.2.1 ∈ acc.storage.keys)
      fun other : Address × Hash × Hash => other.1 = item.1 ∧ other.2.1 = item.2.1
    · exact fun _ _ same => same.1
    · intro other member same acc
      rw [← same.2]
      exact eq_true (Finset.mem_insert_self _ _)
    · intro other member here missed acc
      apply propext
      apply Finset.mem_insert.trans
      apply or_iff_right
      exact fun same => missed ⟨here, same.symm⟩
    · exact fun unlisted => absurd ⟨rfl, rfl⟩ (unlisted item listed)
  exact of_eq_true reached

theorem native_withNative {balance : Uint256} {nonce : UInt64}
    (once : ∀ item ∈ read.nativeAccounts, item.1 = addr → item.2 = (balance, nonce))
    (absent : (∀ item ∈ read.nativeAccounts, item.1 ≠ addr) → balance = 0 ∧ nonce = 0) :
    (((withNative read).value addr).balance, ((withNative read).value addr).nonce) =
      (⟨balance, balance⟩, ⟨nonce, nonce⟩) := by
  apply Table.modifyEach_wanted (fun acc : EVMAccount => (acc.balance, acc.nonce))
    fun item : Address × Uint256 × UInt64 => item.1 = addr
  · exact fun _ _ same => same
  · intro item member same acc
    obtain ⟨_, _, _⟩ := item
    cases once _ member same
    rfl
  · exact fun _ _ same missed => absurd same missed
  · intro unlisted
    obtain ⟨rfl, rfl⟩ := absent unlisted
    rw [kept_slots (fun acc : EVMAccount => (acc.balance, acc.nonce)) fun _ _ => rfl,
      kept_codeHash (fun acc : EVMAccount => (acc.balance, acc.nonce)) fun _ _ => rfl,
      kept_code (fun acc : EVMAccount => (acc.balance, acc.nonce)) fun _ _ => rfl]
    rfl

end Accounts

variable {World : Type} {read : Database} {world : World} {events : List Event} {rdposSeed : Hash} {storage : Chain}

theorem find_contracts {txHash : Hash} {found : Option Address}
    (once : ∀ item ∈ read.contractAddresses, item.1 = txHash → some item.2 = found)
    (absent : (∀ item ∈ read.contractAddresses, item.1 ≠ txHash) → found = none) :
    (construct read world events rdposSeed storage).evmHost.contractAddresses.find txHash = found := by
  apply @foldl_wanted _ _ _ _ (fun table : Table Hash Address => table.find txHash) fun item : Hash × Address => item.1 = txHash
  · intro table item member same
    rw [Table.find_modify, if_pos same.symm]
    exact once item member same
  · intro table item member missed
    rw [Table.find_modify, if_neg (Ne.symm missed)]
  · intro unlisted
    rw [absent unlisted]
    rfl

/-- All entries of the state are encodings, of these values. -/
structure Decoded (db : DB) (read : Database) : Prop where
  code : (db.getBatch DB.accountsCode).mapM EVMHost.readCode = .ok read.accountsCode
  codeHash : (db.getBatch DB.accountsHashcode).mapM EVMHost.readHashcode = .ok read.accountsHashcode
  created : (db.getBatch DB.contractAddresses).mapM EVMHost.readContract = .ok read.contractAddresses
  slot : (db.getBatch DB.accountsStorage).mapM EVMHost.readSlot = .ok read.accountsStorage
  native : (db.getBatch DBPrefix.nativeAccounts).mapM readNative = .ok read.nativeAccounts

section Readings
variable {db : DB} (decoded : Decoded db read)
include decoded

/-- What has been read covers what it has been read from. -/
theorem covered_construct {World : Type} (world : World) (events : List Event) (rdposSeed : Hash) (storage : Chain) :
    Covered db (construct read world events rdposSeed storage).evmHost := by
  have listed : ∀ {addr}, addr ∈ read.accountsCode.map Prod.fst ∨ addr ∈ read.accountsHashcode.map Prod.fst ∨
      addr ∈ read.nativeAccounts.map Prod.fst → addr ∈ (withNative read).keys := by
    intro addr anywhere
    rw [keys_withNative]
    simp only [Finset.mem_union, List.mem_toFinset]
    tauto
  constructor
  case native =>
    intro key value found
    obtain ⟨item, member, same⟩ := decoded_of_lookup decodes_account decoded.native found
    exact ⟨item.1, listed (.inr (.inr (List.mem_map_of_mem member))), congrArg Prod.fst same⟩
  case code =>
    intro key value found
    obtain ⟨item, member, same⟩ := decoded_of_lookup decodes_code decoded.code found
    exact ⟨item.1, listed (.inl (List.mem_map_of_mem member)), congrArg Prod.fst same⟩
  case codeHash =>
    intro key value found
    obtain ⟨item, member, same⟩ := decoded_of_lookup decodes_hashcode decoded.codeHash found
    exact ⟨item.1, listed (.inr (.inl (List.mem_map_of_mem member))), congrArg Prod.fst same⟩
  case slot =>
    intro key value found
    obtain ⟨item, member, same⟩ := decoded_of_lookup decodes_slot decoded.slot found
    exact ⟨item.1, item.2.1, slots_withNative member, congrArg Prod.fst same⟩
  case created =>
    intro key value found
    obtain ⟨item, _, same⟩ := decoded_of_lookup decodes_contract decoded.created found
    exact ⟨item.1, item.2, congrArg Prod.fst same, congrArg Prod.snd same⟩

end Readings

end OrbiterSDK.Proofs.Loaded
