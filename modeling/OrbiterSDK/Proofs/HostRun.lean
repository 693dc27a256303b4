import OrbiterSDK.EVMHost

/-! The footprint of the virtual machine. Whatever program runs, it writes current
storage and transient storage only, and notes every place it writes. -/

namespace OrbiterSDK.Proofs.HostRun
open Lib

/-- What callbacks may change between two states of the host. -/
structure Ran (before after : EVMHost) : Prop where
  balance : ∀ addr, (after.account addr).balance = (before.account addr).balance
  nonce : ∀ addr, (after.account addr).nonce = (before.account addr).nonce
  code : ∀ addr, (after.account addr).code = (before.account addr).code
  codeHash : ∀ addr, (after.account addr).codeHash = (before.account addr).codeHash
  storageFirst : ∀ addr key, ((after.account addr).storage.value key).first = ((before.account addr).storage.value key).first
  storage : ∀ addr key, (addr, key) ∉ after.accessedStorages →
    (after.account addr).storage.value key = (before.account addr).storage.value key
  transientStorage : ∀ addr, addr ∉ after.accessedTransients →
    (after.account addr).transientStorage = (before.account addr).transientStorage
  accessedStorages : before.accessedStorages <+: after.accessedStorages
  accessedTransients : before.accessedTransients <+: after.accessedTransients
  emittedEvents : before.emittedEvents <+: after.emittedEvents
  keys : before.accounts.keys ⊆ after.accounts.keys
  accessedAccountsBalances : after.accessedAccountsBalances = before.accessedAccountsBalances
  accessedAccountsCode : after.accessedAccountsCode = before.accessedAccountsCode
  accessedAccountsNonces : after.accessedAccountsNonces = before.accessedAccountsNonces
  contractAddresses : after.contractAddresses = before.contractAddresses
  recentlyCreatedContracts : after.recentlyCreatedContracts = before.recentlyCreatedContracts
  currentTxContext : after.currentTxContext = before.currentTxContext
  currentTxHash : after.currentTxHash = before.currentTxHash
  shouldRevert : before.shouldRevert = true → after.shouldRevert = true

theorem Ran.refl (host : EVMHost) : Ran host host where
  balance _ := rfl
  nonce _ := rfl
  code _ := rfl
  codeHash _ := rfl
  storageFirst _ _ := rfl
  storage _ _ _ := rfl
  transientStorage _ _ := rfl
  accessedStorages := List.prefix_refl _
  accessedTransients := List.prefix_refl _
  emittedEvents := List.prefix_refl _
  keys := Finset.Subset.refl _
  accessedAccountsBalances := rfl
  accessedAccountsCode := rfl
  accessedAccountsNonces := rfl
  contractAddresses := rfl
  recentlyCreatedContracts := rfl
  currentTxContext := rfl
  currentTxHash := rfl
  shouldRevert := id

theorem Ran.trans {first second third : EVMHost} (early : Ran first second) (late : Ran second third) : Ran first third where
  balance addr := (late.balance addr).trans (early.balance addr)
  nonce addr := (late.nonce addr).trans (early.nonce addr)
  code addr := (late.code addr).trans (early.code addr)
  codeHash addr := (late.codeHash addr).trans (early.codeHash addr)
  storageFirst addr key := (late.storageFirst addr key).trans (early.storageFirst addr key)
  storage addr key unnoted := (late.storage addr key unnoted).trans
    (early.storage addr key fun noted => unnoted (late.accessedStorages.subset noted))
  transientStorage addr unnoted := (late.transientStorage addr unnoted).trans
    (early.transientStorage addr fun noted => unnoted (late.accessedTransients.subset noted))
  accessedStorages := early.accessedStorages.trans late.accessedStorages
  accessedTransients := early.accessedTransients.trans late.accessedTransients
  emittedEvents := early.emittedEvents.trans late.emittedEvents
  keys := early.keys.trans late.keys
  accessedAccountsBalances := late.accessedAccountsBalances.trans early.accessedAccountsBalances
  accessedAccountsCode := late.accessedAccountsCode.trans early.accessedAccountsCode
  accessedAccountsNonces := late.accessedAccountsNonces.trans early.accessedAccountsNonces
  contractAddresses := late.contractAddresses.trans early.contractAddresses
  recentlyCreatedContracts := late.recentlyCreatedContracts.trans early.recentlyCreatedContracts
  currentTxContext := late.currentTxContext.trans early.currentTxContext
  currentTxHash := late.currentTxHash.trans early.currentTxHash
  shouldRevert := late.shouldRevert ∘ early.shouldRevert

@[simp] theorem account_touch (host : EVMHost) (addr other : Address) :
    (host.touch addr).account other = host.account other :=
  Table.modify_project id host.accounts addr other fun _ => rfl

theorem ran_touch (host : EVMHost) (addr : Address) : Ran host (host.touch addr) :=
  { Ran.refl host with
    balance := fun other => by rw [account_touch]
    nonce := fun other => by rw [account_touch]
    code := fun other => by rw [account_touch]
    codeHash := fun other => by rw [account_touch]
    storageFirst := fun other key => by rw [account_touch]
    storage := fun other key _ => by rw [account_touch]
    transientStorage := fun other _ => by rw [account_touch]
    keys := Finset.subset_insert _ _ }

/-- A write of one storage slot whose original value stays. -/
private theorem ran_writeSlot (host : EVMHost) (addr : Address) (key : Hash) (update : Versioned Hash → Versioned Hash)
    (keeps : ∀ slot, (update slot).first = slot.first) (noted : (addr, key) ∈ host.accessedStorages) :
    Ran host { host with accounts := host.accounts.modify addr fun acc =>
      { acc with storage := acc.storage.modify key update } } := by
  have kept : ∀ {β : Type} (project : EVMAccount → β),
      (∀ acc storage, project { acc with storage := storage } = project acc) → ∀ other,
      project (EVMHost.account { host with accounts := host.accounts.modify addr fun acc =>
        { acc with storage := acc.storage.modify key update } } other) = project (host.account other) :=
    fun project same other => Table.modify_project project _ _ _ fun acc => same acc _
  refine { Ran.refl host with
    balance := kept _ fun _ _ => rfl
    nonce := kept _ fun _ _ => rfl
    code := kept _ fun _ _ => rfl
    codeHash := kept _ fun _ _ => rfl
    transientStorage := fun other _ => kept _ (fun _ _ => rfl) other
    storageFirst := fun other slot => ?_
    storage := fun other slot unnoted => ?_
    keys := Finset.subset_insert _ _ }
  · simp only [EVMHost.account, Table.modify_value]
    split
    case isTrue here =>
      subst here
      exact Table.modify_project Versioned.first _ _ _ keeps
    case isFalse => rfl
  · simp only [EVMHost.account, Table.modify_value]
    split
    case isTrue here =>
      subst here
      exact Table.modify_value_of_ne _ _ fun same => unnoted (same ▸ noted)
    case isFalse => rfl

private theorem ran_noteStorage (host : EVMHost) (addr : Address) (key : Hash) :
    Ran host { host with accessedStorages := host.accessedStorages ++ [(addr, key)] } :=
  { Ran.refl host with
    storage := fun _ _ _ => rfl
    accessedStorages := List.prefix_append _ _ }

theorem ran_setStorage (host : EVMHost) (addr : Address) (key value : Hash) :
    Ran host (host.setStorage addr key value).2 := by
  have noted : (addr, key) ∈ host.accessedStorages ++ [(addr, key)] := by simp
  have opened := (ran_noteStorage host addr key).trans (ran_writeSlot _ addr key id (fun _ => rfl) noted)
  unfold EVMHost.setStorage
  simp only
  split
  · exact opened
  · exact opened.trans (ran_writeSlot _ addr key (·.write value) (fun _ => rfl) noted)

theorem ran_setTransientStorage (host : EVMHost) (addr : Address) (key value : Hash) :
    Ran host (host.setTransientStorage addr key value) := by
  have kept : ∀ {β : Type} (project : EVMAccount → β),
      (∀ acc storage, project { acc with transientStorage := storage } = project acc) → ∀ other,
      project ((host.setTransientStorage addr key value).account other) = project (host.account other) :=
    fun project same other => Table.modify_project project _ _ _ fun acc => same acc _
  refine { Ran.refl host with
    balance := kept _ fun _ _ => rfl
    nonce := kept _ fun _ _ => rfl
    code := kept _ fun _ _ => rfl
    codeHash := kept _ fun _ _ => rfl
    storageFirst := fun other slot => kept (fun acc => (acc.storage.value slot).first) (fun _ _ => rfl) other
    storage := fun other slot _ => kept (fun acc => acc.storage.value slot) (fun _ _ => rfl) other
    transientStorage := fun other unnoted => ?_
    accessedTransients := List.prefix_append _ _
    keys := Finset.subset_insert _ _ }
  have apart : other ≠ addr := fun same => unnoted (by simp [EVMHost.setTransientStorage, same])
  simp only [EVMHost.account, EVMHost.setTransientStorage, Table.modify_value_of_ne _ _ apart]

theorem ran_answer (host : EVMHost) (request : HostRequest) : Ran host (host.answer request).2 := by
  cases request with
  | setStorage addr key value => exact ran_setStorage host addr key value
  | setTransientStorage addr key value => exact ran_setTransientStorage host addr key value
  | selfdestruct addr beneficiary => exact { Ran.refl host with shouldRevert := fun _ => rfl }
  | emitLog addr data topics => exact { Ran.refl host with emittedEvents := List.prefix_append _ _ }
  | getBlockHash number =>
    simp only [EVMHost.answer, EVMHost.getBlockHash]
    split
    · exact { Ran.refl host with shouldRevert := fun _ => rfl }
    · exact Ran.refl host
  | _ => exact Ran.refl host

theorem ran_call (vm : Vm) (msg : EvmcMessage) {evmcExecute : Bytes → EVMHost → EvmcResult × EVMHost}
    (inner : ∀ code host, Ran host (evmcExecute code host).2) (host : EVMHost) :
    Ran host (host.call vm msg evmcExecute).2 := by
  have reseeded : ∀ randomGen, Ran host { host with randomGen } := fun _ => { Ran.refl host with }
  unfold EVMHost.call
  simp only
  split_ifs
  all_goals first
    | exact Ran.refl host
    | exact reseeded _
    | exact (ran_touch host msg.recipient).trans (inner _ _)

/-- Any program keeps to the footprint, whatever it asks and however its calls nest. -/
theorem ran_run (vm : Vm) (program : Program) : ∀ gas host, Ran host (EVMHost.run vm program gas host).2 := by
  induction program with
  | done statusCode consumed outputData => exact fun _ host => Ran.refl host
  | callback request next ih => exact fun gas host => (ran_answer host request).trans (ih _ gas _)
  | call msg execute next executeIh nextIh =>
    intro gas host
    exact (ran_call vm msg (fun code host => executeIh code msg.gas host) host).trans (nextIh _ gas _)

/-- The gas left is what the end of the program leaves of the gas given. -/
theorem run_gasLeft (vm : Vm) (program : Program) :
    ∀ gas host, ∃ consumed : Nat, (EVMHost.run vm program gas host).1.gasLeft = (gas.toNat - consumed : Nat) := by
  induction program with
  | done statusCode consumed outputData => exact fun _ _ => ⟨consumed, rfl⟩
  | callback request next ih => exact fun gas host => ih _ gas _
  | call msg execute next executeIh nextIh => exact fun gas host => nextIh _ gas _

end OrbiterSDK.Proofs.HostRun
