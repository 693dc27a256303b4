import OrbiterSDK.Proofs.HostRun

/-! What committing and reverting do to one account, and what a whole execution by
the host may change before one of them is called. -/

namespace OrbiterSDK.Proofs.HostCommit
open Lib HostRun

section Storages
variable {update : Versioned Hash → Versioned Hash}

theorem updateStorages_project {β : Type} (project : EVMAccount → β)
    (same : ∀ acc storage, project { acc with storage := storage } = project acc)
    (accessed : List (Address × Hash)) (accounts : Table Address EVMAccount) (addr : Address) :
    project ((EVMHost.updateStorages update accessed accounts).value addr) = project (accounts.value addr) := by
  induction accessed generalizing accounts with
  | nil => rfl
  | cons head rest ih =>
    exact (ih _).trans (Table.modify_project project _ _ _ fun acc => same acc _)

theorem updateStorages_value (idempotent : ∀ slot, update (update slot) = update slot)
    (accessed : List (Address × Hash)) (accounts : Table Address EVMAccount) (addr : Address) (key : Hash) :
    ((EVMHost.updateStorages update accessed accounts).value addr).storage.value key =
      if (addr, key) ∈ accessed then update ((accounts.value addr).storage.value key)
      else (accounts.value addr).storage.value key := by
  induction accessed generalizing accounts with
  | nil => rfl
  | cons head rest ih =>
    rcases head with ⟨at', slot⟩
    have step : ((accounts.modify at' fun acc => { acc with storage := acc.storage.modify slot update }).value
        addr).storage.value key =
        if (addr, key) = (at', slot) then update ((accounts.value addr).storage.value key)
        else (accounts.value addr).storage.value key := by
      rw [Table.modify_value]
      by_cases here : addr = at'
      · subst here
        simp only [if_pos, Table.modify_value, Prod.mk.injEq, true_and]
        split
        case isTrue same => rw [same]
        case isFalse => rfl
      · rw [if_neg here, if_neg fun same => here (Prod.mk.inj same).1]
    refine (ih _).trans ?_
    rw [step]
    by_cases here : (addr, key) = (at', slot)
    · simp [here, idempotent]
    · simp [here]

end Storages

section Accounts
variable (host : EVMHost) (addr : Address)

private theorem commitBalance_account : host.commitBalance.account addr = { host.account addr with
    balance := if addr ∈ host.accessedAccountsBalances then (host.account addr).balance.commit
      else (host.account addr).balance } := by
  refine (Table.modifyAll_value host.accounts host.accessedAccountsBalances
    (fun acc => { acc with balance := acc.balance.commit }) (fun _ => rfl) addr).trans ?_
  split <;> rfl

private theorem revertBalance_account : host.revertBalance.account addr = { host.account addr with
    balance := if addr ∈ host.accessedAccountsBalances then (host.account addr).balance.revert
      else (host.account addr).balance } := by
  refine (Table.modifyAll_value host.accounts host.accessedAccountsBalances
    (fun acc => { acc with balance := acc.balance.revert }) (fun _ => rfl) addr).trans ?_
  split <;> rfl

private theorem commitNonce_account : host.commitNonce.account addr = { host.account addr with
    nonce := if addr ∈ host.accessedAccountsNonces then (host.account addr).nonce.commit
      else (host.account addr).nonce } := by
  refine (Table.modifyAll_value host.accounts host.accessedAccountsNonces
    (fun acc => { acc with nonce := acc.nonce.commit }) (fun _ => rfl) addr).trans ?_
  split <;> rfl

private theorem commitCode_account : host.commitCode.account addr = { host.account addr with
    code := if addr ∈ host.accessedAccountsCode then (host.account addr).code.commit else (host.account addr).code
    codeHash := if addr ∈ host.accessedAccountsCode then (host.account addr).codeHash.commit
      else (host.account addr).codeHash } := by
  refine (Table.modifyAll_value host.accounts host.accessedAccountsCode
    (fun acc => { acc with code := acc.code.commit, codeHash := acc.codeHash.commit }) (fun _ => rfl) addr).trans ?_
  split <;> rfl

private theorem revertCode_account : host.revertCode.account addr = { host.account addr with
    code := if addr ∈ host.accessedAccountsCode then (host.account addr).code.revert else (host.account addr).code
    codeHash := if addr ∈ host.accessedAccountsCode then (host.account addr).codeHash.revert
      else (host.account addr).codeHash } := by
  refine (Table.modifyAll_value host.accounts host.accessedAccountsCode
    (fun acc => { acc with code := acc.code.revert, codeHash := acc.codeHash.revert }) (fun _ => rfl) addr).trans ?_
  split <;> rfl

/-- The storage loop and the transient loop of `commit` and `revert`, seen from one account. -/
private theorem cleared_account (update : Versioned Hash → Versioned Hash) :
    (EVMHost.clearTransients host.accessedTransients
      (EVMHost.updateStorages update host.accessedStorages host.accounts)).value addr = { host.account addr with
        storage := ((EVMHost.updateStorages update host.accessedStorages host.accounts).value addr).storage
        transientStorage := if addr ∈ host.accessedTransients then default
          else (host.account addr).transientStorage } := by
  have rest : (EVMHost.updateStorages update host.accessedStorages host.accounts).value addr = { host.account addr with
      storage := ((EVMHost.updateStorages update host.accessedStorages host.accounts).value addr).storage } :=
    updateStorages_project (fun acc => { acc with
      storage := ((EVMHost.updateStorages update host.accessedStorages host.accounts).value addr).storage })
      (fun _ _ => rfl) host.accessedStorages host.accounts addr
  refine (Table.modifyAll_value (EVMHost.updateStorages update host.accessedStorages host.accounts)
    host.accessedTransients (fun acc => { acc with transientStorage := default }) (fun _ => rfl) addr).trans ?_
  split
  · rw [rest]
  · exact rest

private theorem commit_account : host.commit.account addr = { host.account addr with
    storage := (host.commit.account addr).storage
    transientStorage := if addr ∈ host.accessedTransients then default else (host.account addr).transientStorage } := by
  have cleared := cleared_account host addr .commit
  have storage := congrArg EVMAccount.storage cleared
  refine cleared.trans ?_
  rw [show (host.commit.account addr).storage = _ from storage]

private theorem revert_account : host.revert.account addr = { host.account addr with
    storage := (host.revert.account addr).storage
    transientStorage := if addr ∈ host.accessedTransients then default else (host.account addr).transientStorage } := by
  have cleared := cleared_account host addr .revert
  have storage := congrArg EVMAccount.storage cleared
  refine cleared.trans ?_
  rw [show (host.revert.account addr).storage = _ from storage]

@[simp] theorem commitBalance_nonce : (host.commitBalance.account addr).nonce = (host.account addr).nonce := by
  rw [commitBalance_account]

@[simp] theorem commitBalance_code : (host.commitBalance.account addr).code = (host.account addr).code := by
  rw [commitBalance_account]

@[simp] theorem commitBalance_codeHash : (host.commitBalance.account addr).codeHash = (host.account addr).codeHash := by
  rw [commitBalance_account]

@[simp] theorem commitBalance_storage : (host.commitBalance.account addr).storage = (host.account addr).storage := by
  rw [commitBalance_account]

@[simp] theorem commitBalance_transientStorage : (host.commitBalance.account addr).transientStorage = (host.account addr).transientStorage := by
  rw [commitBalance_account]

@[simp] theorem revertBalance_nonce : (host.revertBalance.account addr).nonce = (host.account addr).nonce := by
  rw [revertBalance_account]

@[simp] theorem revertBalance_code : (host.revertBalance.account addr).code = (host.account addr).code := by
  rw [revertBalance_account]

@[simp] theorem revertBalance_codeHash : (host.revertBalance.account addr).codeHash = (host.account addr).codeHash := by
  rw [revertBalance_account]

@[simp] theorem revertBalance_storage : (host.revertBalance.account addr).storage = (host.account addr).storage := by
  rw [revertBalance_account]

@[simp] theorem revertBalance_transientStorage : (host.revertBalance.account addr).transientStorage = (host.account addr).transientStorage := by
  rw [revertBalance_account]

@[simp] theorem commitNonce_balance : (host.commitNonce.account addr).balance = (host.account addr).balance := by
  rw [commitNonce_account]

@[simp] theorem commitNonce_code : (host.commitNonce.account addr).code = (host.account addr).code := by
  rw [commitNonce_account]

@[simp] theorem commitNonce_codeHash : (host.commitNonce.account addr).codeHash = (host.account addr).codeHash := by
  rw [commitNonce_account]

@[simp] theorem commitNonce_storage : (host.commitNonce.account addr).storage = (host.account addr).storage := by
  rw [commitNonce_account]

@[simp] theorem commitNonce_transientStorage : (host.commitNonce.account addr).transientStorage = (host.account addr).transientStorage := by
  rw [commitNonce_account]

@[simp] theorem commitCode_nonce : (host.commitCode.account addr).nonce = (host.account addr).nonce := by
  rw [commitCode_account]

@[simp] theorem commitCode_balance : (host.commitCode.account addr).balance = (host.account addr).balance := by
  rw [commitCode_account]

@[simp] theorem commitCode_storage : (host.commitCode.account addr).storage = (host.account addr).storage := by
  rw [commitCode_account]

@[simp] theorem commitCode_transientStorage : (host.commitCode.account addr).transientStorage = (host.account addr).transientStorage := by
  rw [commitCode_account]

@[simp] theorem revertCode_nonce : (host.revertCode.account addr).nonce = (host.account addr).nonce := by
  rw [revertCode_account]

@[simp] theorem revertCode_balance : (host.revertCode.account addr).balance = (host.account addr).balance := by
  rw [revertCode_account]

@[simp] theorem revertCode_storage : (host.revertCode.account addr).storage = (host.account addr).storage := by
  rw [revertCode_account]

@[simp] theorem revertCode_transientStorage : (host.revertCode.account addr).transientStorage = (host.account addr).transientStorage := by
  rw [revertCode_account]

@[simp] theorem commit_nonce : (host.commit.account addr).nonce = (host.account addr).nonce := by
  rw [commit_account]

@[simp] theorem commit_balance : (host.commit.account addr).balance = (host.account addr).balance := by
  rw [commit_account]

@[simp] theorem commit_code : (host.commit.account addr).code = (host.account addr).code := by
  rw [commit_account]

@[simp] theorem commit_codeHash : (host.commit.account addr).codeHash = (host.account addr).codeHash := by
  rw [commit_account]

@[simp] theorem revert_nonce : (host.revert.account addr).nonce = (host.account addr).nonce := by
  rw [revert_account]

@[simp] theorem revert_balance : (host.revert.account addr).balance = (host.account addr).balance := by
  rw [revert_account]

@[simp] theorem revert_code : (host.revert.account addr).code = (host.account addr).code := by
  rw [revert_account]

@[simp] theorem revert_codeHash : (host.revert.account addr).codeHash = (host.account addr).codeHash := by
  rw [revert_account]

theorem commitBalance_balance : (host.commitBalance.account addr).balance =
    if addr ∈ host.accessedAccountsBalances then (host.account addr).balance.commit else (host.account addr).balance := by
  rw [commitBalance_account]

theorem revertBalance_balance : (host.revertBalance.account addr).balance =
    if addr ∈ host.accessedAccountsBalances then (host.account addr).balance.revert else (host.account addr).balance := by
  rw [revertBalance_account]

theorem commitNonce_nonce : (host.commitNonce.account addr).nonce =
    if addr ∈ host.accessedAccountsNonces then (host.account addr).nonce.commit else (host.account addr).nonce := by
  rw [commitNonce_account]

theorem commitCode_code : (host.commitCode.account addr).code =
    if addr ∈ host.accessedAccountsCode then (host.account addr).code.commit else (host.account addr).code := by
  rw [commitCode_account]

theorem commitCode_codeHash : (host.commitCode.account addr).codeHash =
    if addr ∈ host.accessedAccountsCode then (host.account addr).codeHash.commit else (host.account addr).codeHash := by
  rw [commitCode_account]

theorem revertCode_code : (host.revertCode.account addr).code =
    if addr ∈ host.accessedAccountsCode then (host.account addr).code.revert else (host.account addr).code := by
  rw [revertCode_account]

theorem revertCode_codeHash : (host.revertCode.account addr).codeHash =
    if addr ∈ host.accessedAccountsCode then (host.account addr).codeHash.revert else (host.account addr).codeHash := by
  rw [revertCode_account]

theorem commit_transientStorage : (host.commit.account addr).transientStorage =
    if addr ∈ host.accessedTransients then default else (host.account addr).transientStorage := by
  rw [commit_account]

theorem revert_transientStorage : (host.revert.account addr).transientStorage =
    if addr ∈ host.accessedTransients then default else (host.account addr).transientStorage := by
  rw [revert_account]

theorem commit_storage (key : Hash) : (host.commit.account addr).storage.value key =
    if (addr, key) ∈ host.accessedStorages then ((host.account addr).storage.value key).commit
    else (host.account addr).storage.value key := by
  have storage := congrArg EVMAccount.storage (cleared_account host addr .commit)
  rw [show (host.commit.account addr).storage = _ from storage]
  exact updateStorages_value Versioned.commit_commit _ _ addr key

theorem revert_storage (key : Hash) : (host.revert.account addr).storage.value key =
    if (addr, key) ∈ host.accessedStorages then ((host.account addr).storage.value key).revert
    else (host.account addr).storage.value key := by
  have storage := congrArg EVMAccount.storage (cleared_account host addr .revert)
  rw [show (host.revert.account addr).storage = _ from storage]
  exact updateStorages_value Versioned.revert_revert _ _ addr key

end Accounts

/-- What may differ after an execution on behalf of a transaction, apart from balances.
A creation also writes the current code of an account it notes, and an address under a
hash it notes. -/
structure Written (before after : EVMHost) : Prop where
  nonce : ∀ addr, (after.account addr).nonce = (before.account addr).nonce
  codeFirst : ∀ addr, (after.account addr).code.first = (before.account addr).code.first
  codeHashFirst : ∀ addr, (after.account addr).codeHash.first = (before.account addr).codeHash.first
  code : ∀ addr, addr ∉ after.accessedAccountsCode → (after.account addr).code = (before.account addr).code
  codeHash : ∀ addr, addr ∉ after.accessedAccountsCode → (after.account addr).codeHash = (before.account addr).codeHash
  storageFirst : ∀ addr key, ((after.account addr).storage.value key).first = ((before.account addr).storage.value key).first
  storage : ∀ addr key, (addr, key) ∉ after.accessedStorages →
    (after.account addr).storage.value key = (before.account addr).storage.value key
  transientStorage : ∀ addr, addr ∉ after.accessedTransients →
    (after.account addr).transientStorage = (before.account addr).transientStorage
  contractAddresses : ∀ hash, hash ∉ after.recentlyCreatedContracts →
    after.contractAddresses.find hash = before.contractAddresses.find hash
  keys : before.accounts.keys ⊆ after.accounts.keys
  accessedStorages : before.accessedStorages <+: after.accessedStorages
  accessedTransients : before.accessedTransients <+: after.accessedTransients
  accessedAccountsCode : before.accessedAccountsCode <+: after.accessedAccountsCode
  accessedAccountsNonces : after.accessedAccountsNonces = before.accessedAccountsNonces
  currentTxHash : after.currentTxHash = before.currentTxHash

/-- An execution leaves the balances alone. -/
structure Executed (before after : EVMHost) : Prop extends Written before after where
  balance : ∀ addr, (after.account addr).balance = (before.account addr).balance
  accessedAccountsBalances : after.accessedAccountsBalances = before.accessedAccountsBalances

theorem Ran.executed {before after : EVMHost} (ran : Ran before after) : Executed before after :=
  { ran with
    codeFirst := fun addr => by rw [ran.code]
    codeHashFirst := fun addr => by rw [ran.codeHash]
    code := fun addr _ => ran.code addr
    codeHash := fun addr _ => ran.codeHash addr
    contractAddresses := fun hash _ => by rw [ran.contractAddresses]
    accessedAccountsCode := by rw [ran.accessedAccountsCode] }

private theorem executed_store {before after : EVMHost} (ran : Ran before after) (contractAddress : Address)
    (code : Bytes) (codeHash : Hash) : Executed before (after.storeContract contractAddress code codeHash) := by
  have kept : ∀ {β : Type} (project : EVMAccount → β),
      (∀ acc : EVMAccount, project { acc with codeHash := acc.codeHash.write codeHash, code := acc.code.write code } =
        project acc) → ∀ other,
      project ((after.storeContract contractAddress code codeHash).account other) = project (after.account other) :=
    fun project same other => Table.modify_project project _ _ _ same
  have outside : ∀ {other}, other ∉ after.accessedAccountsCode ++ [contractAddress] → other ≠ contractAddress :=
    fun unnoted same => unnoted (by simp [same])
  refine { toWritten := ?_, balance := ?balance, accessedAccountsBalances := ran.accessedAccountsBalances }
  case balance => exact fun other => (kept _ (fun _ => rfl) other).trans (ran.balance other)
  constructor
  case nonce => exact fun other => (kept _ (fun _ => rfl) other).trans (ran.nonce other)
  case codeFirst =>
    exact fun other => (kept (·.code.first) (fun _ => rfl) other).trans (congrArg _ (ran.code other))
  case codeHashFirst =>
    exact fun other => (kept (·.codeHash.first) (fun _ => rfl) other).trans (congrArg _ (ran.codeHash other))
  case code =>
    intro other unnoted
    simp only [EVMHost.account, EVMHost.storeContract, Table.modify_value_of_ne _ _ (outside unnoted)]
    exact ran.code other
  case codeHash =>
    intro other unnoted
    simp only [EVMHost.account, EVMHost.storeContract, Table.modify_value_of_ne _ _ (outside unnoted)]
    exact ran.codeHash other
  case storageFirst =>
    exact fun other key => (kept (fun acc => (acc.storage.value key).first) (fun _ => rfl) other).trans
      (ran.storageFirst other key)
  case storage =>
    exact fun other key unnoted => (kept (fun acc => acc.storage.value key) (fun _ => rfl) other).trans
      (ran.storage other key unnoted)
  case transientStorage =>
    exact fun other unnoted => (kept _ (fun _ => rfl) other).trans (ran.transientStorage other unnoted)
  case contractAddresses =>
    intro hash unnoted
    have apart : hash ≠ after.currentTxHash := fun same => unnoted (by simp [EVMHost.storeContract, same])
    rw [← ran.contractAddresses]
    simp only [EVMHost.storeContract, Table.find, Table.modify_keys, Finset.mem_insert, apart, false_or, Table.modify_value_of_ne _ _ apart]
  case keys => exact ran.keys.trans (Finset.subset_insert _ _)
  case accessedStorages => exact ran.accessedStorages
  case accessedTransients => exact ran.accessedTransients
  case accessedAccountsCode =>
    rw [← ran.accessedAccountsCode]
    exact List.prefix_append _ _
  case accessedAccountsNonces => exact ran.accessedAccountsNonces
  case currentTxHash => exact ran.currentTxHash

section Undone
variable {before after : EVMHost} (written : Written before after) (addr : Address)
include written

theorem undone_code : (after.revert.revertCode.account addr).code =
    if addr ∈ after.accessedAccountsCode then (before.account addr).code.revert else (before.account addr).code := by
  rw [revertCode_code, revert_code, show after.revert.accessedAccountsCode = after.accessedAccountsCode from rfl]
  split
  case isTrue => exact Versioned.ext (written.codeFirst addr) (written.codeFirst addr)
  case isFalse unnoted => exact written.code addr unnoted

theorem undone_codeHash : (after.revert.revertCode.account addr).codeHash =
    if addr ∈ after.accessedAccountsCode then (before.account addr).codeHash.revert else (before.account addr).codeHash := by
  rw [revertCode_codeHash, revert_codeHash, show after.revert.accessedAccountsCode = after.accessedAccountsCode from rfl]
  split
  case isTrue => exact Versioned.ext (written.codeHashFirst addr) (written.codeHashFirst addr)
  case isFalse unnoted => exact written.codeHash addr unnoted

theorem undone_storage (key : Hash) : (after.revert.revertCode.account addr).storage.value key =
    if (addr, key) ∈ after.accessedStorages then ((before.account addr).storage.value key).revert
    else (before.account addr).storage.value key := by
  rw [revertCode_storage, revert_storage]
  split
  case isTrue => exact Versioned.ext (written.storageFirst addr key) (written.storageFirst addr key)
  case isFalse unnoted => exact written.storage addr key unnoted

theorem undone_transientStorage : (after.revert.revertCode.account addr).transientStorage =
    if addr ∈ after.accessedTransients then default else (before.account addr).transientStorage := by
  rw [revertCode_transientStorage, revert_transientStorage]
  split
  case isTrue => rfl
  case isFalse unnoted => exact written.transientStorage addr unnoted

omit addr in
theorem undone_contractAddresses (hash : Hash) : after.revert.revertCode.contractAddresses.find hash =
    if hash ∈ after.recentlyCreatedContracts then none else before.contractAddresses.find hash := by
  refine (Table.find_eraseAll after.contractAddresses after.recentlyCreatedContracts hash).trans ?_
  split
  case isTrue => rfl
  case isFalse unnoted => exact written.contractAddresses hash unnoted

end Undone

/-- The gas limits that the host can pass on to the machine. -/
def gasFits (tx : EthCallInfo) : Prop := tx.gasLimit.toNat < if tx.to = 0 then 2 ^ 64 else 2 ^ 63

instance (tx : EthCallInfo) : Decidable (gasFits tx) := inferInstanceAs (Decidable (_ < _))

/-- A gas limit that does not fit is refused before the machine runs. -/
theorem execute_refused (vm : Vm) {tx : EthCallInfo} (wide : ¬ gasFits tx) (host : EVMHost) :
    ∃ after, host.execute vm tx = (.error Uint256.outOfRange, after) ∧ Ran host after := by
  unfold gasFits at wide
  unfold EVMHost.execute EVMHost.createContract
  split at wide
  case isTrue create =>
    refine ⟨host.touch tx.from, ?_, ran_touch host tx.from⟩
    rw [if_pos create, Uint256.narrow, if_neg wide]
  case isFalse call =>
    refine ⟨host, ?_, Ran.refl host⟩
    rw [if_neg call, Uint256.narrow, if_neg wide]

private theorem creation_gas {gas : Nat} (fits : gas < 2 ^ 64) : (BitVec.ofNat 64 gas).toInt.toNat ≤ gas := by
  rw [BitVec.toInt_eq_toNat_cond, BitVec.toNat_ofNat, Nat.mod_eq_of_lt fits]
  split <;> omega

/-- Otherwise the machine runs, with a gas left of at most the limit. -/
theorem execute_returns (vm : Vm) {tx : EthCallInfo} (fits : gasFits tx) (host : EVMHost) :
    ∃ result after, ∃ left : Nat, host.execute vm tx = (.ok result, after) ∧ Executed host after ∧
      result.gasLeft = left ∧ left ≤ tx.gasLimit.toNat := by
  unfold gasFits at fits
  unfold EVMHost.execute EVMHost.createContract
  split at fits
  case isTrue create =>
    simp only [if_pos create, Uint256.narrow, if_pos fits]
    generalize EVMHost.deriveContractAddress _ _ _ = contractAddress
    generalize seen : EVMHost.run vm _ _ _ = ended
    have ran := (ran_touch host tx.from).trans (seen ▸ ran_run vm _ _ _)
    have left : ∃ consumed : Nat, ended.1.gasLeft = ((BitVec.ofNat 64 tx.gasLimit.toNat).toInt.toNat - consumed : Nat) :=
      seen ▸ run_gasLeft vm _ _ _
    obtain ⟨consumed, left⟩ := left
    have bound := creation_gas fits
    split
    · exact ⟨_, _, _, rfl, Ran.executed ran, left, by omega⟩
    · exact ⟨_, _, _, rfl, executed_store ran _ _ _, left, by omega⟩
  case isFalse call =>
    simp only [if_neg call, Uint256.narrow, if_pos fits]
    obtain ⟨consumed, left⟩ := run_gasLeft vm (vm.evmcExecute (EVMHost.callMessage tx tx.gasLimit.toNat)
      ((host.touch tx.to).account tx.to).code.second) tx.gasLimit.toNat (host.touch tx.to)
    exact ⟨_, _, _, rfl, Ran.executed ((ran_touch host tx.to).trans (ran_run ..)), left, by simp⟩

/-- A creation that succeeds stores its code; any other execution is a run of the machine and nothing else. -/
theorem execute_ends {vm : Vm} {tx : EthCallInfo} {before after : EVMHost} {result : EvmcResult}
    (ran : before.execute vm tx = (.ok result, after)) :
    (tx.to = 0 ∧ result.statusCode = .success ∧ ∃ host, Ran before host ∧ after = host.storeContract
      (EVMHost.deriveContractAddress vm.sha3 (before.account tx.from).nonce.second.toNat tx.from) result.outputData
      (vm.sha3 result.outputData)) ∨
    (¬ (tx.to = 0 ∧ result.statusCode = .success) ∧ Ran before after) := by
  unfold EVMHost.execute EVMHost.createContract at ran
  split at ran
  case isTrue create =>
    split at ran
    · cases ran
    · simp only [account_touch] at ran
      generalize seen : EVMHost.run vm _ _ _ = ended at ran
      have kept := (ran_touch before tx.from).trans (seen ▸ ran_run vm _ _ _)
      split at ran
      case isTrue fails =>
        cases ran
        exact .inr ⟨fun both => fails both.2, kept⟩
      case isFalse passes =>
        cases ran
        exact .inl ⟨create, not_not.mp passes, ended.2, kept, rfl⟩
  case isFalse call =>
    split at ran
    · cases ran
    · cases ran
      exact .inr ⟨fun both => call both.1, (ran_touch before tx.to).trans (ran_run vm _ _ _)⟩

/-- A creation that succeeds is noted under the hash of its transaction. -/
theorem execute_created {vm : Vm} {tx : EthCallInfo} {before after : EVMHost} {result : EvmcResult}
    (ran : before.execute vm tx = (.ok result, after)) : after.recentlyCreatedContracts =
      before.recentlyCreatedContracts ++ if tx.to = 0 ∧ result.statusCode = .success then [before.currentTxHash] else [] := by
  rcases execute_ends ran with ⟨create, passes, host, kept, rfl⟩ | ⟨other, kept⟩
  · rw [if_pos ⟨create, passes⟩, ← kept.recentlyCreatedContracts, ← kept.currentTxHash]
    rfl
  · rw [if_neg other, List.append_nil]
    exact kept.recentlyCreatedContracts

end OrbiterSDK.Proofs.HostCommit
