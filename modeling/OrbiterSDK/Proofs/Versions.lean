import OrbiterSDK.Proofs.Paths

/-! Original and current values. Whatever is out of step is on the list of what was
accessed, so committing or reverting a list brings its part of the accounts in step. -/

namespace OrbiterSDK.Proofs.Versions
open Lib State HostCommit Statements Transaction Classic

variable {World : Type}

/-- Everything but the balances is in step, unless it is noted as accessed. -/
structure Noted (host : EVMHost) : Prop where
  nonce : ∀ addr, addr ∉ host.accessedAccountsNonces → (host.account addr).nonce.InStep
  code : ∀ addr, addr ∉ host.accessedAccountsCode → (host.account addr).code.InStep
  codeHash : ∀ addr, addr ∉ host.accessedAccountsCode → (host.account addr).codeHash.InStep
  storage : ∀ addr key, (addr, key) ∉ host.accessedStorages → ((host.account addr).storage.value key).InStep
  transientStorage : ∀ addr, addr ∉ host.accessedTransients → (host.account addr).transientStorage = default

/-- The same for the balances. -/
def BalancesNoted (host : EVMHost) : Prop :=
  ∀ addr, addr ∉ host.accessedAccountsBalances → (host.account addr).balance.InStep

/-- All original and current values agree and nothing is noted. -/
structure Settled (host : EVMHost) : Prop where
  balance : ∀ addr, (host.account addr).balance.InStep
  nonce : ∀ addr, (host.account addr).nonce.InStep
  code : ∀ addr, (host.account addr).code.InStep
  codeHash : ∀ addr, (host.account addr).codeHash.InStep
  storage : ∀ addr key, ((host.account addr).storage.value key).InStep
  transientStorage : ∀ addr, (host.account addr).transientStorage = default
  accessedAccountsBalances : host.accessedAccountsBalances = []
  accessedAccountsCode : host.accessedAccountsCode = []
  accessedAccountsNonces : host.accessedAccountsNonces = []
  accessedStorages : host.accessedStorages = []
  accessedTransients : host.accessedTransients = []
  recentlyCreatedContracts : host.recentlyCreatedContracts = []

theorem Settled.noted {host : EVMHost} (settled : Settled host) : Noted host where
  nonce addr _ := settled.nonce addr
  code addr _ := settled.code addr
  codeHash addr _ := settled.codeHash addr
  storage addr key _ := settled.storage addr key
  transientStorage addr _ := settled.transientStorage addr

section Host
variable {host after : EVMHost}

theorem inStep_commit {α : Type} (pair : Versioned α) : pair.commit.InStep := rfl

theorem inStep_revert {α : Type} (pair : Versioned α) : pair.revert.InStep := rfl

theorem Noted.written (noted : Noted host) (executed : Written host after) : Noted after where
  nonce addr unnoted := by
    rw [executed.nonce]
    exact noted.nonce addr (executed.accessedAccountsNonces ▸ unnoted)
  code addr unnoted := by
    rw [executed.code addr unnoted]
    exact noted.code addr fun noted => unnoted (executed.accessedAccountsCode.subset noted)
  codeHash addr unnoted := by
    rw [executed.codeHash addr unnoted]
    exact noted.codeHash addr fun noted => unnoted (executed.accessedAccountsCode.subset noted)
  storage addr key unnoted := by
    rw [executed.storage addr key unnoted]
    exact noted.storage addr key fun noted => unnoted (executed.accessedStorages.subset noted)
  transientStorage addr unnoted := by
    rw [executed.transientStorage addr unnoted]
    exact noted.transientStorage addr fun noted => unnoted (executed.accessedTransients.subset noted)

/-- Storage and transient storage no longer need to be noted. -/
theorem Noted.commit (noted : Noted host) : Noted host.commit where
  nonce addr unnoted := by
    rw [commit_nonce]
    exact noted.nonce addr unnoted
  code addr unnoted := by
    rw [commit_code]
    exact noted.code addr unnoted
  codeHash addr unnoted := by
    rw [commit_codeHash]
    exact noted.codeHash addr unnoted
  storage addr key _ := by
    rw [commit_storage]
    split
    case isTrue => exact inStep_commit _
    case isFalse unnoted => exact noted.storage addr key unnoted
  transientStorage addr _ := by
    rw [commit_transientStorage]
    split
    case isTrue => rfl
    case isFalse unnoted => exact noted.transientStorage addr unnoted

theorem Noted.revert (noted : Noted host) : Noted host.revert where
  nonce addr unnoted := by
    rw [revert_nonce]
    exact noted.nonce addr unnoted
  code addr unnoted := by
    rw [revert_code]
    exact noted.code addr unnoted
  codeHash addr unnoted := by
    rw [revert_codeHash]
    exact noted.codeHash addr unnoted
  storage addr key _ := by
    rw [revert_storage]
    split
    case isTrue => exact inStep_revert _
    case isFalse unnoted => exact noted.storage addr key unnoted
  transientStorage addr _ := by
    rw [revert_transientStorage]
    split
    case isTrue => rfl
    case isFalse unnoted => exact noted.transientStorage addr unnoted

theorem Noted.commitCode (noted : Noted host) : Noted host.commitCode where
  nonce addr unnoted := by
    rw [commitCode_nonce]
    exact noted.nonce addr unnoted
  code addr _ := by
    rw [commitCode_code]
    split
    case isTrue => exact inStep_commit _
    case isFalse unnoted => exact noted.code addr unnoted
  codeHash addr _ := by
    rw [commitCode_codeHash]
    split
    case isTrue => exact inStep_commit _
    case isFalse unnoted => exact noted.codeHash addr unnoted
  storage addr key unnoted := by
    rw [commitCode_storage]
    exact noted.storage addr key unnoted
  transientStorage addr unnoted := by
    rw [commitCode_transientStorage]
    exact noted.transientStorage addr unnoted

theorem Noted.revertCode (noted : Noted host) : Noted host.revertCode where
  nonce addr unnoted := by
    rw [revertCode_nonce]
    exact noted.nonce addr unnoted
  code addr _ := by
    rw [revertCode_code]
    split
    case isTrue => exact inStep_revert _
    case isFalse unnoted => exact noted.code addr unnoted
  codeHash addr _ := by
    rw [revertCode_codeHash]
    split
    case isTrue => exact inStep_revert _
    case isFalse unnoted => exact noted.codeHash addr unnoted
  storage addr key unnoted := by
    rw [revertCode_storage]
    exact noted.storage addr key unnoted
  transientStorage addr unnoted := by
    rw [revertCode_transientStorage]
    exact noted.transientStorage addr unnoted

end Host

variable {before after : State World}

/-- Moving value leaves everything but the balances alone. -/
theorem Noted.paid (noted : Noted before.evmHost) (paid : Paid before after) : Noted after.evmHost := by
  have account := paid.account
  have host := paid.host
  constructor
  case nonce =>
    intro addr unnoted
    rw [account]
    rw [host] at unnoted
    exact noted.nonce addr unnoted
  case code =>
    intro addr unnoted
    rw [account]
    rw [host] at unnoted
    exact noted.code addr unnoted
  case codeHash =>
    intro addr unnoted
    rw [account]
    rw [host] at unnoted
    exact noted.codeHash addr unnoted
  case storage =>
    intro addr key unnoted
    rw [account]
    rw [host] at unnoted
    exact noted.storage addr key unnoted
  case transientStorage =>
    intro addr unnoted
    rw [account]
    rw [host] at unnoted
    exact noted.transientStorage addr unnoted

theorem written_paid {host : EVMHost} (written : Written host before.evmHost) (paid : Paid before after) :
    Written host after.evmHost := by
  have same := paid.host
  constructor
  case nonce => exact fun addr => by rw [paid.account]; exact written.nonce addr
  case codeFirst => exact fun addr => by rw [paid.account]; exact written.codeFirst addr
  case codeHashFirst => exact fun addr => by rw [paid.account]; exact written.codeHashFirst addr
  case code => exact fun addr unnoted => by rw [paid.account]; rw [same] at unnoted; exact written.code addr unnoted
  case codeHash => exact fun addr unnoted => by rw [paid.account]; rw [same] at unnoted; exact written.codeHash addr unnoted
  case storageFirst => exact fun addr key => by rw [paid.account]; exact written.storageFirst addr key
  case storage => exact fun addr key unnoted => by rw [paid.account]; rw [same] at unnoted; exact written.storage addr key unnoted
  case transientStorage =>
    exact fun addr unnoted => by rw [paid.account]; rw [same] at unnoted; exact written.transientStorage addr unnoted
  case contractAddresses => exact fun hash unnoted => by rw [same] at unnoted ⊢; exact written.contractAddresses hash unnoted
  case keys => exact written.keys.trans paid.keys
  case accessedStorages => rw [same]; exact written.accessedStorages
  case accessedTransients => rw [same]; exact written.accessedTransients
  case accessedAccountsCode => rw [same]; exact written.accessedAccountsCode
  case accessedAccountsNonces => rw [same]; exact written.accessedAccountsNonces
  case currentTxHash => rw [same]; exact written.currentTxHash

/-- Balances stay in step where neither the original nor the current one has changed. -/
theorem balancesNoted_of {host : EVMHost} (settled : Settled before.evmHost)
    (first : ∀ addr, (host.account addr).balance.first = (before.evmHost.account addr).balance.first)
    (same : ∀ addr, addr ∉ host.accessedAccountsBalances → (host.balanceOf addr).toNat = held before addr) :
    BalancesNoted host := by
  intro addr unnoted
  have second : host.balanceOf addr = before.balanceOf addr := BitVec.eq_of_toNat_eq (same addr unnoted)
  unfold Versioned.InStep
  rw [first]
  exact (settled.balance addr).trans second.symm

theorem Settled.entered (settled : Settled before.evmHost) (tx : TxBlock) : Noted (entered tx before).evmHost where
  nonce addr _ := by
    rw [account_entered]
    exact settled.nonce addr
  code addr _ := by
    rw [account_entered]
    exact settled.code addr
  codeHash addr _ := by
    rw [account_entered]
    exact settled.codeHash addr
  storage addr key _ := by
    rw [account_entered]
    exact settled.storage addr key
  transientStorage addr _ := by
    rw [account_entered]
    exact settled.transientStorage addr

/-- The last statements of a transaction touch nonces and balances only. -/
theorem finished_project {β : Type} (project : EVMAccount → β)
    (anyNonce : ∀ (acc : EVMAccount) nonce, project { acc with nonce := nonce } = project acc)
    (anyBalance : ∀ (acc : EVMAccount) balance, project { acc with balance := balance } = project acc)
    (tx : TxBlock) (state : State World) (addr : Address) :
    project ((finished tx state).evmHost.account addr) = project (state.evmHost.account addr) := by
  refine (Table.modifyAll_project project _ _ (fun acc => anyBalance acc _) addr).trans ?_
  refine (Table.modifyAll_project project _ _ (fun acc => anyNonce acc _) addr).trans ?_
  exact Table.modify_project project _ _ _ fun acc => anyNonce acc _

/-- The last statements of a transaction settle the nonces and the balances. -/
theorem settled_finished (tx : TxBlock) (noted : Noted after.evmHost) (balances : BalancesNoted after.evmHost)
    (codeDone : after.evmHost.accessedAccountsCode = []) (storagesDone : after.evmHost.accessedStorages = [])
    (transientsDone : after.evmHost.accessedTransients = []) (createdDone : after.evmHost.recentlyCreatedContracts = []) :
    Settled (finished tx after).evmHost := by
  let advanced : EVMHost := { after.evmHost with
    accounts := after.evmHost.accounts.modify tx.from fun acc =>
      { acc with nonce := acc.nonce.write (acc.nonce.second + 1) }
    accessedAccountsNonces := after.evmHost.accessedAccountsNonces ++ [tx.from] }
  have shape : (finished tx after).evmHost = advanced.commitNonce.commitBalance := rfl
  have kept : ∀ addr, (advanced.account addr).balance = (after.evmHost.account addr).balance := fun addr =>
    Table.modify_project EVMAccount.balance after.evmHost.accounts tx.from addr fun acc =>
      show ({ acc with nonce := acc.nonce.write (acc.nonce.second + 1) } : EVMAccount).balance = acc.balance from rfl
  rw [shape]
  constructor
  case balance =>
    intro addr
    rw [commitBalance_balance]
    split
    case isTrue => exact inStep_commit _
    case isFalse unnoted =>
      rw [commitNonce_balance, kept]
      exact balances addr unnoted
  case nonce =>
    intro addr
    rw [commitBalance_nonce, commitNonce_nonce]
    split
    case isTrue => exact inStep_commit _
    case isFalse unnoted =>
      have split : addr ∉ after.evmHost.accessedAccountsNonces ++ [tx.from] := unnoted
      rw [List.mem_append, not_or, List.mem_singleton] at split
      have untouched : advanced.account addr = after.evmHost.account addr := by
        simp only [advanced, EVMHost.account, Table.modify_value_of_ne _ _ split.2]
      rw [untouched]
      exact noted.nonce addr split.1
  case code =>
    intro addr
    rw [← shape, finished_project EVMAccount.code (fun _ _ => rfl) fun _ _ => rfl]
    exact noted.code addr (by rw [codeDone]; exact List.not_mem_nil)
  case codeHash =>
    intro addr
    rw [← shape, finished_project EVMAccount.codeHash (fun _ _ => rfl) fun _ _ => rfl]
    exact noted.codeHash addr (by rw [codeDone]; exact List.not_mem_nil)
  case storage =>
    intro addr key
    rw [← shape, finished_project EVMAccount.storage (fun _ _ => rfl) fun _ _ => rfl]
    exact noted.storage addr key (by rw [storagesDone]; exact List.not_mem_nil)
  case transientStorage =>
    intro addr
    rw [← shape, finished_project EVMAccount.transientStorage (fun _ _ => rfl) fun _ _ => rfl]
    exact noted.transientStorage addr (by rw [transientsDone]; exact List.not_mem_nil)
  case accessedAccountsBalances => rfl
  case accessedAccountsCode => exact codeDone
  case accessedAccountsNonces => rfl
  case accessedStorages => exact storagesDone
  case accessedTransients => exact transientsDone
  case recentlyCreatedContracts => exact createdDone

end OrbiterSDK.Proofs.Versions
