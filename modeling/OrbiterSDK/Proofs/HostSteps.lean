import OrbiterSDK.Proofs.HostCommit

/-! What the state does to its host, statement by statement. Whatever every statement
guarantees holds of any code made of them. -/

namespace OrbiterSDK.Proofs.HostSteps
open Lib HostRun HostCommit

/-- Statements that deal with balances, nonces and the context only. -/
structure Beside (before after : EVMHost) : Prop where
  code : ∀ addr, (after.account addr).code = (before.account addr).code
  codeHash : ∀ addr, (after.account addr).codeHash = (before.account addr).codeHash
  storage : ∀ addr, (after.account addr).storage = (before.account addr).storage
  transientStorage : ∀ addr, (after.account addr).transientStorage = (before.account addr).transientStorage
  contractAddresses : after.contractAddresses = before.contractAddresses
  recentlyCreatedContracts : after.recentlyCreatedContracts = before.recentlyCreatedContracts
  accessedAccountsCode : after.accessedAccountsCode = before.accessedAccountsCode
  accessedStorages : after.accessedStorages = before.accessedStorages
  accessedTransients : after.accessedTransients = before.accessedTransients
  keys : before.accounts.keys ⊆ after.accounts.keys

theorem Beside.refl (host : EVMHost) : Beside host host where
  code _ := rfl
  codeHash _ := rfl
  storage _ := rfl
  transientStorage _ := rfl
  contractAddresses := rfl
  recentlyCreatedContracts := rfl
  accessedAccountsCode := rfl
  accessedStorages := rfl
  accessedTransients := rfl
  keys := Finset.Subset.refl _

theorem Beside.trans {first second third : EVMHost} (early : Beside first second) (late : Beside second third) :
    Beside first third where
  code addr := (late.code addr).trans (early.code addr)
  codeHash addr := (late.codeHash addr).trans (early.codeHash addr)
  storage addr := (late.storage addr).trans (early.storage addr)
  transientStorage addr := (late.transientStorage addr).trans (early.transientStorage addr)
  contractAddresses := late.contractAddresses.trans early.contractAddresses
  recentlyCreatedContracts := late.recentlyCreatedContracts.trans early.recentlyCreatedContracts
  accessedAccountsCode := late.accessedAccountsCode.trans early.accessedAccountsCode
  accessedStorages := late.accessedStorages.trans early.accessedStorages
  accessedTransients := late.accessedTransients.trans early.accessedTransients
  keys := early.keys.trans late.keys

/-- An update of one account that leaves code and storage alone. -/
theorem beside_modify (host : EVMHost) (addr : Address) {update : EVMAccount → EVMAccount}
    (code : ∀ acc, (update acc).code = acc.code) (codeHash : ∀ acc, (update acc).codeHash = acc.codeHash)
    (storage : ∀ acc, (update acc).storage = acc.storage)
    (transientStorage : ∀ acc, (update acc).transientStorage = acc.transientStorage) :
    Beside host { host with accounts := host.accounts.modify addr update } :=
  { Beside.refl host with
    code := fun _ => Table.modify_project EVMAccount.code _ _ _ code
    codeHash := fun _ => Table.modify_project EVMAccount.codeHash _ _ _ codeHash
    storage := fun _ => Table.modify_project EVMAccount.storage _ _ _ storage
    transientStorage := fun _ => Table.modify_project EVMAccount.transientStorage _ _ _ transientStorage
    keys := Finset.subset_insert _ _ }

theorem beside_touch (host : EVMHost) (addr : Address) : Beside host (host.touch addr) :=
  beside_modify host addr (fun _ => rfl) (fun _ => rfl) (fun _ => rfl) fun _ => rfl

theorem beside_setBalance (host : EVMHost) (addr : Address) (balance : Uint256) : Beside host (host.setBalance addr balance) :=
  beside_modify host addr (fun _ => rfl) (fun _ => rfl) (fun _ => rfl) fun _ => rfl

theorem beside_setFirstBalance (host : EVMHost) (addr : Address) (balance : Uint256) :
    Beside host (host.setFirstBalance addr balance) :=
  beside_modify host addr (fun _ => rfl) (fun _ => rfl) (fun _ => rfl) fun _ => rfl

theorem beside_setTxContext (tx : EthCallInfo) (blockHeight : UInt64) (blockCoinbase : Address)
    (blockTimestamp blockGasLimit : UInt64) (chainId : Uint256) (host : EVMHost) :
    Beside host (host.setTxContext tx blockHeight blockCoinbase blockTimestamp blockGasLimit chainId) :=
  { Beside.refl host with }

variable (host : EVMHost)

private theorem keys_modifyAll (touched : List Address) (update : EVMAccount → EVMAccount) :
    host.accounts.keys ⊆ (host.accounts.modifyAll touched update).keys := by
  rw [Table.modifyAll_keys]
  exact Finset.subset_union_left

theorem beside_commitBalance : Beside host host.commitBalance :=
  { Beside.refl host with
    code := commitBalance_code host
    codeHash := commitBalance_codeHash host
    storage := commitBalance_storage host
    transientStorage := commitBalance_transientStorage host
    keys := keys_modifyAll host _ _ }

theorem beside_revertBalance : Beside host host.revertBalance :=
  { Beside.refl host with
    code := revertBalance_code host
    codeHash := revertBalance_codeHash host
    storage := revertBalance_storage host
    transientStorage := revertBalance_transientStorage host
    keys := keys_modifyAll host _ _ }

theorem beside_commitNonce : Beside host host.commitNonce :=
  { Beside.refl host with
    code := commitNonce_code host
    codeHash := commitNonce_codeHash host
    storage := commitNonce_storage host
    transientStorage := commitNonce_transientStorage host
    keys := keys_modifyAll host _ _ }

/-- The statements that code outside of the machine's branch consists of. -/
inductive PlainStep : EVMHost → EVMHost → Prop where
  | beside {before after : EVMHost} (beside : Beside before after) : PlainStep before after
  | commit (host : EVMHost) : PlainStep host host.commit

/-- All statements. -/
inductive HostStep : EVMHost → EVMHost → Prop where
  | plain {before after : EVMHost} (plain : PlainStep before after) : HostStep before after
  | execute (vm : Vm) (tx : EthCallInfo) (host : EVMHost) : HostStep host (host.execute vm tx).2
  | commitCode (host : EVMHost) : HostStep host host.commitCode
  | revert (host : EVMHost) : HostStep host host.revert
  | revertCode (host : EVMHost) : HostStep host host.revertCode
  | lookup (host : EVMHost) (txHash : Hash) :
      HostStep host { host with contractAddresses := host.contractAddresses.modify txHash id }

theorem HostStep.ofBeside {before after : EVMHost} (beside : Beside before after) : HostStep before after :=
  .plain (.beside beside)

theorem executed_execute (vm : Vm) (tx : EthCallInfo) (host : EVMHost) : Executed host (host.execute vm tx).2 := by
  by_cases fits : gasFits tx
  · obtain ⟨result, after, left, seen, executed, _⟩ := execute_returns vm fits host
    rw [seen]
    exact executed
  · obtain ⟨after, seen, ran⟩ := execute_refused vm fits host
    rw [seen]
    exact Ran.executed ran

end OrbiterSDK.Proofs.HostSteps
