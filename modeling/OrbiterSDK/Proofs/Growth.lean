import OrbiterSDK.Proofs.HostRuns

/-! Accounts and storage slots never go away again. What is saved once is therefore
overwritten whenever it is saved later. -/

namespace OrbiterSDK.Proofs.Growth
open Lib State HostSteps HostRuns

/-- Neither accounts nor slots are lost. -/
structure Grown (before after : Table Address EVMAccount) : Prop where
  keys : before.keys ⊆ after.keys
  slots : ∀ addr, (before.value addr).storage.keys ⊆ (after.value addr).storage.keys

variable {first second third : Table Address EVMAccount}

theorem Grown.refl (accounts : Table Address EVMAccount) : Grown accounts accounts where
  keys := Finset.Subset.refl _
  slots _ := Finset.Subset.refl _

theorem Grown.trans (early : Grown first second) (late : Grown second third) : Grown first third where
  keys := early.keys.trans late.keys
  slots addr := (early.slots addr).trans (late.slots addr)

theorem grown_modify (accounts : Table Address EVMAccount) (addr : Address) {update : EVMAccount → EVMAccount}
    (kept : ∀ acc, acc.storage.keys ⊆ (update acc).storage.keys) : Grown accounts (accounts.modify addr update) where
  keys := Finset.subset_insert _ _
  slots other := by
    rw [Table.modify_value]
    split
    case isTrue same =>
      subst same
      exact kept _
    case isFalse => exact Finset.Subset.refl _

theorem grown_modifyAll {update : EVMAccount → EVMAccount} (kept : ∀ acc, acc.storage.keys ⊆ (update acc).storage.keys)
    (touched : List Address) : ∀ accounts : Table Address EVMAccount, Grown accounts (accounts.modifyAll touched update) := by
  induction touched with
  | nil => exact Grown.refl
  | cons addr rest ih =>
    intro accounts
    exact (grown_modify accounts addr kept).trans (ih _)

theorem grown_updateStorages (update : Versioned Hash → Versioned Hash) (accessed : List (Address × Hash)) :
    ∀ accounts, Grown accounts (EVMHost.updateStorages update accessed accounts) := by
  induction accessed with
  | nil => exact Grown.refl
  | cons slot rest ih =>
    intro accounts
    exact (grown_modify accounts slot.1 fun acc => Finset.subset_insert _ _).trans (ih _)

private theorem kept_by {update : EVMAccount → EVMAccount} (same : ∀ acc, (update acc).storage = acc.storage) :
    ∀ acc, acc.storage.keys ⊆ (update acc).storage.keys := by
  intro acc
  rw [same]

/-- The same about the accounts of two hosts. -/
def HostGrown (before after : EVMHost) : Prop := Grown before.accounts after.accounts

theorem grown_touch (host : EVMHost) (addr : Address) : HostGrown host (host.touch addr) := by
  apply grown_modify
  exact kept_by fun _ => rfl

/-- The loops over slots and over transient storage, with which changes are kept or taken back. -/
theorem grown_cleared (host : EVMHost) (update : Versioned Hash → Versioned Hash) :
    Grown host.accounts (EVMHost.clearTransients host.accessedTransients
      (EVMHost.updateStorages update host.accessedStorages host.accounts)) := by
  apply (grown_updateStorages update host.accessedStorages host.accounts).trans
  apply grown_modifyAll
  exact kept_by fun _ => rfl

variable (host : EVMHost)

theorem grown_setStorage (addr : Address) (key value : Hash) : HostGrown host (host.setStorage addr key value).2 := by
  have modified : ∀ accounts (update : Versioned Hash → Versioned Hash),
      Grown accounts (accounts.modify addr fun acc => { acc with storage := acc.storage.modify key update }) :=
    fun accounts update => grown_modify accounts addr fun acc => Finset.subset_insert _ _
  unfold EVMHost.setStorage
  simp only
  split
  · exact modified _ _
  · exact (modified _ id).trans (modified _ _)

private theorem grown_setTransientStorage (addr : Address) (key value : Hash) :
    HostGrown host (host.setTransientStorage addr key value) := by
  simp only [HostGrown, EVMHost.setTransientStorage]
  apply grown_modify
  exact kept_by fun _ => rfl

private theorem grown_storeContract (addr : Address) (code : Bytes) (codeHash : Hash) :
    HostGrown host (host.storeContract addr code codeHash) := by
  simp only [HostGrown, EVMHost.storeContract]
  apply grown_modify
  exact kept_by fun _ => rfl

theorem grown_answer (request : HostRequest) : HostGrown host (host.answer request).2 := by
  cases request with
  | setStorage addr key value => exact grown_setStorage host addr key value
  | setTransientStorage addr key value => exact grown_setTransientStorage host addr key value
  | getBlockHash number =>
    unfold EVMHost.answer EVMHost.getBlockHash
    simp only
    split
    · exact Grown.refl _
    · exact Grown.refl _
  | _ => exact Grown.refl _

theorem grown_call (vm : Vm) (msg : EvmcMessage) {evmcExecute : Bytes → EVMHost → EvmcResult × EVMHost}
    (inner : ∀ code host, HostGrown host (evmcExecute code host).2) : HostGrown host (host.call vm msg evmcExecute).2 := by
  unfold EVMHost.call
  simp only
  split_ifs
  all_goals first
    | exact Grown.refl _
    | exact (grown_touch host msg.recipient).trans (inner _ _)

theorem grown_run (vm : Vm) (program : Program) : ∀ gas host, HostGrown host (EVMHost.run vm program gas host).2 := by
  induction program with
  | done statusCode consumed outputData =>
    intro gas host
    exact Grown.refl _
  | callback request next ih =>
    intro gas host
    exact (grown_answer host request).trans (ih _ gas _)
  | call msg execute next executeIh nextIh =>
    intro gas host
    exact (grown_call host vm msg fun code inner => executeIh code msg.gas inner).trans (nextIh _ gas _)

theorem grown_createContract (vm : Vm) (tx : EthCallInfo) : HostGrown host (host.createContract vm tx).2 := by
  have touched := grown_touch host tx.from
  unfold EVMHost.createContract
  simp only
  split
  · exact touched
  · split
    · exact touched.trans (grown_run vm _ _ _)
    · exact (touched.trans (grown_run vm _ _ _)).trans (grown_storeContract _ _ _ _)

theorem grown_execute (vm : Vm) (tx : EthCallInfo) : HostGrown host (host.execute vm tx).2 := by
  unfold EVMHost.execute
  split
  · exact grown_createContract host vm tx
  · split
    · exact Grown.refl _
    · exact (grown_touch host tx.to).trans (grown_run vm _ _ _)

theorem grown_step {before after : EVMHost} (step : HostStep before after) : HostGrown before after := by
  cases step with
  | plain plain =>
    cases plain with
    | beside beside =>
      constructor
      · exact beside.keys
      · intro addr
        exact (congrArg Table.keys (beside.storage addr)).superset
    | commit => exact grown_cleared before .commit
  | execute vm tx => exact grown_execute before vm tx
  | commitCode =>
    apply grown_modifyAll
    exact kept_by fun _ => rfl
  | revert => exact grown_cleared before .revert
  | revertCode =>
    apply grown_modifyAll
    exact kept_by fun _ => rfl
  | lookup txHash => exact Grown.refl _

theorem grown_perform {World : Type} {env : Env World} {operation : Operation} {before after : State World}
    {result : Except Stop Unit} (performed : (perform env operation).eval before = (result, after)) :
    HostGrown before.evmHost after.evmHost := by
  have hosted : Hosted HostGrown :=
    { refl := fun host => Grown.refl host.accounts
      trans := Grown.trans
      step := grown_step }
  have follows := hosts_perform hosted env operation before
  rw [performed] at follows
  exact follows

end OrbiterSDK.Proofs.Growth
