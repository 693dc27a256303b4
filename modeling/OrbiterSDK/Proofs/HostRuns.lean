import OrbiterSDK.Proofs.Locks

/-! Guarantees about the host alone. One that every statement gives is given by every
method of the state, and an invariant of every statement holds in every reachable state. -/

namespace OrbiterSDK.Proofs.HostRuns
open Lib State Action HostSteps Frames Locks

variable {World : Type} {relation : EVMHost → EVMHost → Prop}

/-- A guarantee of every statement, also of many. -/
structure Hosted (relation : EVMHost → EVMHost → Prop) : Prop extends Chains relation where
  step : ∀ {before after}, HostStep before after → relation before after

/-- The same guarantee about the hosts of two states. -/
def OnHosts (relation : EVMHost → EVMHost → Prop) (before after : State World) : Prop :=
  relation before.evmHost after.evmHost

section Guarantees
variable (hosted : Hosted relation)
include hosted

private theorem chains_hosts : Chains (OnHosts relation : State World → State World → Prop) :=
  ⟨fun _ => hosted.refl _, hosted.trans⟩

theorem framed_hosts : Framed (OnHosts relation : State World → State World → Prop) where
  toChains := chains_hosts hosted
  plainHost _ _ plain _ := hosted.step (.plain plain)
  host _ _ allowed _ := hosted.step allowed
  manager _ _ _ := hosted.refl _
  payable _ _ := hosted.refl _

theorem quiet_hosts : Quiet (OnHosts relation : State World → State World → Prop) where
  toChains := chains_hosts hosted
  host _ _ := hosted.step
  mutex _ _ := hosted.refl _
  manager _ _ _ := hosted.refl _

private theorem hosts_processTransaction (env : Env World) (tx : TxBlock) (block : BlockContext) (txIndex : UInt64) :
    Follows (OnHosts relation) (processTransaction env tx block txIndex) :=
  follows_processTransaction (framed_hosts hosted) env tx block txIndex fun _ _ => hosted.step

theorem hosts_processTransactions (env : Env World) (context : BlockContext) (txs : List TxBlock) : ∀ txIndex,
    Follows (OnHosts relation) (processTransactions env context txs txIndex) := by
  induction txs with
  | nil => exact fun _ => (chains_hosts hosted).pure _
  | cons tx rest ih =>
    intro txIndex
    exact (chains_hosts hosted).bind (hosts_processTransaction hosted env tx context txIndex) fun _ => ih _

private theorem hosts_revalidate (entries : List (Hash × TxBlock)) :
    Follows (OnHosts relation) (revalidate entries : Act World Unit) := by
  have chains : Chains (OnHosts relation : State World → State World → Prop) := chains_hosts hosted
  induction entries with
  | nil => exact chains.pure _
  | cons entry rest ih =>
    refine chains.bind (chains.bind chains.get fun _ => chains.bind (follows_checked chains _) fun _ => ?_) fun _ => ih
    exact follows_ite (fun _ state => hosted.refl state.evmHost) fun _ => chains.pure _

theorem hosts_executeBlock (env : Env World) (block : Block) : Follows (OnHosts relation) (executeBlock env block) := by
  have chains : Chains (OnHosts relation : State World → State World → Prop) := chains_hosts hosted
  refine chains.bind (fun state => ?_) fun _ => chains.bind (hosts_processTransactions hosted env _ block.txs 0) fun _ => ?_
  · exact hosted.step (.ofBeside { Beside.refl state.evmHost with })
  refine chains.bind (follows_ite (fun _ => chains.throw _) fun _ state => hosted.refl state.evmHost) fun _ => ?_
  refine chains.bind (chains.bind chains.get fun _ => chains.bind (fun state => hosted.refl state.evmHost) fun _ => ?_) fun _ => ?_
  · exact hosts_revalidate hosted _
  refine chains.bind chains.get fun _ => follows_ite (fun _ => chains.throw _) fun _ => ?_
  exact follows_ite (fun _ => chains.throw _) fun _ state => hosted.refl state.evmHost

private theorem hosts_addTx (tx : TxBlock) : Follows (OnHosts relation) (addTx tx : Act World TxInvalid) := by
  have quiet : Quiet (OnHosts relation : State World → State World → Prop) := quiet_hosts hosted
  refine quiet.bind (follows_holding quiet (quiet.bind quiet.get fun _ => follows_checked quiet.toChains _)) fun _ => ?_
  refine follows_ite (fun _ => quiet.pure _) fun _ => quiet.bind (follows_holding quiet fun state => ?_) fun _ => quiet.pure _
  exact hosted.refl state.evmHost

theorem hosts_perform (env : Env World) (operation : Operation) : Follows (OnHosts relation) (perform env operation) :=
  follows_perform (quiet_hosts hosted) env operation (hosts_executeBlock hosted env) (hosts_addTx hosted)

end Guarantees

/-- The constructor of the state adds balances and nonces to the accounts of the host. -/
theorem beside_construct (db : Database) (world : World) (events : List Event) (rdposSeed : Hash)
    (storage : Chain) : Beside (loadHost db) (construct db world events rdposSeed storage).evmHost := by
  have native : ∀ (entries : List (Address × Uint256 × UInt64)) (host : EVMHost), Beside host { host with
      accounts := entries.foldl (fun accounts entry => accounts.modify entry.1 fun acc =>
        { acc with balance := ⟨entry.2.1, entry.2.1⟩, nonce := ⟨entry.2.2, entry.2.2⟩ }) host.accounts } := by
    intro entries
    induction entries with
    | nil => exact Beside.refl
    | cons entry rest ih =>
      intro host
      have one : Beside host { host with accounts := host.accounts.modify entry.1 fun acc =>
          { acc with balance := ⟨entry.2.1, entry.2.1⟩, nonce := ⟨entry.2.2, entry.2.2⟩ } } :=
        beside_modify host entry.1 (fun _ => rfl) (fun _ => rfl) (fun _ => rfl) fun _ => rfl
      exact one.trans (ih _)
  have committed := ((native db.nativeAccounts (loadHost db)).trans (beside_commitBalance _)).trans (beside_commitNonce _)
  exact committed.trans { Beside.refl _ with }

end OrbiterSDK.Proofs.HostRuns
