import OrbiterSDK.Proofs.HostSteps
import OrbiterSDK.State

/-! What a transaction leaves alone however it ends: everything outside of the
accounts and the contracts, and every nonce until its last statements. -/

namespace OrbiterSDK.Proofs.Frames
open Lib State Action HostCommit HostSteps

variable {World : Type} {α τ : Type} {project : State World → τ} {step : State World → State World → Prop}

theorem follows_checked (chains : Chains step) (value : Except Exception α) : Follows step (checked value : Act World α) := by
  cases value with
  | ok value => exact chains.pure value
  | error what => exact chains.throw _

theorem follows_catching (chains : Chains step) {body : Act World α} {handler : Exception → Act World α}
    (early : Follows step body) (late : ∀ what, Follows step (handler what)) : Follows step (catching body handler) := by
  refine chains.tryCatch early fun stop => ?_
  cases stop with
  | exception what => exact late what
  | deadlock => exact chains.throw _

/-- No event waits to be committed or reverted. -/
def Calm (state : State World) : Prop := state.contractManager.eventManager.tempEvents = []

/-- Guarantees that every statement outside of the machine's branch gives. -/
structure Plain (step : State World → State World → Prop) : Prop extends Chains step where
  plainHost : ∀ (state : State World) (host : EVMHost), PlainStep state.evmHost host →
    (∀ addr, (host.account addr).nonce = (state.evmHost.account addr).nonce) → step state { state with evmHost := host }
  manager : ∀ (state : State World) (manager : ContractManager World),
    (Calm state → manager.eventManager.tempEvents = []) → step state { state with contractManager := manager }
  payable : ∀ (state : State World) (flag : Bool), step state { state with processingPayable := flag }

/-- Guarantees that every statement of a transaction gives. -/
structure Framed (step : State World → State World → Prop) : Prop extends Plain step where
  host : ∀ (state : State World) (host : EVMHost), HostStep state.evmHost host →
    (∀ addr, (host.account addr).nonce = (state.evmHost.account addr).nonce) → step state { state with evmHost := host }

/-- The nonces of all accounts. -/
def nonces (state : State World) (addr : Address) : Versioned UInt64 := (state.evmHost.account addr).nonce

theorem framed_nonces : Framed fun before after : State World => nonces after = nonces before where
  toChains := chains_keeps
  plainHost _ _ _ same := funext same
  host _ _ _ same := funext same
  manager _ _ _ := rfl
  payable _ _ := rfl

/-- Everything outside of the host and the contracts. -/
def outer (state : State World) : List (Hash × TxBlock) × Chain × Hash × Mutex :=
  (state.mempool, state.storage, state.rdposSeed, state.stateMutex)

theorem framed_outer : Framed fun before after : State World => outer after = outer before where
  toChains := chains_keeps
  plainHost _ _ _ _ := rfl
  host _ _ _ _ := rfl
  manager _ _ _ := rfl
  payable _ _ := rfl

private theorem tempEvents_commitEvent (events : List Event) : ∀ manager : EventManager,
    (events.foldl EventManager.commitEvent manager).tempEvents = manager.tempEvents := by
  induction events with
  | nil => exact fun _ => rfl
  | cons event rest ih => exact fun manager => ih _

section Plain
variable (plain : Plain step) (env : Env World) (tx : TxBlock) (txIndex : UInt64)
include plain

theorem follows_plainHost {update : EVMHost → EVMHost} (allowed : ∀ host, PlainStep host (update host))
    (same : ∀ host addr, ((update host).account addr).nonce = (host.account addr).nonce) :
    Follows step (onHost update : Act World Unit) :=
  fun state => plain.plainHost state _ (allowed state.evmHost) (same state.evmHost)

theorem follows_setBalance (addr : Address) (balance : Uint256) :
    Follows step (onHost (·.setBalance addr balance) : Act World Unit) := by
  refine follows_plainHost plain (fun host => .beside (beside_setBalance host addr balance)) fun host other => ?_
  have kept : ∀ acc : EVMAccount, ({ acc with balance := acc.balance.write balance } : EVMAccount).nonce = acc.nonce :=
    fun _ => rfl
  exact Table.modify_project EVMAccount.nonce host.accounts addr other kept

theorem follows_credit (addr : Address) (amount : Uint256) : Follows step (credit env addr amount) := by
  unfold credit
  refine plain.bind plain.get fun state => ?_
  dsimp only
  split
  · exact follows_setBalance plain _ _
  · exact plain.bind (follows_setBalance plain _ _) fun _ => plain.throw _

theorem follows_debit (addr : Address) (amount : Uint256) : Follows step (debit env addr amount) := by
  unfold debit
  refine plain.bind plain.get fun state => ?_
  dsimp only
  split
  · exact follows_setBalance plain _ _
  · exact plain.bind (follows_setBalance plain _ _) fun _ => plain.throw _

theorem follows_pushBalance (addr : Address) : Follows step (pushBalance addr : Act World Unit) :=
  follows_plainHost plain (fun host => .beside { Beside.refl host with }) fun _ _ => rfl

theorem follows_setProcessingPayable (flag : Bool) : Follows step (setProcessingPayable flag : Act World Unit) :=
  fun state => plain.payable state flag

theorem follows_settle (callInfo : EthCallInfo) (balances : Table Address Uint256) :
    Follows step (settle env callInfo balances) := by
  unfold settle processContractPayable
  refine plain.bind plain.get fun state => follows_ite (fun _ => ?_) fun _ => plain.pure _
  refine plain.bind plain.get fun state => follows_ite (fun _ => plain.throw _) fun _ => ?_
  have kept : ∀ {β : Type} (project : EVMAccount → β),
      (∀ (acc : EVMAccount) balance, project { acc with balance := balance } = project acc) → ∀ (host : EVMHost) addr,
      project ((host.accounts.assign balances.keys fun address acc =>
        { acc with balance := acc.balance.write (balances.value address) }).value addr) = project (host.account addr) := by
    intro β project same host addr
    simp only [Table.assign]
    split
    · exact same _ _
    · rfl
  refine follows_plainHost plain (fun host => .beside ?_) fun host addr => kept EVMAccount.nonce (fun _ _ => rfl) host addr
  exact { Beside.refl host with
    code := kept EVMAccount.code (fun _ _ => rfl) host
    codeHash := kept EVMAccount.codeHash (fun _ _ => rfl) host
    storage := kept EVMAccount.storage (fun _ _ => rfl) host
    transientStorage := kept EVMAccount.transientStorage (fun _ _ => rfl) host
    keys := Finset.subset_union_left }

theorem follows_callContract : Follows step (callContract env tx txIndex) := by
  unfold callContract
  refine plain.bind plain.get fun state => ?_
  dsimp only
  split
  · exact plain.bind (fun _ => plain.manager _ _ fun _ => rfl) fun _ => plain.throw _
  · exact plain.bind (follows_settle plain env _ _) fun _ _ => plain.manager _ _ fun _ => rfl

theorem follows_contractPart : Follows step (contractPart env tx txIndex) := by
  unfold contractPart markPayable
  refine plain.bind plain.get fun state => follows_ite (fun _ => ?_) fun _ => plain.pure _
  refine plain.bind (plain.bind plain.get fun _ => follows_ite (fun _ => ?_) fun _ => plain.pure _) fun _ => ?_
  · exact follows_setProcessingPayable plain true
  · exact plain.bind (follows_callContract plain env tx txIndex) fun _ => follows_setProcessingPayable plain false

theorem follows_classicTransaction : Follows step (classicTransaction env tx txIndex) := by
  refine follows_catching plain.toChains ?_ fun _ => ?_
  · refine plain.bind ?_ fun _ => plain.bind (follows_contractPart plain env tx txIndex) fun _ =>
      plain.bind (follows_pushBalance plain _) fun _ => follows_plainHost plain .commit commit_nonce
    exact plain.bind (follows_checked plain.toChains _) fun _ => plain.bind (follows_checked plain.toChains _) fun _ =>
      plain.bind (follows_debit plain env _ _) fun _ => follows_credit plain env _ _
  · refine plain.bind (plain.bind plain.get fun state => follows_ite (fun _ => ?_) fun _ => plain.pure _) fun _ =>
      follows_credit plain env _ _
    exact plain.bind (follows_credit plain env _ _) fun _ => plain.bind (follows_debit plain env _ _) fun _ =>
      follows_setProcessingPayable plain false

private theorem follows_enterMachine : Follows step (enterMachine env tx) := by
  unfold enterMachine transferValue
  refine plain.bind (follows_pushBalance plain _) fun _ => follows_ite (fun _ => plain.pure _) fun _ => ?_
  exact plain.bind (follows_credit plain env _ _) fun _ => plain.bind (follows_debit plain env _ _) fun _ =>
    follows_pushBalance plain _

end Plain

section Transaction
variable (framed : Framed step) (env : Env World) (tx : TxBlock) (block : BlockContext) (txIndex : UInt64)
include framed

theorem follows_host {update : EVMHost → EVMHost} (allowed : ∀ host, HostStep host (update host))
    (same : ∀ host addr, ((update host).account addr).nonce = (host.account addr).nonce) :
    Follows step (onHost update : Act World Unit) :=
  fun state => framed.host state _ (allowed state.evmHost) (same state.evmHost)

private theorem follows_hostExecute (callInfo : EthCallInfo) : Follows step (hostExecute env callInfo) := by
  intro state
  have kept := framed.host state _ (.execute env.vm callInfo state.evmHost) (executed_execute env.vm callInfo state.evmHost).nonce
  have value : Follows step (checked (state.evmHost.execute env.vm callInfo).1 : Act World _) := follows_checked framed.toChains _
  exact framed.trans kept (value _)

theorem follows_evmBody : Follows step (evmBody env tx block txIndex) := by
  unfold evmBody prepareMachine chargeFee settleMachine registerEvents
  refine framed.bind (follows_plainHost framed.toPlain (fun host => .beside { Beside.refl host with }) fun _ _ => rfl) fun _ =>
    framed.bind (follows_hostExecute framed env _) fun _ => ?_
  refine framed.bind (follows_ite (fun _ => framed.throw _) fun _ => ?_) fun _ => ?_
  · exact framed.bind (follows_checked framed.toChains _) fun _ => framed.bind (follows_checked framed.toChains _) fun _ =>
      follows_debit framed.toPlain env _ _
  · refine framed.bind framed.get fun _ => follows_ite (fun _ => framed.throw _) fun _ => ?_
    refine framed.bind (fun _ => framed.manager _ _ fun calm => (tempEvents_commitEvent _ _).trans calm) fun _ => ?_
    exact framed.bind (follows_plainHost framed.toPlain .commit commit_nonce) fun _ =>
      follows_host framed .commitCode commitCode_nonce

theorem follows_evmTransaction : Follows step (evmTransaction env tx block txIndex) := by
  refine framed.bind (follows_enterMachine framed.toPlain env tx) fun _ =>
    follows_catching framed.toChains (follows_evmBody framed env tx block txIndex) fun _ => ?_
  refine framed.bind (follows_plainHost framed.toPlain (fun host => .beside { Beside.refl host with }) fun _ _ => rfl) fun _ =>
    framed.bind (follows_credit framed.toPlain env _ _) fun _ => ?_
  refine framed.bind (follows_debit framed.toPlain env _ _) fun _ => ?_
  exact framed.bind (follows_host framed .revert revert_nonce) fun _ => follows_host framed .revertCode revertCode_nonce

theorem follows_dispatch : Follows step (dispatch env tx block txIndex) :=
  framed.bind framed.get fun _ => follows_ite (fun _ => follows_evmTransaction framed env tx block txIndex) fun _ =>
    follows_classicTransaction framed.toPlain env tx txIndex

/-- Where nonces do not matter, whole transactions give the guarantee. -/
theorem follows_processTransaction
    (anyHost : ∀ (state : State World) (host : EVMHost), HostStep state.evmHost host → step state { state with evmHost := host }) :
    Follows step (processTransaction env tx block txIndex) := by
  have hosted : ∀ update : EVMHost → EVMHost, (∀ host, Beside host (update host)) →
      Follows step (onHost update : Act World Unit) :=
    fun update allowed state => anyHost state _ (.ofBeside (allowed state.evmHost))
  refine framed.bind ?_ fun _ => framed.bind (follows_dispatch framed env tx block txIndex) fun _ => ?_
  · exact framed.bind (hosted _ fun host => beside_touch host tx.to) fun _ =>
      framed.bind (hosted _ fun host => { Beside.refl host with }) fun _ => hosted _ fun host => { Beside.refl host with }
  · refine framed.bind (hosted _ fun host => ?_) fun _ => framed.bind (hosted _ fun host => { Beside.refl host with }) fun _ =>
      framed.bind (hosted _ beside_commitNonce) fun _ => hosted _ beside_commitBalance
    exact beside_modify host tx.from (fun _ => rfl) (fun _ => rfl) (fun _ => rfl) fun _ => rfl

end Transaction

/-- A transaction never touches the mempool, the chain, the consensus or the mutex. -/
theorem keeps_processTransaction (env : Env World) (tx : TxBlock) (block : BlockContext) (txIndex : UInt64) :
    Keeps outer (processTransaction env tx block txIndex) :=
  follows_processTransaction framed_outer env tx block txIndex fun _ _ _ => rfl

end OrbiterSDK.Proofs.Frames
