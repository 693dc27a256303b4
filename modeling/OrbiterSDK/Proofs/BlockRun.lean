import OrbiterSDK.Proofs.Locks
import OrbiterSDK.Proofs.Paths

/-! Processing of a block: after the sanity check nothing but a transaction can throw. -/

namespace OrbiterSDK.Proofs.BlockRun
open Lib State Action Statements Frames Locks

variable {World : Type} {env : Env World} {state : State World} {block : Block}

/-- The sanity check passes. -/
def Accepts (env : Env World) (state : State World) (block : Block) : Prop :=
  ((validateNextBlock env block).eval state).1 = .ok true

/-- The state in which the first transaction of a block is processed. -/
def opened (block : Block) (state : State World) : State World := ((beginBlock block).eval (withMutex state .unique)).2

/-- All transactions of a block, in order, in the state that the block has opened. -/
def runTransactions (env : Env World) (block : Block) (state : State World) : Except Stop Unit × State World :=
  (processTransactions env (blockContext env block) block.txs 0).eval (opened block state)

theorem validateTxs_locked (mode : Mutex) (txs : List TxBlock) :
    (withMutex state mode).validateTxs txs = state.validateTxs txs := by
  induction txs with
  | nil => rfl
  | cons tx rest ih =>
    simp only [validateTxs, ih]
    rfl

theorem eval_validateNextBlock (free : state.stateMutex = .free) : (validateNextBlock env block).eval state =
    if state.validateHeader env block then
      match state.validateTxs block.txs with
      | .ok verdict => (.ok verdict, state)
      | .error what => (.error (.exception what), state)
    else (.ok false, state) := by
  unfold validateNextBlock
  rw [Action.eval_bind, Action.eval_get]
  cases header : state.validateHeader env block with
  | false => simp [header]
  | true =>
    simp only [header, Bool.not_true, Bool.false_eq_true, if_false, if_true]
    rw [eval_holding free, Action.eval_bind, Action.eval_get]
    simp only [validateTxs_locked]
    have back : withMutex (withMutex state .shared) .free = state := withMutex_free free
    cases verdict : state.validateTxs block.txs with
    | ok value => simp [back]
    | error what => simp [back]

theorem accepts_iff (free : state.stateMutex = .free) :
    Accepts env state block ↔ state.validateHeader env block = true ∧ state.validateTxs block.txs = .ok true := by
  unfold Accepts
  rw [eval_validateNextBlock free]
  cases header : state.validateHeader env block with
  | false => simp
  | true =>
    cases verdict : state.validateTxs block.txs with
    | ok value => simp
    | error what => simp

/-- The transactions of a block touch neither the mempool nor the chain. -/
theorem keeps_processTransactions (context : BlockContext) (txs : List TxBlock) : ∀ txIndex,
    Keeps outer (processTransactions env context txs txIndex) := by
  induction txs with
  | nil => exact fun _ => keeps_pure _
  | cons tx rest ih => exact fun txIndex => keeps_bind (keeps_processTransaction env tx context txIndex) fun _ => ih _

/-- The state once the block has been stored. -/
def stored (block : Block) (mempool : List (Hash × TxBlock)) (state : State World) : State World :=
  { state with
    rdposSeed := block.blockRandomness
    mempool
    storage := ⟨state.storage.older ++ [state.latest], block⟩
    stateMutex := .free }

/-- After the sanity check only the exclusive section remains. -/
theorem eval_processNextBlock (free : state.stateMutex = .free) (accepts : Accepts env state block) :
    (processNextBlock env block).eval state = (holding .unique (executeBlock env block)).eval state := by
  have passed : (validateNextBlock env block).eval state = (.ok true, state) := by
    obtain ⟨header, verdict⟩ := (accepts_iff free).mp accepts
    rw [eval_validateNextBlock free, if_pos header, verdict]
  unfold processNextBlock
  rw [eval_seq_ok passed]
  rfl

private theorem eval_executeBlock : (executeBlock env block).eval (withMutex state .unique) =
    (processTransactions env (blockContext env block) block.txs 0 >>= fun _ => do
      rdposProcessBlock block
      refreshMempool block
      pushBack block).eval (opened block state) := rfl

theorem processNextBlock_throws {what : Exception} {after : State World} (free : state.stateMutex = .free)
    (accepts : Accepts env state block) (throws : runTransactions env block state = (.error (.exception what), after)) :
    (processNextBlock env block).eval state = (.error (.exception what), withMutex after .free) := by
  rw [eval_processNextBlock free accepts, eval_holding free, eval_executeBlock, eval_seq_error throws]

/-- The rest of the block never throws: it was found final and next in the chain, and
the chain has not changed since. -/
theorem processNextBlock_completes {after : State World} (free : state.stateMutex = .free)
    (priced : PricedMempool state.mempool) (accepts : Accepts env state block)
    (done : runTransactions env block state = (.ok (), after)) :
    ∃ mempool, (processNextBlock env block).eval state = (.ok (), stored block mempool after) ∧ PricedMempool mempool ∧
      after.mempool = state.mempool ∧ (refreshMempool block).eval { after with rdposSeed := block.blockRandomness } =
        (.ok (), { after with rdposSeed := block.blockRandomness, mempool }) := by
  have same : outer after = outer (opened block state) := by
    have kept : Keeps outer (processTransactions env (blockContext env block) block.txs 0) := keeps_processTransactions _ _ _
    have kept := kept (opened block state)
    rwa [show ((processTransactions env (blockContext env block) block.txs 0).eval (opened block state)).2 = after from
      congrArg Prod.snd done] at kept
  have mempoolKept : after.mempool = state.mempool := congrArg (·.1) same
  have storageKept : after.storage = state.storage := congrArg (·.2.1) same
  obtain ⟨header, _⟩ := (accepts_iff free).mp accepts
  simp only [validateHeader, Bool.and_eq_true, decide_eq_true_eq] at header
  obtain ⟨⟨⟨⟨height, parent⟩, _⟩, final⟩, _⟩ := header
  have seeded : (rdposProcessBlock block).eval after = (.ok (), { after with rdposSeed := block.blockRandomness }) := by
    unfold rdposProcessBlock
    simp [final]
  have pricedBefore : PricedMempool ({ after with rdposSeed := block.blockRandomness } : State World).mempool :=
    mempoolKept ▸ priced
  obtain ⟨mempool, refreshed, pricedAfter⟩ := refreshMempool_returns block pricedBefore
  refine ⟨mempool, ?_, pricedAfter, mempoolKept, refreshed⟩
  have pushed : (pushBack block).eval { after with rdposSeed := block.blockRandomness, mempool } = (.ok (),
      { after with
        rdposSeed := block.blockRandomness
        mempool
        storage := ⟨after.storage.older ++ [after.latest], block⟩ }) := by
    have latest : after.latest = state.latest := by rw [State.latest, storageKept]; rfl
    unfold pushBack
    rw [Action.eval_bind, Action.eval_get]
    simp only [show ({ after with rdposSeed := block.blockRandomness, mempool } : State World).latest = state.latest from latest,
      ← parent, height, ne_eq, not_true, if_false]
    rfl
  rw [eval_processNextBlock free accepts, eval_holding free, eval_executeBlock, eval_seq_ok done, eval_seq_ok seeded,
    eval_seq_ok refreshed, pushed]
  rfl

/-- The transactions of a list that are executed, each with the state it starts from:
those up to the first that throws. -/
def executions (env : Env World) (context : BlockContext) : List TxBlock → UInt64 → State World → List (State World × TxBlock)
  | [], _, _ => []
  | tx :: rest, txIndex, state => (state, tx) ::
    match (processTransaction env tx context txIndex).eval state with
    | (.ok _, after) => executions env context rest (txIndex + 1) after
    | (.error _, _) => []

/-- The executions of a block. -/
def blockExecutions (env : Env World) (block : Block) (state : State World) : List (State World × TxBlock) :=
  executions env (blockContext env block) block.txs 0 (opened block state)

private abbrev WellPriced (state : State World) : Prop := PricedMempool state.mempool

private theorem quiet_priced : Quiet fun before after : State World => WellPriced before → WellPriced after where
  toChains := chains_preserves
  host _ _ _ := id
  mutex _ _ := id
  manager _ _ _ := id

private theorem preserves_executeBlock (env : Env World) (block : Block) : Preserves WellPriced (executeBlock env block) := by
  have others : Preserves WellPriced (processTransactions env (blockContext env block) block.txs 0) := by
    intro state priced
    have same : ((processTransactions env (blockContext env block) block.txs 0).eval state).2.mempool = state.mempool :=
      congrArg (·.1) (keeps_processTransactions _ _ _ state)
    unfold WellPriced at priced ⊢
    rwa [same]
  have begun : Preserves WellPriced (beginBlock block : Act World Unit) := fun _ priced => priced
  have seeded : Preserves WellPriced (rdposProcessBlock block : Act World Unit) :=
    preserves_ite (fun _ _ priced => priced) fun _ _ priced => priced
  have refreshed : Preserves WellPriced (refreshMempool block : Act World Unit) := by
    intro state priced
    obtain ⟨mempool, seen, after⟩ := refreshMempool_returns block priced
    rw [seen]
    exact after
  have pushed : Preserves WellPriced (pushBack block : Act World Unit) :=
    preserves_bind (fun _ priced => priced) fun _ => preserves_ite (fun _ _ priced => priced) fun _ =>
      preserves_ite (fun _ _ priced => priced) fun _ _ priced => priced
  exact preserves_bind begun fun _ => preserves_bind others fun _ => preserves_bind seeded fun _ =>
    preserves_bind refreshed fun _ => pushed

theorem reachable_priced (reachable : Reachable env state) : PricedMempool state.mempool := by
  refine reachable_invariant quiet_priced (fun _ _ _ _ _ entry member => ?_) (preserves_executeBlock env) (fun tx => ?_) reachable
  · cases member
  · intro before priced
    by_cases free : before.stateMutex = .free
    · exact pricedMempool_addTx free priced
    · rw [show (addTx tx).eval before = (.error .deadlock, before) from eval_seq_error (eval_holding_held free)]
      exact priced

end OrbiterSDK.Proofs.BlockRun
