import OrbiterSDK.Proofs.BlockRun

/-! What waits in the mempool: every transaction under its own hash, and each one valid
against the accounts, as long as no accounts change without a refresh. -/

namespace OrbiterSDK.Proofs.MempoolValidity
open Lib State Statements Locks BlockRun

variable {World : Type} {state : State World}

/-- Every transaction in the mempool stands under its hash, and validation against the
accounts accepts it. -/
def ValidMempool (state : State World) : Prop :=
  ∀ entry ∈ state.mempool, entry.1 = entry.2.hash ∧ state.validateAgainstAccounts entry.2 = .ok .notInvalid

theorem ValidMempool.priced (valid : ValidMempool state) : PricedMempool state.mempool :=
  fun entry member => priced_of_validate (valid entry member).2

theorem mem_insertTx {mempool : List (Hash × TxBlock)} {hash : Hash} {tx : TxBlock} {entry : Hash × TxBlock}
    (member : entry ∈ insertTx mempool hash tx) :
    entry ∈ mempool ∨ (mempool.any (·.1 = hash) = false ∧ entry = (hash, tx)) := by
  unfold insertTx at member
  split at member
  case isTrue => exact .inl member
  case isFalse absent =>
    rcases List.mem_append.mp member with old | new
    · exact .inl old
    · exact .inr ⟨Bool.not_eq_true _ ▸ absent, List.mem_singleton.mp new⟩

theorem ValidMempool.insert (valid : ValidMempool state) {tx : TxBlock}
    (accepted : state.inMempool tx.hash = true ∨ state.validateAgainstAccounts tx = .ok .notInvalid) :
    ValidMempool { state with mempool := insertTx state.mempool tx.hash tx } := by
  intro entry member
  rcases mem_insertTx member with old | ⟨absent, rfl⟩
  · exact valid entry old
  · refine ⟨rfl, accepted.resolve_left fun present => ?_⟩
    rw [show state.inMempool tx.hash = state.mempool.any (·.1 = tx.hash) from rfl, absent] at present
    cases present

theorem accepted_of_validate {tx : TxBlock} (verdict : state.validateTransactionInternal tx = .ok .notInvalid) :
    state.inMempool tx.hash = true ∨ state.validateAgainstAccounts tx = .ok .notInvalid := by
  unfold validateTransactionInternal at verdict
  split at verdict
  case isTrue present => exact .inl present
  case isFalse => exact .inr verdict

/-- Transactions that are put back one by one are valid again. -/
theorem valid_revalidate (entries : List (Hash × TxBlock)) : ∀ state : State World,
    (∀ entry ∈ entries, entry.1 = entry.2.hash) → ValidMempool state → ValidMempool ((revalidate entries).eval state).2 := by
  induction entries with
  | nil => exact fun _ _ valid => valid
  | cons entry rest ih =>
    intro state keyed valid
    rcases entry with ⟨hash, tx⟩
    have own : hash = tx.hash := keyed (hash, tx) List.mem_cons_self
    have others : ∀ entry ∈ rest, entry.1 = entry.2.hash := fun other member => keyed other (List.mem_cons_of_mem _ member)
    subst own
    unfold revalidate revalidateOne
    rw [Action.eval_bind, Action.eval_bind, Action.eval_get]
    simp only
    cases verdictIs : state.validateTransactionInternal tx with
    | error what => exact valid
    | ok verdict =>
      rw [eval_seq_ok (eval_checked_ok _ _)]
      by_cases accepted : verdict = .notInvalid
      · rw [if_pos accepted]
        exact ih _ others (valid.insert (accepted_of_validate (accepted ▸ verdictIs)))
      · rw [if_neg accepted]
        exact ih _ others valid

/-- A refresh makes the mempool valid, whatever has become of the accounts. -/
theorem valid_refreshMempool (block : Block) (keyed : ∀ entry ∈ state.mempool, entry.1 = entry.2.hash) :
    ValidMempool ((refreshMempool block).eval state).2 := by
  unfold refreshMempool
  rw [Action.eval_bind, Action.eval_get]
  simp only
  rw [eval_seq_ok (Action.eval_modify _ _)]
  refine valid_revalidate _ _ (fun entry member => keyed entry (List.mem_filter.mp member).1) fun entry member => ?_
  cases member

theorem valid_stored {env : Env World} {block : Block} {after : State World} (free : state.stateMutex = .free)
    (valid : ValidMempool state) (accepts : Accepts env state block)
    (done : runTransactions env block state = (.ok (), after)) :
    ∃ mempool, (processNextBlock env block).eval state = (.ok (), stored block mempool after) ∧
      ValidMempool (stored block mempool after) := by
  obtain ⟨mempool, completes, _, kept, refreshed⟩ := processNextBlock_completes free valid.priced accepts done
  refine ⟨mempool, completes, ?_⟩
  have fresh := @valid_refreshMempool _ { after with rdposSeed := block.blockRandomness } block
    fun entry member => (valid entry (kept ▸ member)).1
  rw [refreshed] at fresh
  exact fresh

end OrbiterSDK.Proofs.MempoolValidity
