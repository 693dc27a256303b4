import OrbiterSDK.Proofs.BlockCompletion
import OrbiterSDK.Proofs.MempoolValidity

/-! Runs of the mempool. What waits in it is valid one by one, and no sender's nonce comes
back to a transaction that has been executed. Whether all of it can be executed together
is a question about the senders: what one of them is able to pay, the transactions of the
others do not take away. -/

namespace OrbiterSDK.Proofs.MempoolRuns
open Lib State HostCommit Locks Classic Statements Transaction Paths Supply BlockRun NonceOrder BlockCompletion Conservation MempoolValidity

variable {World : Type}

/-- Transactions are offered and blocks are processed, from the constructor on, and what has been
executed is noted. An accepted block completes, and its hashes identify its transactions. -/
inductive MempoolRun (env : Env World) : State World → List TxBlock → Prop where
  | construct (db : Database) (world : World) (events : List Event) (rdposSeed : Hash) (storage : Chain) :
      MempoolRun env (construct db world events rdposSeed storage) []
  | addTx {state : State World} {executed : List TxBlock} (tx : TxBlock) (run : MempoolRun env state executed) :
      MempoolRun env ((addTx tx).eval state).2 executed
  | refused {state : State World} {executed : List TxBlock} (block : Block) (run : MempoolRun env state executed)
      (refused : ¬ Accepts env state block) : MempoolRun env ((processNextBlock env block).eval state).2 executed
  | stored {state : State World} {executed : List TxBlock} (block : Block) (run : MempoolRun env state executed)
      (accepts : Accepts env state block)
      (identified : ∀ tx ∈ block.txs, ∀ entry ∈ state.mempool, entry.1 = tx.hash → entry.2 = tx)
      (completable : ∀ run ∈ blockExecutions env block state, Completable env run.2 (blockContext env block) run.1) :
      MempoolRun env ((processNextBlock env block).eval state).2 (executed ++ block.txs)

/-- The sender's nonce has passed what was executed. -/
def Passed (state : State World) (executed : List TxBlock) : Prop :=
  ∀ tx ∈ executed, ∃ count, 0 < count ∧ count ≤ executed.length ∧ tx.nonce.toNat < 2 ^ 64 ∧
    state.nonceOf tx.from = UInt64.ofNat tx.nonce.toNat + UInt64.ofNat count

/-- What holds at any time. -/
structure Sound (state : State World) (executed : List TxBlock) : Prop where
  free : state.stateMutex = .free
  valid : ValidMempool state
  passed : Passed state executed

section Steps
variable {env : Env World} {state : State World} {executed : List TxBlock} {block : Block}

theorem sound_addTx (sound : Sound state executed) (tx : TxBlock) : Sound ((addTx tx).eval state).2 executed := by
  rw [eval_addTx sound.free]
  cases verdictIs : state.validateTransactionInternal tx with
  | error what => exact sound
  | ok verdict =>
    by_cases accepted : verdict = .notInvalid
    · simp only [if_pos accepted]
      constructor
      · exact sound.free
      · apply sound.valid.insert
        exact accepted_of_validate (accepted ▸ verdictIs)
      · exact sound.passed
    · simp only [if_neg accepted]
      exact sound

theorem refused_unchanged (free : state.stateMutex = .free) (refused : ¬ Accepts env state block) :
    ((processNextBlock env block).eval state).2 = state := by
  rw [accepts_iff free] at refused
  unfold processNextBlock
  rw [Action.eval_bind, eval_validateNextBlock free]
  cases header : state.validateHeader env block with
  | false => rfl
  | true =>
    cases verdict : state.validateTxs block.txs with
    | error what => rfl
    | ok value =>
      cases value with
      | false => rfl
      | true => exact absurd ⟨header, verdict⟩ refused

/-- Every transaction of an accepted list is valid by itself. -/
theorem valid_of_validateTxs {txs : List TxBlock} (accepted : state.validateTxs txs = .ok true) :
    ∀ tx ∈ txs, state.validateTransactionInternal tx = .ok .notInvalid := by
  induction txs with
  | nil => exact fun _ member => absurd member List.not_mem_nil
  | cons head rest ih =>
    unfold validateTxs at accepted
    cases verdictIs : state.validateTransactionInternal head with
    | error what => simp [verdictIs, bind, Except.bind] at accepted
    | ok verdict =>
      by_cases fine : verdict = .notInvalid
      · simp only [verdictIs, fine, bind, Except.bind, ne_eq, not_true, if_false] at accepted
        intro tx member
        cases member with
        | head => exact fine ▸ verdictIs
        | tail _ member => exact ih accepted tx member
      · simp [verdictIs, fine, bind, Except.bind, pure, Except.pure] at accepted

theorem advanced_processed {context : BlockContext} (txs : List TxBlock) : ∀ {txIndex : UInt64} {state after : State World},
    (processTransactions env context txs txIndex).eval state = (.ok (), after) → Advanced state txs after := by
  induction txs with
  | nil =>
    intro txIndex state after done
    cases done
    exact advanced_nil state
  | cons tx rest ih =>
    intro txIndex state after done
    rw [processTransactions, Action.eval_bind] at done
    rcases seen : (processTransaction env tx context txIndex).eval state with ⟨stop | first, next⟩
    · rw [seen] at done
      cases done
    · rw [seen] at done
      exact advanced_cons seen (ih done)

/-- A stored block has passed what it executed and everything that was executed before. -/
theorem sound_stored (sound : Sound state executed) (accepts : Accepts env state block)
    (identified : ∀ tx ∈ block.txs, ∀ entry ∈ state.mempool, entry.1 = tx.hash → entry.2 = tx)
    (completable : ∀ run ∈ blockExecutions env block state, Completable env run.2 (blockContext env block) run.1) :
    Sound ((processNextBlock env block).eval state).2 (executed ++ block.txs) := by
  obtain ⟨after, done⟩ : ∃ after, runTransactions env block state = (.ok (), after) := by
    cases transactions_outcome block.txs with
    | inl completes => exact completes.2
    | inr stuck => exact absurd completable stuck.1
  obtain ⟨mempool, stores, valid⟩ := valid_stored sound.free sound.valid accepts done
  have processed : (processTransactions env (blockContext env block) block.txs 0).eval (opened block state) = (.ok (), after) := done
  have advanced : Advanced (opened block state) block.txs after := advanced_processed block.txs processed
  have fits : ∀ tx ∈ block.txs, (state.nonceOf tx.from).toNat = tx.nonce.toNat := by
    intro tx member
    obtain ⟨_, verdict⟩ := (accepts_iff sound.free).mp accepts
    cases accepted_of_validate (valid_of_validateTxs verdict tx member) with
    | inl waiting =>
      obtain ⟨entry, listed, same⟩ := List.any_eq_true.mp waiting
      obtain rfl := identified tx member entry listed (of_decide_eq_true same)
      exact (validateAgainstAccounts_iff.mp (sound.valid entry listed).2).2.2
    | inr accepted => exact (validateAgainstAccounts_iff.mp accepted).2.2
  rw [stores]
  refine ⟨rfl, valid, ?_⟩
  intro tx member
  cases List.mem_append.mp member with
  | inl old =>
    obtain ⟨count, positive, bounded, small, nonce⟩ := sound.passed tx old
    have more : sentBy tx.from block.txs ≤ block.txs.length := List.countP_le_length
    refine ⟨count + sentBy tx.from block.txs, by omega, ?_, small, ?_⟩
    · rw [List.length_append]
      omega
    · have here : (opened block state).nonceOf tx.from = _ := nonce
      apply (advanced tx.from).trans
      rw [here, UInt64.ofNat_add, UInt64.add_assoc]
  | inr new =>
    have some : 0 < sentBy tx.from block.txs := List.countP_pos_iff.mpr ⟨tx, new, decide_eq_true rfl⟩
    have more : sentBy tx.from block.txs ≤ block.txs.length := List.countP_le_length
    refine ⟨sentBy tx.from block.txs, some, ?_, ?_, ?_⟩
    · rw [List.length_append]
      omega
    · rw [← fits tx new]
      exact (state.nonceOf tx.from).toNat_lt
    · apply (advanced tx.from).trans
      rw [← fits tx new, UInt64.ofNat_toNat]
      rfl

theorem sound_run (run : MempoolRun env state executed) : Sound state executed := by
  induction run with
  | construct db world events rdposSeed storage =>
    constructor
    · rfl
    · exact fun entry member => absurd member List.not_mem_nil
    · exact fun tx member => absurd member List.not_mem_nil
  | addTx tx _ sound => exact sound_addTx sound tx
  | refused block _ refused sound =>
    rw [refused_unchanged sound.free refused]
    exact sound
  | stored block _ accepts identified completable sound => exact sound_stored sound accepts identified completable

/-- What waits has not been executed, unless a nonce has wrapped. -/
theorem waiting_unexecuted (sound : Sound state executed) (bounded : executed.length < 2 ^ 64) :
    ∀ entry ∈ state.mempool, entry.2 ∉ executed := by
  intro entry waits member
  obtain ⟨count, positive, most, small, nonce⟩ := sound.passed entry.2 member
  have current := (validateAgainstAccounts_iff.mp (sound.valid entry waits).2).2.2
  have same : state.nonceOf entry.2.from = UInt64.ofNat entry.2.nonce.toNat := by
    rw [← current, UInt64.ofNat_toNat]
  rw [same] at nonce
  have zero : UInt64.ofNat count = 0 := (UInt64.add_eq_left).mp nonce.symm
  have value := congrArg UInt64.toNat zero
  rw [UInt64.toNat_ofNat', Nat.mod_eq_of_lt (by omega)] at value
  exact absurd value (Nat.pos_iff_ne_zero.mp positive)

end Steps

/-- The body that an empty block is filled with, in one of the orders in which the mempool can be walked. -/
def Filled (state : State World) (empty filled : Block) : Prop :=
  ∃ walk, walk.Perm state.mempool ∧ ((fillBlockWithTransactions empty).eval { state with mempool := walk }).1 = .ok filled

section Bodies
variable {state : State World} {block empty filled : Block}

theorem txs_appended (entries : List (Hash × TxBlock)) : ∀ {block : Block}, block.finalized = false →
    (entries.foldl (fun block (_, tx) => (block.appendTx tx).2) block).txs = block.txs ++ entries.map Prod.snd := by
  induction entries with
  | nil =>
    intro block _
    exact (List.append_nil _).symm
  | cons entry rest ih =>
    intro block unfinished
    have appended : (block.appendTx entry.2).2 = { block with txs := block.txs ++ [entry.2] } := by
      rw [Block.appendTx, unfinished]
      rfl
    have next : (block.appendTx entry.2).2.finalized = false := appended ▸ unfinished
    apply (ih next).trans
    rw [appended, List.map_cons, List.append_assoc, List.singleton_append]

theorem txs_filled (free : state.stateMutex = .free) (unfinished : empty.finalized = false) (none : empty.txs = [])
    (filled : Filled state empty block) : block.txs.Perm (state.mempool.map Prod.snd) := by
  obtain ⟨walk, order, fills⟩ := filled
  unfold fillBlockWithTransactions at fills
  rw [eval_holding (show ({ state with mempool := walk } : State World).stateMutex = .free from free)] at fills
  have same : walk.foldl (fun block (_, tx) => (block.appendTx tx).2) empty = block := Except.ok.inj fills
  rw [← same, txs_appended walk unfinished, none, List.nil_append]
  exact order.map Prod.snd

end Bodies

/-- All transactions of a block can be executed, each under the nonce of its sender and with value
and greatest fee in its sender's account. -/
structure Executable (env : Env World) (block : Block) (state : State World) : Prop where
  completes : (runTransactions env block state).1 = .ok ()
  inOrder : InOrder env block state
  covered : ∀ run ∈ blockExecutions env block state, Covered run.2 run.1

/-- No contract sends coins of some accounts, whatever calls it. A contract of the source sends its own. -/
def Spared (env : Env World) (accounts : List Address) : Prop :=
  ∀ (state : State World) (tx : TxBlock), ∀ transfer ∈ callTransfers env tx state, transfer.from ∉ accounts

variable {env : Env World} {tx : TxBlock} {context : BlockContext} {txIndex : UInt64} {state : State World} {accounts : List Address}

theorem held_le_supply (state : State World) (addr : Address) : held state addr ≤ supply state :=
  show weight (state.evmHost.accounts.value addr) ≤ state.evmHost.accounts.total weight from Table.weight_le_total rfl _ addr

/-- A covered transaction is processed to its end: at most its value is added to the supply, and
the others on the list lose nothing. -/
def Harmless (env : Env World) (tx : TxBlock) (context : BlockContext) (txIndex : UInt64) (state : State World)
    (accounts : List Address) : Prop :=
  ∃ after, (processTransaction env tx context txIndex).eval state = (.ok (), after) ∧ supply after ≤ supply state + tx.value.toNat ∧
    ∀ addr ∈ accounts, addr ≠ tx.from → held state addr ≤ held after addr

/-- The machine leaves the coins of others alone, whether it fails or not. -/
theorem machine_spares (evm : isEvmTransaction tx state = true) (transferable : Transferable env tx state) (covered : Covered tx state) :
    ∃ after, (processTransaction env tx context txIndex).eval state = (.ok (), after) ∧
      ∀ addr, addr ≠ tx.from → held state addr ≤ held after addr := by
  have transferable := transferable_entered.mpr transferable
  obtain ⟨moved, entry, shift⟩ := enterMachine_ok transferable
  have caught : ∀ {later : State World} {what : Exception}, (evmBody env tx context txIndex).eval moved = (.error (.exception what), later) →
      Returnable env tx later → (∀ addr, addr ≠ tx.from → held later addr = held moved addr) →
      ∃ after, (processTransaction env tx context txIndex).eval state = (.ok (), after) ∧
        ∀ addr, addr ≠ tx.from → held state addr ≤ held after addr := by
    intro later what throws returnable same
    obtain ⟨after, completes, returned⟩ := process_caught evm entry throws returnable
    refine ⟨_, completes, fun addr apart => ?_⟩
    have there := shift.held addr
    have back := returned.held addr
    rw [held_entered] at there
    rw [same addr apart] at back
    rw [held_finished, held_reverted]
    omega
  rcases seen : machine env tx context moved with ⟨what | result, host⟩
  · have same := held_refused seen
    exact caught (evmBody_refused seen) (returnable_of_moved transferable shift (fun addr _ => same addr) (same tx.from).le)
      fun addr _ => same addr
  · have same := held_ran seen
    have paid : feeOf tx result ≤ held (withHost moved host) tx.from := by
      have atSender := shift.held tx.from
      have fee := feeOf_le tx result
      rw [onlyAt_self, held_entered] at atSender
      unfold Covered at covered
      rw [same]
      omega
    by_cases failed : Failed result host
    · exact caught (evmBody_failed seen paid failed) (returnable_of_charged transferable shift seen paid)
        fun addr apart => (held_charged_of_ne paid apart).trans (same addr)
    · refine ⟨_, process_succeeded evm entry (evmBody_succeeded seen paid failed), fun addr apart => ?_⟩
      have there := shift.held addr
      rw [held_entered, onlyAt_of_ne apart, ← same, ← held_charged_of_ne paid apart] at there
      rw [held_finished]
      simp only [held, State.balanceOf, EVMHost.balanceOf, withHost_evmHost, commitCode_balance, commit_balance] at there ⊢
      omega

theorem machine_harmless (evm : isEvmTransaction tx state = true) (covered : Covered tx state)
    (room : supply state + tx.value.toNat < 2 ^ 256) : Harmless env tx context txIndex state accounts := by
  have receiver := held_le_supply state (realTo env tx)
  have due := feeDue_le env tx context state
  unfold Covered at covered
  have transferable : Transferable env tx state := .inr ⟨by omega, .inr (by omega)⟩
  have affordable : MachineAffordable env tx context state := by
    unfold MachineAffordable
    split <;> omega
  obtain ⟨after, completes, spares⟩ := machine_spares evm transferable covered
  obtain ⟨_, same, balance, _⟩ := (conserves_machine evm).mpr ⟨transferable, affordable⟩
  cases completes.symm.trans same
  exact ⟨after, completes, by omega, fun addr _ => spares addr⟩

theorem plain_harmless (classic : isEvmTransaction tx state = false) (covered : Covered tx state)
    (room : supply state + tx.value.toNat < 2 ^ 256) (spared : Spared env accounts) : Harmless env tx context txIndex state accounts := by
  have receivable : Receivable tx state := .inr (by have := held_le_supply state tx.to; omega)
  obtain ⟨delivered, transfer, shift⟩ := classicTransfer_ok (covered_entered.mpr covered) (receivable_entered.mpr receivable)
  have total : supply delivered + feeLimit tx = supply state := by rw [supply_delivered shift, supply_entered]
  have given : ∀ addr, addr ≠ tx.from → held delivered addr = held state addr + onlyAt tx.to addr tx.value.toNat := by
    intro addr apart
    have there := shift.held addr
    rwa [onlyAt_of_ne apart, held_entered] at there
  have concludes : ∀ {later : State World}, (contractPart env tx txIndex).eval delivered = (.ok (), later) →
      supply later = supply delivered → (∀ addr ∈ accounts, held delivered addr ≤ held later addr) →
      Harmless env tx context txIndex state accounts := by
    intro later done same kept
    refine ⟨_, process_concluded classic transfer done, ?_, fun addr inside apart => ?_⟩
    · rw [supply_finished, supply_congr (held_concluded tx later), same]
      omega
    · have more := given addr apart
      have less := kept addr inside
      rw [held_finished, held_concluded]
      omega
  cases call : isCall env tx delivered with
  | false => exact concludes (contractPart_none call) rfl fun _ _ => le_rfl
  | true =>
    cases outcome : callOutcome env tx delivered with
    | ok returned =>
      obtain ⟨world, logger⟩ := returned
      have settled : ∀ addr ∈ accounts, held delivered addr ≤ held (withHost delivered (settledHost logger.balances delivered.evmHost)) addr := by
        intro addr inside
        have booked := held_after_call outcome addr
        have none : sent (callTransfers env tx delivered) addr = 0 := by
          apply List.sum_eq_zero
          intro amount member
          obtain ⟨transfer, made, rfl⟩ := List.mem_map.mp member
          have apart : addr ≠ transfer.from := by
            rintro rfl
            exact spared delivered tx transfer made inside
          exact onlyAt_of_ne apart _
        omega
      refine concludes (contractPart_returns call outcome) ?_ fun addr inside => ?_
      · split
        · exact supply_settled outcome
        · rfl
      · change held delivered addr ≤ held (if settles env tx delivered then _ else _) addr
        split
        · exact settled addr inside
        · exact le_rfl
    | error what =>
      have fails : ContractFails env tx state := by
        unfold ContractFails
        rw [atContract_eq transfer]
        exact ⟨call, what, outcome⟩
      have completable : PlainCompletable env tx state := by
        refine ⟨fun unpriced => absurd (priced_of_covered covered) unpriced, fun _ short => absurd covered short,
          fun _ full => absurd receivable full, fun _ _ _ _ => ?_⟩
        have := held_le_supply state tx.from
        omega
      obtain ⟨after, completes, refunded⟩ := process_refunded classic (classicBody_fails transfer (contractPart_fails call outcome))
        ((failing_iff covered receivable shift fails).mp completable)
      have same : supply (aborted env tx delivered) = supply delivered := rfl
      refine ⟨_, completes, ?_, fun addr inside apart => ?_⟩
      · rw [supply_finished, supply_refunded refunded]
        omega
      · have back := refunded.held addr
        have there : held (aborted env tx delivered) addr = _ := given addr apart
        rw [onlyAt_of_ne apart, there] at back
        rw [held_finished]
        split at back <;> omega

theorem transaction_harmless (covered : Covered tx state) (room : supply state + tx.value.toNat < 2 ^ 256) (spared : Spared env accounts) :
    Harmless env tx context txIndex state accounts := by
  cases evm : isEvmTransaction tx state with
  | true => exact machine_harmless evm covered room
  | false => exact plain_harmless evm covered room spared

/-- Covered transactions of different senders complete one after the other, each of them covered at its turn. -/
theorem transactions_complete (txs : List TxBlock) : ∀ {txIndex : UInt64} {state : State World}, (∀ tx ∈ txs, Covered tx state) →
    (∀ tx ∈ txs, tx.from ∈ accounts) → (txs.map TxBlock.from).Nodup → Spared env accounts →
    supply state + (txs.map fun tx => tx.value.toNat).sum < 2 ^ 256 →
    (∃ after, (processTransactions env context txs txIndex).eval state = (.ok (), after)) ∧
      ∀ run ∈ executions env context txs txIndex state, Covered run.2 run.1 := by
  induction txs with
  | nil => exact fun _ _ _ _ _ => ⟨⟨_, rfl⟩, fun run member => absurd member List.not_mem_nil⟩
  | cons tx rest ih =>
    intro txIndex state covered listed distinct spared room
    rw [List.map_cons, List.nodup_cons] at distinct
    rw [List.map_cons, List.sum_cons] at room
    obtain ⟨next, done, grown, kept⟩ : Harmless env tx context txIndex state accounts :=
      transaction_harmless (covered tx List.mem_cons_self) (by omega) spared
    have still : ∀ later ∈ rest, Covered later next := by
      intro later member
      have apart : later.from ≠ tx.from := fun same => distinct.1 (same ▸ List.mem_map_of_mem member)
      exact (covered later (List.mem_cons_of_mem _ member)).trans (kept _ (listed later (List.mem_cons_of_mem _ member)) apart)
    obtain ⟨completes, turns⟩ := @ih (txIndex + 1) next still (fun later member => listed later (List.mem_cons_of_mem _ member))
      distinct.2 spared (by omega)
    rw [executions, processTransactions, eval_seq_ok done, done]
    exact ⟨completes, List.forall_mem_cons.mpr ⟨covered tx List.mem_cons_self, turns⟩⟩

variable {executed : List TxBlock} {block empty filled : Block}

/-- Transactions of different senders that are valid one by one come in sequence. -/
theorem inSequence_of_nodup {start : Address → UInt64} {txs : List TxBlock} (fits : ∀ tx ∈ txs, (start tx.from).toNat = tx.nonce.toNat)
    (distinct : (txs.map TxBlock.from).Nodup) : InSequence start txs := by
  rintro earlier tx later rfl
  have none : sentBy tx.from earlier = 0 := by
    rw [List.map_append, List.map_cons] at distinct
    apply List.countP_eq_zero.mpr
    intro other member
    have apart := (List.nodup_append.mp distinct).2.2 other.from (List.mem_map_of_mem member) tx.from List.mem_cons_self
    rw [decide_eq_true_eq]
    exact apart
  have own := fits tx (List.mem_append_right _ List.mem_cons_self)
  rw [none, ← own]
  simp

theorem nodup_of_inSequence {start : Address → UInt64} {txs : List TxBlock} (fits : ∀ tx ∈ txs, (start tx.from).toNat = tx.nonce.toNat)
    (sequence : InSequence start txs) (bounded : txs.length < 2 ^ 64) : (txs.map TxBlock.from).Nodup := by
  rw [List.Nodup, List.pairwise_map]
  apply (unrepeated_of_inSequence txs sequence bounded).imp_of_mem
  intro first second firstIn secondIn apart same
  apply apart same
  apply BitVec.eq_of_toNat_eq
  rw [← fits first firstIn, ← fits second secondIn, same]

/-- A body that is filled from the mempool can be executed if and only if no sender occurs in it
twice, as long as contracts leave the senders alone and the values fit; and none of it has been executed. -/
theorem mempool_executes_iff (run : MempoolRun env state executed) (unfinished : empty.finalized = false) (none : empty.txs = [])
    (fills : Filled state empty filled) (same : block.txs = filled.txs) (bounded : block.txs.length < 2 ^ 64)
    (spared : Spared env (state.mempool.map fun entry => entry.2.from))
    (room : supply state + (state.mempool.map fun entry => entry.2.value.toNat).sum < 2 ^ 256) :
    (Executable env block state ↔ (state.mempool.map fun entry => entry.2.from).Nodup) ∧
    (executed.length < 2 ^ 64 → ∀ entry ∈ state.mempool, entry.2 ∉ executed) := by
  have sound := sound_run run
  have body : block.txs.Perm (state.mempool.map Prod.snd) := same ▸ txs_filled sound.free unfinished none fills
  have senders : (block.txs.map TxBlock.from).Perm (state.mempool.map fun entry => entry.2.from) := by
    have mapped := body.map TxBlock.from
    rwa [List.map_map] at mapped
  have values : (block.txs.map fun tx => tx.value.toNat).sum = (state.mempool.map fun entry => entry.2.value.toNat).sum := by
    have mapped := (body.map fun tx => tx.value.toNat).sum_eq
    rwa [List.map_map] at mapped
  have valid : ∀ tx ∈ block.txs, Covered tx state ∧ (state.nonceOf tx.from).toNat = tx.nonce.toNat := by
    intro tx member
    obtain ⟨entry, listed, rfl⟩ := List.mem_map.mp (body.subset member)
    exact (validateAgainstAccounts_iff.mp (sound.valid entry listed).2).2
  have all : ∀ {after : State World}, runTransactions env block state = (.ok (), after) →
      (blockExecutions env block state).map Prod.snd = block.txs := fun done => executions_complete block.txs done
  refine ⟨?_, waiting_unexecuted sound⟩
  rw [← senders.nodup_iff]
  constructor
  · intro executable
    have sequence := inOrder_iff.mp executable.inOrder
    rw [all (Prod.ext executable.completes rfl)] at sequence
    exact nodup_of_inSequence (fun tx member => (valid tx member).2) sequence bounded
  · intro distinct
    obtain ⟨⟨after, done⟩, covered⟩ := @transactions_complete World env (blockContext env block) _ block.txs 0 (opened block state)
      (fun tx member => (valid tx member).1) (fun tx member => senders.subset (List.mem_map_of_mem member)) distinct spared
      (values ▸ room)
    refine ⟨congrArg Prod.fst done, ?_, covered⟩
    rw [inOrder_iff, all done]
    exact inSequence_of_nodup (fun tx member => (valid tx member).2) distinct

def offered : State Unit := ((addTx (transfer 0 4)).eval freshState).2

def offeredTwice : State Unit := ((addTx (transfer 0 5)).eval offered).2

def emptyBlock : Block := { nextBlock [] with finalized := false }

/-- Transfers of two senders wait. -/
def offeredByBoth : State Unit := ((addTx otherTransfer).eval ((addTx (transfer 0 4)).eval twoAccounts).2).2

theorem both_transfers_execute : Executable stoppingEnv (nextBlock [transfer 0 4, otherTransfer]) offeredByBoth ∧
    ∀ entry ∈ offeredByBoth.mempool, entry.2 ∉ [] := by
  have run : MempoolRun stoppingEnv offeredByBoth [] := .addTx _ (.addTx _ (.construct _ _ _ _ _))
  have fills : Filled offeredByBoth emptyBlock { emptyBlock with txs := [transfer 0 4, otherTransfer] } :=
    ⟨offeredByBoth.mempool, .refl _, by decide⟩
  -- every call throws before it could send anything
  have spared : ∀ accounts, Spared stoppingEnv accounts := by
    intro accounts state tx transfer made
    unfold callTransfers ContractManager.called ContractManager.ethCall at made
    split at made
    · split at made
      · cases made
      · cases made
    · split at made
      · cases made
      · cases made
  have same : (nextBlock [transfer 0 4, otherTransfer]).txs = ({ emptyBlock with txs := [transfer 0 4, otherTransfer] } : Block).txs := rfl
  obtain ⟨executes, unexecuted⟩ := mempool_executes_iff run rfl rfl fills same (by decide) (spared _) (by decide)
  exact ⟨executes.mpr (by decide), unexecuted (by decide)⟩

/-- Both transfers wait, but only one of them can be executed. -/
theorem two_transfers_wait : MempoolRun stoppingEnv offeredTwice [] ∧
    Filled offeredTwice emptyBlock { emptyBlock with txs := [transfer 0 4, transfer 0 5] } ∧
    ¬ Executable stoppingEnv (nextBlock [transfer 0 4, transfer 0 5]) offeredTwice := by
  refine ⟨.addTx _ (.addTx _ (.construct _ _ _ _ _)), ⟨offeredTwice.mempool, .refl _, by decide⟩, ?_⟩
  have disordered : ¬ InOrder stoppingEnv (nextBlock [transfer 0 4, transfer 0 5]) offeredTwice := by
    unfold InOrder
    decide
  exact fun executable => disordered executable.inOrder

end OrbiterSDK.Proofs.MempoolRuns
