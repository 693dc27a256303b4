import OrbiterSDK.Interleaving
import OrbiterSDK.Proofs.BlockCompletion
import OrbiterSDK.Proofs.DryRuns
import OrbiterSDK.Proofs.MempoolValidity

/-! Concurrent calls. Every call first looks at the state and acts later, in a section of
its own; what it has seen still holds when it acts, as long as no block was executed in
between. -/

namespace OrbiterSDK.Proofs.Interleavings
open Lib State Action Statements Locks Conservation NonceOrder BlockRun BlockCompletion MempoolValidity DryRuns

variable {World : Type} {env : Env World} {action : Act World α}

/-- The state apart from the mempool and the mutex. -/
structure SameChain (left right : State World) : Prop where
  evmHost : left.evmHost = right.evmHost
  contractManager : left.contractManager = right.contractManager
  rdposSeed : left.rdposSeed = right.rdposSeed
  processingPayable : left.processingPayable = right.processingPayable
  storage : left.storage = right.storage

theorem SameChain.refl (state : State World) : SameChain state state := ⟨rfl, rfl, rfl, rfl, rfl⟩

/-- Blocks are executed once, on what they were validated against, and the mempool is valid. -/
structure Linearized (env : Env World) (threads : Threads World) : Prop where
  validated : ∀ execution ∈ threads.executed, SameChain execution.header execution.start ∧
    SameChain execution.txs execution.start ∧ execution.header.validateHeader env execution.block = true ∧
    execution.txs.validateTxs execution.block.txs = .ok true
  once : threads.executed.Pairwise fun early late => early.block ≠ late.block
  mempool : ∀ entry ∈ threads.state.mempool, threads.state.validateAgainstAccounts entry.2 = .ok .notInvalid

/-- A call may act: no block was executed since it first looked, and the block it executes
can complete and has a height. -/
def Orderly (env : Env World) (threads : Threads World) : Call World → Prop
  | .processNextBlockExecute block _ _ since => since = threads.executed.length ∧
      (∀ run ∈ blockExecutions env block threads.state, Completable env run.2 (blockContext env block) run.1) ∧
      threads.state.latest.nHeight.toNat + 1 < 2 ^ 64
  | .addTxInsert _ since => since = threads.executed.length
  | _ => True

/-- An interleaving in which every section is orderly. -/
inductive OrderlyRun (env : Env World) : Threads World → Prop where
  | construct (db : Database) (world : World) (events : List Event) (rdposSeed : Hash) (storage : Chain) :
      OrderlyRun env ⟨construct db world events rdposSeed storage, fun _ => .idle, []⟩
  | arrive {threads : Threads World} (thread : Nat) (arrival : Arrival) (before : OrderlyRun env threads)
      (idle : threads.calls thread = .idle) : OrderlyRun env (threads.arrive thread arrival)
  | advance {threads : Threads World} (thread : Nat) (before : OrderlyRun env threads)
      (orderly : Orderly env threads (threads.calls thread)) : OrderlyRun env (threads.advance env thread)

/-- What a call has seen, and that it still holds unless a block was executed since. -/
def Current (env : Env World) (threads : Threads World) : Call World → Prop
  | .processNextBlockTxs block header since => since ≤ threads.executed.length ∧ header.validateHeader env block = true ∧
      (since = threads.executed.length → SameChain header threads.state)
  | .processNextBlockExecute block header txs since => since ≤ threads.executed.length ∧
      header.validateHeader env block = true ∧ txs.validateTxs block.txs = .ok true ∧
      (since = threads.executed.length → SameChain header threads.state ∧ SameChain txs threads.state ∧
        ∀ hash, txs.inMempool hash = true → threads.state.inMempool hash = true)
  | .addTxInsert tx since => since ≤ threads.executed.length ∧ (since = threads.executed.length →
      threads.state.inMempool tx.hash = true ∨ threads.state.validateAgainstAccounts tx = .ok .notInvalid)
  | _ => True

/-- The invariant of orderly runs. -/
structure Inv (env : Env World) (threads : Threads World) : Prop where
  free : threads.state.stateMutex = .free
  mempool : ValidMempool threads.state
  current : ∀ thread, Current env threads (threads.calls thread)
  validated : ∀ execution ∈ threads.executed, SameChain execution.header execution.start ∧
    SameChain execution.txs execution.start ∧ execution.header.validateHeader env execution.block = true ∧
    execution.txs.validateTxs execution.block.txs = .ok true
  heights : threads.executed.Pairwise fun early late => early.block.nHeight.toNat < late.block.nHeight.toNat
  below : ∀ execution ∈ threads.executed, execution.block.nHeight.toNat ≤ threads.state.latest.nHeight.toNat

theorem Inv.linearized {threads : Threads World} (inv : Inv env threads) : Linearized env threads where
  validated := inv.validated
  once := inv.heights.imp fun lower same => absurd (same ▸ lower) (lt_irrefl _)
  mempool entry member := (inv.mempool entry member).2

section Chains
variable {left right : State World}

theorem SameChain.validateAgainstAccounts (same : SameChain left right) (tx : TxBlock) :
    left.validateAgainstAccounts tx = right.validateAgainstAccounts tx := by
  unfold State.validateAgainstAccounts
  rw [same.evmHost]

theorem SameChain.validateHeader (same : SameChain left right) (block : Block) :
    left.validateHeader env block = right.validateHeader env block := by
  unfold State.validateHeader State.latest
  rw [same.storage, same.rdposSeed]

/-- Transactions that were valid stay valid while the mempool grows. -/
theorem validateTxs_mono (same : SameChain left right) (grows : ∀ hash, left.inMempool hash = true → right.inMempool hash = true)
    (txs : List TxBlock) (valid : left.validateTxs txs = .ok true) : right.validateTxs txs = .ok true := by
  induction txs with
  | nil => rfl
  | cons tx rest ih =>
    unfold validateTxs at valid ⊢
    have one : left.validateTransactionInternal tx = .ok .notInvalid → right.validateTransactionInternal tx = .ok .notInvalid := by
      intro verdict
      unfold validateTransactionInternal
      rcases accepted_of_validate verdict with present | accepted
      · rw [if_pos (grows _ present)]
      · split
        · rfl
        · rw [← same.validateAgainstAccounts, accepted]
    cases verdict : left.validateTransactionInternal tx with
    | error what =>
      rw [verdict] at valid
      cases valid
    | ok value =>
      rw [verdict] at valid
      cases value with
      | notInvalid =>
        rw [one verdict]
        exact ih valid
      | invalidNonce => cases valid
      | invalidBalance => cases valid

end Chains

section Sections
variable {threads : Threads World}

/-- What a call has seen still holds after a section that leaves the chain alone. -/
theorem Current.kept {call : Call World} (current : Current env threads call) {state : State World} {calls : Nat → Call World}
    (same : SameChain threads.state state)
    (grows : ∀ hash, threads.state.inMempool hash = true → state.inMempool hash = true) :
    Current env ⟨state, calls, threads.executed⟩ call := by
  have trans : ∀ {seen : State World}, SameChain seen threads.state → SameChain seen state := fun early =>
    ⟨early.evmHost.trans same.evmHost, early.contractManager.trans same.contractManager, early.rdposSeed.trans same.rdposSeed,
      early.processingPayable.trans same.processingPayable, early.storage.trans same.storage⟩
  cases call with
  | processNextBlockTxs block header since =>
    obtain ⟨before, passed, seen⟩ := current
    exact ⟨before, passed, fun now => trans (seen now)⟩
  | processNextBlockExecute block header txs since =>
    obtain ⟨before, passed, checked, seen⟩ := current
    refine ⟨before, passed, checked, fun now => ?_⟩
    obtain ⟨headerSame, txsSame, waiting⟩ := seen now
    exact ⟨trans headerSame, trans txsSame, fun hash present => grows hash (waiting hash present)⟩
  | addTxInsert tx since =>
    obtain ⟨before, seen⟩ := current
    refine ⟨before, fun now => (seen now).imp (grows _) fun accepted => ?_⟩
    exact (same.validateAgainstAccounts tx).symm.trans accepted
  | _ => trivial

/-- After the execution of a block nothing seen before counts. -/
theorem Current.stale {call : Call World} (current : Current env threads call) {state : State World} {calls : Nat → Call World}
    (execution : Execution World) : Current env ⟨state, calls, threads.executed ++ [execution]⟩ call := by
  have longer : (threads.executed ++ [execution]).length = threads.executed.length + 1 := List.length_append
  cases call with
  | processNextBlockTxs block header since =>
    obtain ⟨before, passed, _⟩ := current
    exact ⟨by simp only [longer]; omega, passed, fun now => by simp only [longer] at now; omega⟩
  | processNextBlockExecute block header txs since =>
    obtain ⟨before, passed, checked, _⟩ := current
    exact ⟨by simp only [longer]; omega, passed, checked, fun now => by simp only [longer] at now; omega⟩
  | addTxInsert tx since =>
    obtain ⟨before, _⟩ := current
    exact ⟨by simp only [longer]; omega, fun now => by simp only [longer] at now; omega⟩
  | _ => trivial

/-- A section that leaves the state alone, and after which the thread has seen what it says. -/
theorem Inv.looked (inv : Inv env threads) (thread : Nat) {call : Call World} (current : Current env threads call) :
    Inv env ⟨threads.state, Function.update threads.calls thread call, threads.executed ++ []⟩ := by
  rw [List.append_nil]
  refine { inv with current := fun other => ?_ }
  simp only [Function.update_apply]
  split
  · exact current.kept (SameChain.refl _) fun _ => id
  · exact (inv.current other).kept (SameChain.refl _) fun _ => id

/-- A transaction that was found valid enters the mempool. -/
theorem Inv.inserted (inv : Inv env threads) (thread : Nat) {tx : TxBlock}
    (accepted : threads.state.inMempool tx.hash = true ∨ threads.state.validateAgainstAccounts tx = .ok .notInvalid) :
    Inv env ⟨{ threads.state with mempool := insertTx threads.state.mempool tx.hash tx },
      Function.update threads.calls thread .idle, threads.executed ++ []⟩ := by
  rw [List.append_nil]
  refine { inv with mempool := inv.mempool.insert accepted, current := fun other => ?_ }
  have grows : ∀ hash, threads.state.inMempool hash = true →
      ({ threads.state with mempool := insertTx threads.state.mempool tx.hash tx } : State World).inMempool hash = true := by
    intro hash present
    unfold State.inMempool insertTx at *
    split
    · exact present
    · rw [List.any_append, present, Bool.true_or]
  simp only [Function.update_apply]
  split
  · trivial
  · exact (inv.current other).kept ⟨rfl, rfl, rfl, rfl, rfl⟩ grows

/-- A block is executed on the state it was validated against. -/
theorem Inv.executed (inv : Inv env threads) (thread : Nat) {block : Block} {header txs : State World} {since : Nat}
    (waiting : threads.calls thread = .processNextBlockExecute block header txs since)
    (orderly : Orderly env threads (threads.calls thread)) :
    Inv env ⟨((holding .unique (executeBlock env block)).eval threads.state).2,
      Function.update threads.calls thread .idle, threads.executed ++ [⟨block, header, txs, threads.state⟩]⟩ := by
  have current := inv.current thread
  rw [waiting] at current orderly
  obtain ⟨_, passed, checked, seen⟩ := current
  obtain ⟨now, completable, height⟩ := orderly
  obtain ⟨headerSame, txsSame, grows⟩ := seen now
  have accepts : Accepts env threads.state block :=
    (accepts_iff inv.free).mpr ⟨(headerSame.validateHeader block).symm.trans passed, validateTxs_mono txsSame grows _ checked⟩
  have runs : ∃ after, runTransactions env block threads.state = (.ok (), after) := by
    rcases transactions_outcome block.txs with ⟨_, done⟩ | ⟨stuck, _⟩
    · exact done
    · exact absurd completable stuck
  obtain ⟨after, done⟩ := runs
  obtain ⟨mempool, completes, valid⟩ := valid_stored inv.free inv.mempool accepts done
  rw [eval_processNextBlock inv.free accepts] at completes
  rw [completes]
  have next : block.nHeight = threads.state.latest.nHeight + 1 := by
    have facts := ((accepts_iff inv.free).mp accepts).1
    simp only [validateHeader, Bool.and_eq_true, decide_eq_true_eq] at facts
    exact facts.1.1.1.1
  have higher : block.nHeight.toNat = threads.state.latest.nHeight.toNat + 1 := by
    rw [next, UInt64.toNat_add]
    exact Nat.mod_eq_of_lt height
  constructor
  case free => rfl
  case mempool => exact valid
  case current =>
    intro other
    simp only [Function.update_apply]
    split
    · trivial
    · exact (inv.current other).stale _
  case validated =>
    intro execution member
    rcases List.mem_append.mp member with old | new
    · exact inv.validated execution old
    · rw [List.mem_singleton.mp new]
      exact ⟨headerSame, txsSame, passed, checked⟩
  case heights =>
    refine List.pairwise_append.mpr ⟨inv.heights, List.pairwise_singleton _ _, fun early member late new => ?_⟩
    have below := inv.below early member
    rw [List.mem_singleton.mp new]
    show early.block.nHeight.toNat < block.nHeight.toNat
    omega
  case below =>
    intro execution member
    show execution.block.nHeight.toNat ≤ block.nHeight.toNat
    rcases List.mem_append.mp member with old | new
    · have below := inv.below execution old
      omega
    · rw [List.mem_singleton.mp new]

theorem eval_checkTxs {state : State World} (free : state.stateMutex = .free) (block : Block) :
    (checkTxs block).eval state = (checked (state.validateTxs block.txs)).eval state := by
  have back : withMutex (withMutex state .shared) .free = state := withMutex_free free
  have same : (withMutex state .shared).validateTxs block.txs = state.validateTxs block.txs := validateTxs_locked _ _
  unfold checkTxs
  rw [eval_holding free, Action.eval_bind, Action.eval_get]
  simp only [same]
  cases state.validateTxs block.txs with
  | ok verdict => simp [back]
  | error what => simp [back]

theorem Inv.advance (inv : Inv env threads) (thread : Nat) (orderly : Orderly env threads (threads.calls thread)) :
    Inv env (threads.advance env thread) := by
  have current := inv.current thread
  unfold Threads.advance
  cases waiting : threads.calls thread with
  | idle => exact inv.looked thread trivial
  | validateNextBlock block =>
    simp only [nextSection]
    split
    · exact inv.looked thread trivial
    · exact inv.looked thread trivial
  | validateNextBlockTxs block =>
    simp only [nextSection, eval_checkTxs inv.free]
    cases threads.state.validateTxs block.txs with
    | ok verdict => exact inv.looked thread trivial
    | error what => exact inv.looked thread trivial
  | processNextBlock block =>
    simp only [nextSection]
    split
    case isTrue passed => exact inv.looked thread ⟨le_refl _, passed, fun _ => SameChain.refl _⟩
    case isFalse => exact inv.looked thread trivial
  | processNextBlockTxs block header since =>
    rw [waiting] at current
    obtain ⟨before, passed, seen⟩ := current
    simp only [nextSection, eval_checkTxs inv.free]
    cases valid : threads.state.validateTxs block.txs with
    | error what => exact inv.looked thread trivial
    | ok verdict =>
      cases verdict with
      | false => exact inv.looked thread trivial
      | true => exact inv.looked thread ⟨before, passed, valid, fun now => ⟨seen now, SameChain.refl _, fun _ => id⟩⟩
  | processNextBlockExecute block header txs since => exact inv.executed thread waiting orderly
  | addTx tx =>
    simp only [nextSection, eval_validateTransaction inv.free]
    cases verdictIs : threads.state.validateTransactionInternal tx with
    | error what => exact inv.looked thread trivial
    | ok verdict =>
      cases verdict with
      | notInvalid => exact inv.looked thread ⟨le_refl _, fun _ => accepted_of_validate verdictIs⟩
      | invalidNonce => exact inv.looked thread trivial
      | invalidBalance => exact inv.looked thread trivial
  | addTxInsert tx since =>
    rw [waiting] at current orderly
    have added : ((holding .unique (addToMempool tx)).eval threads.state).2 =
        { threads.state with mempool := insertTx threads.state.mempool tx.hash tx } := by
      rw [eval_holding inv.free]
      exact @withMutex_free _ { threads.state with mempool := insertTx threads.state.mempool tx.hash tx } inv.free
    simp only [nextSection, added]
    exact inv.inserted thread (current.2 orderly)

/-- Two sections of a call whose block passes both checks. -/
theorem advance_checked {block : Block} {thread : Nat} (free : threads.state.stateMutex = .free)
    (header : threads.state.validateHeader env block = true) (txs : threads.state.validateTxs block.txs = .ok true)
    (arrived : threads.calls thread = .processNextBlock block) :
    (threads.advance env thread).advance env thread = ⟨threads.state, Function.update threads.calls thread
      (.processNextBlockExecute block threads.state threads.state threads.executed.length), threads.executed⟩ := by
  have checks : (checkTxs block).eval threads.state = (.ok true, threads.state) := by
    rw [eval_checkTxs free, txs]
    rfl
  have first : threads.advance env thread = ⟨threads.state, Function.update threads.calls thread
      (.processNextBlockTxs block threads.state threads.executed.length), threads.executed⟩ := by
    simp only [Threads.advance, arrived, nextSection, header, if_true, List.append_nil]
  rw [first]
  simp only [Threads.advance, Function.update_self, nextSection, checks, Function.update_idem, List.append_nil]

/-- The first section of a call whose transaction is valid. -/
theorem advance_validated {tx : TxBlock} {thread : Nat} (free : threads.state.stateMutex = .free)
    (valid : threads.state.validateTransactionInternal tx = .ok .notInvalid) (arrived : threads.calls thread = .addTx tx) :
    threads.advance env thread = ⟨threads.state, Function.update threads.calls thread (.addTxInsert tx threads.executed.length),
      threads.executed⟩ := by
  have checks : (validateTransaction tx).eval threads.state = (.ok .notInvalid, threads.state) := by
    rw [eval_validateTransaction free, valid]
    rfl
  simp only [Threads.advance, arrived, nextSection, checks, List.append_nil]

end Sections

theorem orderlyRun_inv {threads : Threads World} (run : OrderlyRun env threads) : Inv env threads := by
  induction run with
  | construct db world events rdposSeed storage =>
    refine ⟨rfl, ?_, fun _ => trivial, ?_, List.Pairwise.nil, ?_⟩
    all_goals exact fun _ member => by cases member
  | @arrive threads thread arrival before idle inv =>
    have kept := inv.looked thread (show Current env threads arrival.call by cases arrival <;> trivial)
    rwa [List.append_nil] at kept
  | advance thread before orderly inv => exact inv.advance thread orderly

/-- The requests that ask for the mutex while they hold it: a dry run of a creation that
carries value reads the nonce of its sender through the public getter. -/
def SelfLocking (env : Env World) (state : State World) : Method World → Prop
  | .operation (.ethCall callInfo) => ethCallRuns env callInfo state = true ∧ callInfo.value ≠ 0 ∧ callInfo.to = 0
  | .operation (.estimateGas callInfo) => EstimateRuns env callInfo state ∧ callInfo.value ≠ 0 ∧ callInfo.to = 0
  | _ => False

variable {α β : Type} {state : State World}

/-- Code that ends, by an answer or an exception. -/
def Ends (action : Act World α) (state : State World) : Prop := (action.eval state).1 ≠ .error .deadlock

theorem ends_dropped (ends : Ends action state) : Ends (do let _ ← action : Act World Unit) state := by
  unfold Ends at ends ⊢
  rw [Action.eval_bind]
  rcases seen : action.eval state with ⟨stop | value, after⟩
  · rw [seen] at ends
    exact fun same => ends (by cases same; rfl)
  · exact fun same => by cases same

theorem ends_holding {mode : Mutex} {body : Act World α} (free : state.stateMutex = .free)
    (ends : Ends body (withMutex state mode)) : Ends (holding mode body) state := by
  unfold Ends at ends ⊢
  rw [eval_holding free]
  rcases seen : body.eval (withMutex state mode) with ⟨(what | _) | value, after⟩
  · exact fun same => by cases same
  · rw [seen] at ends
    exact absurd rfl ends
  · exact fun same => by cases same

theorem ends_bind {first : Act World α} {next : α → Act World β} (early : ∀ state, Ends first state)
    (late : ∀ value state, Ends (next value) state) (state : State World) : Ends (first >>= next) state := by
  have before := early state
  unfold Ends at before ⊢
  rw [Action.eval_bind]
  rcases seen : first.eval state with ⟨stop | value, after⟩
  · rw [seen] at before
    exact fun same => before (by cases same; rfl)
  · exact late value after

theorem ends_answers (answers : Answers action) (state : State World) : Ends action state := by
  obtain ⟨result, seen, ended⟩ := answers state
  unfold Ends
  rwa [seen]

theorem ends_modify (update : State World → State World) (state : State World) :
    Ends (modify update : Act World PUnit) state := fun same => by cases same

theorem ends_ite {condition : Prop} [Decidable condition] {first second : Act World α} (positive : ∀ state, Ends first state)
    (negative : ∀ state, Ends second state) (state : State World) : Ends (if condition then first else second) state := by
  split
  · exact positive state
  · exact negative state

theorem answers_get : Answers (get : Act World (State World)) := fun _ => ⟨_, rfl, returned_ended _⟩

private theorem ends_revalidate (entries : List (Hash × TxBlock)) : ∀ state, Ends (revalidate entries : Act World Unit) state := by
  induction entries with
  | nil => exact ends_answers (answers_pure ())
  | cons entry rest ih =>
    refine ends_bind (ends_bind (ends_answers answers_get) fun _ => ?_) fun _ => ih
    exact ends_bind (ends_answers (answers_checked _)) fun _ => ends_ite (ends_modify _) (ends_answers (answers_pure ()))

theorem ends_executeBlock (env : Env World) (block : Block) : ∀ state, Ends (executeBlock env block) state := by
  have transactions : ∀ state, Ends (processTransactions env (blockContext env block) block.txs 0) state := by
    intro state
    unfold Ends
    rcases @transactions_outcome _ env (blockContext env block) block.txs 0 state with
      ⟨_, after, done⟩ | ⟨_, what, after, throws⟩
    · rw [done]
      exact returned_ended _
    · rw [throws]
      exact thrown_ended _
  refine ends_bind (ends_modify _) fun _ => ends_bind transactions fun _ => ends_bind ?_ fun _ => ends_bind ?_ fun _ => ?_
  · exact ends_ite (ends_answers (answers_raise _)) (ends_modify _)
  · exact ends_bind (ends_answers answers_get) fun _ => ends_bind (ends_modify _) fun _ => ends_revalidate _
  · exact ends_bind (ends_answers answers_get) fun _ => ends_ite (ends_answers (answers_raise _))
      (ends_ite (ends_answers (answers_raise _)) (ends_modify _))

private theorem ends_credit (env : Env World) (addr : Address) (amount : Uint256) (state : State World) :
    Ends (credit env addr amount) state := by
  unfold Ends
  rw [eval_credit]
  split
  · exact returned_ended _
  · exact thrown_ended _

private theorem ends_creditFirst (env : Env World) (addr : Address) (amount : Uint256) :
    ∀ state, Ends (creditFirst env addr amount) state := by
  refine ends_bind (ends_answers answers_get) fun state => ?_
  simp only
  split
  · exact ends_modify _
  · exact ends_bind (ends_modify _) fun _ => ends_answers (answers_raise _)

private theorem ends_validateNextBlock (free : state.stateMutex = .free) (block : Block) :
    Ends (validateNextBlock env block) state := by
  unfold Ends
  rw [eval_validateNextBlock free]
  split
  · split
    · exact returned_ended _
    · exact thrown_ended _
  · exact returned_ended _

private theorem ends_processNextBlock (free : state.stateMutex = .free) (block : Block) :
    Ends (processNextBlock env block) state := by
  by_cases accepts : Accepts env state block
  · unfold Ends
    rw [eval_processNextBlock free accepts]
    exact ends_holding free (ends_executeBlock env block _)
  · have verdict := @ends_validateNextBlock _ env state free block
    unfold Ends Accepts at *
    unfold processNextBlock
    rw [Action.eval_bind]
    rcases seen : (validateNextBlock env block).eval state with ⟨stop | value, after⟩
    · rw [seen] at verdict
      exact fun same => verdict (by cases same; rfl)
    · rw [seen] at accepts
      cases value with
      | true => exact absurd rfl accepts
      | false => exact thrown_ended _

private theorem ends_addTx (free : state.stateMutex = .free) (tx : TxBlock) : Ends (addTx tx) state := by
  unfold Ends
  rw [eval_addTx free]
  split
  · exact thrown_ended _
  · exact returned_ended _

/-- A dry run waits for itself exactly if it creates a contract with value. -/
private theorem dryExecute_waits_iff {callInfo : EthCallInfo} (taken : state.stateMutex ≠ .free) :
    ((dryExecute env callInfo).eval state).1 = .error .deadlock ↔ callInfo.value ≠ 0 ∧ callInfo.to = 0 := by
  by_cases creation : callInfo.value ≠ 0 ∧ callInfo.to = 0
  · refine iff_of_true ?_ creation
    rw [dryExecute_stops (dryTransfer_waits creation.1 creation.2 taken)]
  refine iff_of_false ?_ creation
  by_cases transferable : DryTransferable callInfo (reseeded state)
  · obtain ⟨moved, entry, _⟩ := @dryTransfer_ok _ env _ _ transferable
    obtain ⟨result, host, _, _, run⟩ := dryExecute_ok entry
    rw [run]
    exact returned_ended _
  unfold DryTransferable at transferable
  rw [not_or] at transferable
  obtain ⟨some, unpaid⟩ := transferable
  have call : callInfo.to ≠ 0 := fun create => creation ⟨some, create⟩
  by_cases covered : callInfo.value.toNat ≤ held (reseeded state) callInfo.from
  · have full : ¬ (callInfo.from = callInfo.to ∨ held (reseeded state) callInfo.to + callInfo.value.toNat < 2 ^ 256) :=
      fun room => unpaid ⟨call, covered, room⟩
    rw [not_or] at full
    obtain ⟨after, entry, _⟩ := @dryTransfer_full _ env _ _ some call covered full.1 full.2
    rw [dryExecute_stops entry]
    exact thrown_ended _
  · rw [dryExecute_stops (dryTransfer_short some call covered)]
    exact thrown_ended _

private theorem dryCall_ends_iff {callInfo : EthCallInfo} {runs : Prop} {start : State World}
    (call : DryCall env callInfo state runs start action) :
    Ends action state ↔ ¬ (runs ∧ callInfo.value ≠ 0 ∧ callInfo.to = 0) := by
  unfold Ends
  by_cases machine : runs
  · rcases run : (dryExecute env callInfo).eval (withMutex start .unique) with ⟨stop, after⟩
    have waits := @dryExecute_waits_iff _ env (withMutex start .unique) callInfo (by simp [withMutex])
    rw [run] at waits
    rcases call.executes machine run with ⟨stuck, ends⟩ | ⟨goesOn, result, ended, ends⟩
    · rw [ends]
      exact iff_of_false (not_not.mpr rfl) fun never => never ⟨machine, waits.mp stuck⟩
    · rw [ends]
      exact iff_of_true ended fun creation => goesOn (waits.mpr creation.2)
  · obtain ⟨result, after, ends, ended, _⟩ := call.answers machine
    rw [ends]
    exact iff_of_true ended fun creation => machine creation.1

private theorem ends_dropped_iff : Ends (do let _ ← action : Act World Unit) state ↔ Ends action state := by
  refine ⟨fun ends waits => ends ?_, ends_dropped⟩
  rw [Action.eval_bind]
  rcases seen : action.eval state with ⟨stop | value, after⟩
  · rw [seen] at waits
    cases waits
    rfl
  · rw [seen] at waits
    cases waits

theorem ends_reader {mode : Mutex} {body : Act World α} (free : state.stateMutex = .free) (answers : Answers body) :
    Ends (holding mode body) state := by
  refine ends_holding free ?_
  obtain ⟨result, seen, ended⟩ := answers (withMutex state mode)
  unfold Ends
  rwa [seen]

/-- Of all public methods only the two dry runs can wait for themselves. -/
theorem ends_iff (free : state.stateMutex = .free) (method : Method World) :
    Ends (method.perform env) state ↔ ¬ SelfLocking env state method := by
  have reader : ∀ {α : Type} {mode : Mutex} {body : State World → Act World α}, (∀ state, Answers (body state)) →
      Ends (do let _ ← holding mode (get >>= body) : Act World Unit) state :=
    fun answers => ends_dropped (ends_reader free (answers_bind answers_get answers))
  cases method with
  | operation chosen =>
    cases chosen with
    | processNextBlock block => exact iff_of_true (ends_processNextBlock free block) id
    | addTx tx => exact iff_of_true (ends_dropped (ends_addTx free tx)) id
    | addBalance addr =>
      exact iff_of_true (ends_holding free (ends_bind (ends_creditFirst env addr _) (fun _ => ends_credit env addr _) _)) id
    | ethCall callInfo => exact ends_dropped_iff.trans (dryCall_ends_iff (dryCall_ethCall free))
    | estimateGas callInfo => exact ends_dropped_iff.trans (dryCall_ends_iff (dryCall_estimateGas free))
    | getContractCode addr =>
      refine iff_of_true (ends_dropped (ends_holding free (ends_bind (ends_modify _) (fun _ => ?_) _))) id
      exact ends_bind (ends_answers answers_get) fun _ => ends_answers (answers_pure _)
    | getEvmContractAddress txHash =>
      refine iff_of_true (ends_dropped (ends_holding free (ends_bind (ends_modify _) (fun _ => ?_) _))) id
      exact ends_bind (ends_answers answers_get) fun _ => ends_answers (answers_pure _)
  | validateNextBlock block => exact iff_of_true (ends_dropped (ends_validateNextBlock free block)) id
  | validateTransaction tx => exact iff_of_true (reader fun _ => answers_checked _) id
  | getEvents query => exact iff_of_true (reader fun _ => answers_checked _) id
  | _ => exact iff_of_true (reader fun _ => answers_pure _) id

/-- In every orderly interleaving blocks are executed once and on what they were validated
against, and the mempool is valid; and from any reachable state a public method waits for
itself exactly if it is a dry run of a creation that carries value. -/
theorem orderly_interleaving_linearizes {threads : Threads World} (run : OrderlyRun env threads) :
    Linearized env threads ∧ ∀ (state : State World) (method : Method World), Reachable env state →
      (((method.perform env).eval state).1 ≠ .error .deadlock ↔ ¬ SelfLocking env state method) :=
  ⟨(orderlyRun_inv run).linearized, fun _ method reachable => ends_iff (reachable_free reachable) method⟩

/-- A machine that stops at once. -/
abbrev idleEnv : Env Unit := bareEnv fun _ _ => .done .success 0 []

/-- The fresh chain before any call. -/
def started : Threads Unit := ⟨freshState, fun _ => .idle, []⟩

/-- One thread processes a block while another one adds a transaction. -/
def received : Threads Unit :=
  ((⟨twoAccounts, fun _ => .idle, []⟩ : Threads Unit).arrive 0 (.processNextBlock (nextBlock [transfer 0 4]))).arrive 1 (.addTx otherTransfer)

/-- The transaction is looked at before the block and enters the mempool between the checks of the block and its execution. -/
def crossed : Threads Unit := (((received.advance idleEnv 1).advance idleEnv 0).advance idleEnv 0).advance idleEnv 1

theorem crossing_calls_linearize : OrderlyRun idleEnv (crossed.advance idleEnv 0) ∧
    (crossed.advance idleEnv 0).executed.map Execution.block = [nextBlock [transfer 0 4]] ∧
    (crossed.advance idleEnv 0).state.mempool = [(5, otherTransfer)] ∧ Linearized idleEnv (crossed.advance idleEnv 0) := by
  have header : twoAccounts.validateHeader idleEnv (nextBlock [transfer 0 4]) = true := by decide
  have txs : twoAccounts.validateTxs (nextBlock [transfer 0 4]).txs = .ok true := by decide
  have looked := @advance_validated Unit idleEnv received otherTransfer 1 rfl (by decide) rfl
  have checked := @advance_checked Unit idleEnv (received.advance idleEnv 1) (nextBlock [transfer 0 4]) 0 (by rw [looked]; rfl)
    (by rw [looked]; exact header) (by rw [looked]; exact txs) (by rw [looked]; rfl)
  have early : OrderlyRun idleEnv (received.advance idleEnv 1) :=
    .advance 1 (.arrive 1 _ (.arrive 0 _ (.construct _ _ _ _ _) rfl) rfl) trivial
  have middle : OrderlyRun idleEnv ((received.advance idleEnv 1).advance idleEnv 0) := by
    refine .advance 0 early ?_
    rw [looked]
    trivial
  have late : OrderlyRun idleEnv (((received.advance idleEnv 1).advance idleEnv 0).advance idleEnv 0) := by
    refine .advance 0 middle ?_
    rw [looked]
    simp only [Threads.advance, received, Threads.arrive, Arrival.call, Function.update_apply, nextSection]
    simp only [if_true, if_neg (show ¬ (0 : Nat) = 1 by decide), header]
    trivial
  have entered : OrderlyRun idleEnv crossed := by
    refine .advance 1 late ?_
    rw [checked, looked]
    exact rfl
  have executed : (crossed.advance idleEnv 0).executed.map Execution.block = [nextBlock [transfer 0 4]] := by
    unfold crossed
    rw [checked, looked]
    rfl
  have orderly : Orderly idleEnv crossed (crossed.calls 0) := by
    unfold crossed
    rw [checked, looked]
    exact ⟨rfl, completable_of_completes (by decide), by decide⟩
  refine ⟨.advance 0 entered orderly, executed, ?_, (orderly_interleaving_linearizes (.advance 0 entered orderly)).1⟩
  unfold crossed
  rw [checked, looked]
  decide

/-- Both threads check the block before either executes it, and then both do. -/
theorem same_block_executed_twice :
    (∃ threads : Threads Unit, Interleaved idleEnv threads ∧ ¬ Linearized idleEnv threads) ∧
    Reachable idleEnv freshState ∧
    (((Method.operation (.ethCall ⟨7, 0, 1000, 0, 1, 0, [], []⟩)).perform idleEnv).eval freshState).1 = .error .deadlock := by
  have header : freshState.validateHeader idleEnv (nextBlock [transfer 0 4]) = true := by decide
  have txs : freshState.validateTxs (nextBlock [transfer 0 4]).txs = .ok true := by decide
  refine ⟨?_, .construct _ _ _ _ _, by decide⟩
  have arrived : Interleaved idleEnv ((started.arrive 0 (.processNextBlock (nextBlock [transfer 0 4]))).arrive 1
      (.processNextBlock (nextBlock [transfer 0 4]))) := .arrive 1 _ (.arrive 0 _ (.construct _ _ _ _ _) rfl) rfl
  have first := Interleaved.advance 0 (Interleaved.advance 0 arrived)
  rw [advance_checked rfl header txs rfl] at first
  have second := Interleaved.advance 1 (Interleaved.advance 1 first)
  rw [advance_checked rfl header txs rfl] at second
  refine ⟨_, .advance 1 (.advance 0 second), fun linearized => ?_⟩
  have once := linearized.once
  simp only [Threads.advance, nextSection, Function.update_apply] at once
  exact (List.pairwise_cons.mp once).1 _ List.mem_cons_self rfl

end OrbiterSDK.Proofs.Interleavings
