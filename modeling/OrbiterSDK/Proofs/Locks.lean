import OrbiterSDK.Proofs.Frames
import OrbiterSDK.Proofs.Classic
import OrbiterSDK.Reachable

/-! The mutex and the mempool between two calls: whoever takes the mutex gives it
back, and every transaction in the mempool has a price that can be computed. -/

namespace OrbiterSDK.Proofs.Locks
open Lib State Action HostSteps Statements Frames Classic

variable {World : Type} {α β : Type} {state : State World} {tx : TxBlock}

def withMutex (state : State World) (mutex : Mutex) : State World := { state with stateMutex := mutex }

theorem withMutex_free (free : state.stateMutex = .free) : withMutex state .free = state := by
  rw [withMutex, ← free]

/-- The lock is held for the body alone, whether it returns or throws. -/
theorem eval_holding {mode : Mutex} {body : Act World α} (free : state.stateMutex = .free) :
    (holding mode body).eval state =
      match body.eval (withMutex state mode) with
      | (.ok value, after) => (.ok value, withMutex after .free)
      | (.error (.exception what), after) => (.error (.exception what), withMutex after .free)
      | (.error .deadlock, after) => (.error .deadlock, after) := by
  have taken : (acquire mode).eval state = (.ok (), withMutex state mode) := by
    unfold acquire
    rw [Action.eval_bind, Action.eval_get]
    simp only [free, if_true]
    rfl
  unfold holding
  rw [eval_seq_ok taken]
  rcases seen : body.eval (withMutex state mode) with ⟨(what | _) | value, after⟩
  · rw [eval_seq_error]
    rw [eval_catching_exception seen]
    rfl
  · rw [eval_seq_error]
    rw [catching, Action.eval_tryCatch, seen]
    rfl
  · rw [eval_seq_ok (eval_catching_ok seen)]
    rfl

theorem eval_holding_held {mode : Mutex} {body : Act World α} (taken : state.stateMutex ≠ .free) :
    (holding mode body).eval state = (.error .deadlock, state) := by
  have waits : (acquire mode).eval state = (.error .deadlock, state) := by
    unfold acquire
    rw [Action.eval_bind, Action.eval_get]
    simp only [taken, if_false]
    rfl
  exact eval_seq_error waits

/-- Code that starts and ends without the mutex, unless it waits for itself. -/
def Releases (action : Act World α) : Prop :=
  ∀ {state : State World}, state.stateMutex = .free → (action.eval state).1 ≠ .error .deadlock →
    (action.eval state).2.stateMutex = .free

theorem releases_holding (mode : Mutex) (body : Act World α) : Releases (holding mode body) := by
  intro state free ended
  rw [eval_holding free] at ended ⊢
  generalize body.eval (withMutex state mode) = outcome at ended ⊢
  rcases outcome with ⟨(what | _) | value, after⟩
  · rfl
  · exact absurd rfl ended
  · rfl

private theorem releases_pure (value : α) : Releases (pure value : Act World α) := fun free _ => free

private theorem releases_raise (what : Exception) : Releases (raise what : Act World α) := fun free _ => free

private theorem releases_get : Releases (get : Act World (State World)) := fun free _ => free

theorem releases_bind {first : Act World α} {next : α → Act World β} (early : Releases first)
    (late : ∀ value, Releases (next value)) : Releases (first >>= next) := by
  intro state free ended
  rw [Action.eval_bind] at ended ⊢
  rcases seen : first.eval state with ⟨error | value, after⟩
  · rw [seen] at ended
    have between := early free
    rw [seen] at between
    refine between fun same => ended ?_
    cases same
    rfl
  · have between := early free
    rw [seen] at ended between
    exact late value (between fun same => by cases same) ended

theorem releases_ite {condition : Prop} [Decidable condition] {first second : Act World α} (positive : Releases first)
    (negative : Releases second) : Releases (if condition then first else second) := by
  split
  · exact positive
  · exact negative

theorem releases_perform (env : Env World) (operation : Operation) : Releases (perform env operation) := by
  cases operation with
  | processNextBlock block =>
    refine releases_bind ?_ fun accepted => releases_ite (releases_raise _) (releases_holding _ _)
    exact releases_bind releases_get fun _ => releases_ite (releases_pure _) (releases_holding _ _)
  | addTx tx =>
    refine releases_bind (releases_bind (releases_holding _ _) fun _ => releases_ite (releases_pure _) ?_) fun _ =>
      releases_pure _
    exact releases_bind (releases_holding _ _) fun _ => releases_pure _
  | addBalance addr => exact releases_holding _ _
  | ethCall callInfo =>
    refine releases_bind (releases_bind (releases_holding _ _) fun path => ?_) fun _ => releases_pure _
    cases path with
    | answer bytes => exact releases_pure _
    | evm => exact releases_holding _ _
    | nothing => exact releases_pure _
  | estimateGas callInfo =>
    refine releases_bind (releases_bind (releases_holding _ _) fun path => ?_) fun _ => releases_pure _
    cases path with
    | some answer => exact releases_pure _
    | none => exact releases_holding _ _
  | getContractCode addr => exact releases_bind (releases_holding _ _) fun _ => releases_pure _
  | getEvmContractAddress txHash => exact releases_bind (releases_holding _ _) fun _ => releases_pure _

theorem reachable_free {env : Env World} (reachable : Reachable env state) :
    state.stateMutex = .free := by
  induction reachable with
  | construct => rfl
  | step operation _ performed ended free =>
    have released := releases_perform env operation free
    rw [performed] at released
    exact released ended

/-- The value and the greatest fee of a transaction have a sum that fits. -/
def Priced (tx : TxBlock) : Prop := tx.value.toNat + feeLimit tx < 2 ^ 256

theorem feeLimit_eq {fees : Uint256} (product : Uint256.mul tx.gasLimit tx.maxFeePerGas = .ok fees) :
    fees.toNat = feeLimit tx := Uint256.mul_eq_ok.mp product

theorem validateAgainstAccounts_eq (priced : Priced tx) :
    state.validateAgainstAccounts tx =
      if tx.from ∉ state.evmHost.accounts.keys then .ok .invalidBalance
      else if held state tx.from < tx.value.toNat + feeLimit tx then .ok .invalidBalance
      else if (state.nonceOf tx.from).toNat ≠ tx.nonce.toNat then .ok .invalidNonce
      else .ok .notInvalid := by
  unfold Priced at priced
  have product : Uint256.mul tx.gasLimit tx.maxFeePerGas = .ok (BitVec.ofNat 256 (feeLimit tx)) := by
    rw [Uint256.mul, if_pos (show tx.gasLimit.toNat * tx.maxFeePerGas.toNat < 2 ^ 256 from by unfold feeLimit at priced; omega)]
    rfl
  have feeNat := feeLimit_eq product
  have total : Uint256.add tx.value (BitVec.ofNat 256 (feeLimit tx)) = .ok (BitVec.ofNat 256 (tx.value.toNat + feeLimit tx)) := by
    rw [Uint256.add, feeNat, if_pos priced]
  have totalNat : (BitVec.ofNat 256 (tx.value.toNat + feeLimit tx)).toNat = tx.value.toNat + feeLimit tx := by
    rw [BitVec.toNat_ofNat, Nat.mod_eq_of_lt priced]
  unfold validateAgainstAccounts
  by_cases present : tx.from ∈ state.evmHost.accounts.keys
  · have found : state.evmHost.accounts.find tx.from = some (state.evmHost.account tx.from) := if_pos present
    have short : (state.evmHost.account tx.from).balance.second < BitVec.ofNat 256 (tx.value.toNat + feeLimit tx) ↔
        held state tx.from < tx.value.toNat + feeLimit tx := by
      rw [BitVec.lt_def, totalNat]
      rfl
    simp only [found, product, total, bind, Except.bind, pure, Except.pure, short, present, not_true, if_false]
    rfl
  · have missing : state.evmHost.accounts.find tx.from = none := if_neg present
    simp only [missing, present, not_false_eq_true, if_true]

theorem priced_of_validate
    (valid : state.validateAgainstAccounts tx = .ok .notInvalid) : Priced tx := by
  unfold validateAgainstAccounts at valid
  split at valid
  · cases valid
  · cases product : Uint256.mul tx.gasLimit tx.maxFeePerGas with
    | error what => simp [product, bind, Except.bind] at valid
    | ok fees =>
      cases total : Uint256.add tx.value fees with
      | error what => simp [product, total, bind, Except.bind] at valid
      | ok sum =>
        have sumNat := Uint256.add_eq_ok.mp total
        rw [feeLimit_eq product] at sumNat
        unfold Priced
        rw [← sumNat]
        exact sum.isLt

/-- When validation against the accounts accepts a transaction. -/
theorem validateAgainstAccounts_iff :
    state.validateAgainstAccounts tx = .ok .notInvalid ↔ tx.from ∈ state.evmHost.accounts.keys ∧ Covered tx state ∧
      (state.nonceOf tx.from).toNat = tx.nonce.toNat := by
  constructor
  · intro valid
    rw [validateAgainstAccounts_eq (priced_of_validate valid)] at valid
    split at valid
    · cases valid
    case isFalse present =>
      split at valid
      · cases valid
      case isFalse funded =>
        split at valid
        · cases valid
        case isFalse nonce => exact ⟨not_not.mp present, Nat.not_lt.mp funded, not_not.mp nonce⟩
  · rintro ⟨present, covered, nonce⟩
    have priced : Priced tx := lt_of_le_of_lt covered (held_lt state tx.from)
    rw [validateAgainstAccounts_eq priced, if_neg (not_not.mpr present), if_neg (Nat.not_lt.mpr covered),
      if_neg (not_not.mpr nonce)]

/-- Every transaction that waits has a price. -/
def PricedMempool (mempool : List (Hash × TxBlock)) : Prop := ∀ entry ∈ mempool, Priced entry.2

theorem pricedMempool_insertTx {mempool : List (Hash × TxBlock)} {hash : Hash}
    (priced : PricedMempool mempool) (new : Priced tx) : PricedMempool (insertTx mempool hash tx) := by
  unfold insertTx
  split
  · exact priced
  · intro entry member
    rcases List.mem_append.mp member with old | added
    · exact priced entry old
    · rw [List.mem_singleton.mp added]
      exact new

theorem validate_returns (state : State World) (priced : Priced tx) :
    ∃ verdict, state.validateTransactionInternal tx = .ok verdict := by
  unfold validateTransactionInternal
  split
  · exact ⟨_, rfl⟩
  · rw [validateAgainstAccounts_eq priced]
    split_ifs
    all_goals exact ⟨_, rfl⟩

/-- Putting priced transactions back never throws, and only the mempool changes. -/
theorem revalidate_returns (entries : List (Hash × TxBlock)) : ∀ state : State World, PricedMempool entries →
    ∃ mempool, (revalidate entries).eval state = (.ok (), { state with mempool }) ∧
      (PricedMempool state.mempool → PricedMempool mempool) := by
  induction entries with
  | nil => exact fun state _ => ⟨state.mempool, rfl, id⟩
  | cons entry rest ih =>
    intro state priced
    rcases entry with ⟨hash, tx⟩
    have this : Priced tx := priced (hash, tx) List.mem_cons_self
    have others : PricedMempool rest := fun other member => priced other (List.mem_cons_of_mem _ member)
    obtain ⟨verdict, valid⟩ := validate_returns state this
    have one : ∃ mempool, (revalidateOne hash tx).eval state = (.ok (), { state with mempool }) ∧
        (PricedMempool state.mempool → PricedMempool mempool) := by
      unfold revalidateOne
      rw [Action.eval_bind, Action.eval_get]
      simp only [valid]
      rw [eval_seq_ok (eval_checked_ok _ _)]
      by_cases keep : verdict = .notInvalid
      · exact ⟨_, by rw [if_pos keep]; rfl, fun old => pricedMempool_insertTx old this⟩
      · exact ⟨_, by rw [if_neg keep]; rfl, id⟩
    obtain ⟨mempool, first, kept⟩ := one
    obtain ⟨final, last, keptToo⟩ := ih { state with mempool } others
    exact ⟨final, by rw [revalidate, eval_seq_ok first, last], keptToo ∘ kept⟩

theorem refreshMempool_returns (block : Block) (priced : PricedMempool state.mempool) :
    ∃ mempool, (refreshMempool block).eval state = (.ok (), { state with mempool }) ∧ PricedMempool mempool := by
  unfold refreshMempool
  rw [Action.eval_bind, Action.eval_get]
  have filtered : PricedMempool (state.mempool.filter fun entry => !block.txs.any (·.hash = entry.1)) :=
    fun entry member => priced entry (List.mem_filter.mp member).1
  obtain ⟨mempool, done, kept⟩ := revalidate_returns _ { state with mempool := [] } filtered
  refine ⟨mempool, ?_, kept fun entry member => by cases member⟩
  simp only
  rw [eval_seq_ok (Action.eval_modify _ _), done]

/-- Guarantees that such calls give. -/
structure Quiet (step : State World → State World → Prop) : Prop extends Chains step where
  host : ∀ (state : State World) (host : EVMHost), HostStep state.evmHost host → step state { state with evmHost := host }
  mutex : ∀ (state : State World) (mutex : Mutex), step state { state with stateMutex := mutex }
  manager : ∀ (state : State World) (manager : ContractManager World), manager.eventManager.tempEvents = [] →
    step state { state with contractManager := manager }

/-- However the dry run of a contract ends, the events that wait are dropped, and besides only variables change. -/
theorem validateCallContractWithTx_manager (contracts : Contracts World) (chainOwner : Address) (manager : ContractManager World)
    (accounts : Table Address EVMAccount) (callInfo : EthCallInfo) :
    ∃ world, (manager.validateCallContractWithTx contracts chainOwner accounts callInfo).2 =
      { manager with world, eventManager := manager.eventManager.revertEvents } := by
  unfold ContractManager.validateCallContractWithTx
  simp only
  split
  · exact ⟨_, rfl⟩
  · split
    · exact ⟨_, rfl⟩
    · exact ⟨_, rfl⟩

section Calls
variable {step : State World → State World → Prop} (quiet : Quiet step) (env : Env World) (callInfo : EthCallInfo)
include quiet

private theorem follows_hosted {update : EVMHost → EVMHost} (allowed : ∀ host, HostStep host (update host)) :
    Follows step (onHost update : Act World Unit) :=
  fun state => quiet.host state _ (allowed state.evmHost)

private theorem follows_beside {update : EVMHost → EVMHost} (allowed : ∀ host, Beside host (update host)) :
    Follows step (onHost update : Act World Unit) :=
  follows_hosted quiet fun host => .ofBeside (allowed host)

theorem follows_holding {mode : Mutex} {body : Act World α} (kept : Follows step body) : Follows step (holding mode body) := by
  have released : Follows step (release : Act World Unit) := fun state => quiet.mutex state .free
  have acquired : Follows step (acquire mode : Act World Unit) :=
    quiet.bind quiet.get fun _ => follows_ite (fun _ state => quiet.mutex state mode) fun _ => quiet.throw _
  refine quiet.bind acquired fun _ => quiet.bind (follows_catching quiet.toChains kept fun _ => ?_) fun _ => ?_
  · exact quiet.bind released fun _ => quiet.throw _
  · exact quiet.bind released fun _ => quiet.pure _

private theorem follows_creditAny (addr : Address) (amount : Uint256) : Follows step (credit env addr amount) := by
  refine quiet.bind quiet.get fun state => ?_
  dsimp only
  split
  · exact follows_beside quiet fun host => beside_setBalance host _ _
  · exact quiet.bind (follows_beside quiet fun host => beside_setBalance host _ _) fun _ => quiet.throw _

private theorem follows_debitAny (addr : Address) (amount : Uint256) : Follows step (debit env addr amount) := by
  refine quiet.bind quiet.get fun state => ?_
  dsimp only
  split
  · exact follows_beside quiet fun host => beside_setBalance host _ _
  · exact quiet.bind (follows_beside quiet fun host => beside_setBalance host _ _) fun _ => quiet.throw _

theorem follows_addBalance (addr : Address) : Follows step (addBalance env addr) := by
  refine follows_holding quiet (quiet.bind ?_ fun _ => follows_creditAny quiet env _ _)
  refine quiet.bind quiet.get fun state => ?_
  dsimp only
  split
  · exact follows_beside quiet fun host => beside_setFirstBalance host _ _
  · exact quiet.bind (follows_beside quiet fun host => beside_setFirstBalance host _ _) fun _ => quiet.throw _

private theorem follows_resetRandomGen : Follows step (resetRandomGen : Act World Unit) :=
  fun state => quiet.host state _ (.ofBeside { Beside.refl state.evmHost with })

theorem follows_dryTransfer : Follows step (dryTransfer env callInfo) := by
  refine follows_ite (fun _ => quiet.pure _) fun _ => quiet.bind ?_ fun _ => ?_
  · refine follows_ite (fun _ => ?_) fun _ => quiet.pure _
    exact quiet.bind (follows_holding quiet (quiet.bind quiet.get fun _ => quiet.pure _)) fun _ => quiet.pure _
  · exact quiet.bind (follows_debitAny quiet env _ _) fun _ => quiet.bind (follows_creditAny quiet env _ _) fun _ =>
      quiet.bind (follows_beside quiet fun host => { Beside.refl host with }) fun _ =>
        follows_beside quiet fun host => { Beside.refl host with }

private theorem follows_machine : Follows step (hostExecute env callInfo) := by
  intro state
  have ran := quiet.host state _ (.execute env.vm callInfo state.evmHost)
  have value : Follows step (checked (state.evmHost.execute env.vm callInfo).1 : Act World _) := follows_checked quiet.toChains _
  exact quiet.trans ran (value _)

theorem follows_dryExecute : Follows step (dryExecute env callInfo) := by
  refine quiet.bind (follows_resetRandomGen quiet) fun _ => quiet.bind (follows_dryTransfer quiet env callInfo) fun _ => ?_
  refine quiet.bind quiet.get fun _ => quiet.bind (follows_beside quiet (beside_setTxContext _ _ _ _ _ _)) fun _ =>
    quiet.bind ?_ fun _ => ?_
  · exact follows_machine quiet env (cappedCall callInfo)
  · exact quiet.bind (follows_hosted quiet .revert) fun _ => quiet.bind (follows_hosted quiet .revertCode) fun _ =>
      quiet.bind (follows_beside quiet beside_revertBalance) fun _ => quiet.pure _

theorem follows_ethCall : Follows step (ethCall env callInfo) := by
  refine quiet.bind (follows_holding quiet ?_) fun path => ?_
  · refine quiet.bind quiet.get fun _ => follows_ite (fun _ => ?_) fun _ => ?_
    · exact quiet.bind (follows_resetRandomGen quiet) fun _ => quiet.bind (follows_checked quiet.toChains _) fun _ =>
        quiet.pure _
    · exact follows_ite (fun _ => quiet.pure _) fun _ => quiet.pure _
  · cases path with
    | answer bytes => exact quiet.pure _
    | evm =>
      exact follows_holding quiet (quiet.bind (follows_dryExecute quiet env callInfo) fun _ =>
        follows_ite (fun _ => quiet.throw _) fun _ => quiet.pure _)
    | nothing => exact quiet.pure _

private theorem follows_dryCallContract : Follows step (dryCallContract env callInfo) := by
  refine quiet.bind quiet.get fun state => follows_ite (fun _ => ?_) fun _ => quiet.pure _
  refine quiet.bind (follows_resetRandomGen quiet) fun _ => quiet.bind (fun later => ?_) fun _ =>
    quiet.bind (follows_checked quiet.toChains _) fun _ => quiet.pure _
  obtain ⟨world, cleared⟩ := validateCallContractWithTx_manager env.contracts env.chainOwner state.contractManager
    state.evmHost.accounts callInfo
  exact quiet.manager later _ (congrArg (·.eventManager.tempEvents) cleared)

theorem follows_estimateGas : Follows step (estimateGas env callInfo) := by
  refine quiet.bind (follows_holding quiet ?_) fun path => ?_
  · refine quiet.bind quiet.get fun _ => quiet.bind (follows_checked quiet.toChains _) fun _ =>
      follows_ite (fun _ => quiet.pure _) fun _ => ?_
    exact quiet.bind (follows_dryCallContract quiet env callInfo) fun _ => quiet.bind quiet.get fun _ =>
      follows_ite (fun _ => quiet.pure _) fun _ => quiet.pure _
  · cases path with
    | some answer => exact quiet.pure _
    | none =>
      refine follows_holding quiet (quiet.bind (follows_dryExecute quiet env callInfo) fun _ =>
        follows_ite (fun _ => quiet.throw _) fun _ => ?_)
      exact follows_ite (fun _ => quiet.throw _) fun _ => quiet.bind (follows_checked quiet.toChains _) fun _ =>
        follows_checked quiet.toChains _

private theorem follows_getContractCode (addr : Address) : Follows step (getContractCode addr : Act World Bytes) :=
  follows_holding quiet (quiet.bind (follows_beside quiet fun host => beside_touch host addr) fun _ => quiet.bind quiet.get fun _ => quiet.pure _)

theorem follows_getEvmContractAddress (txHash : Hash) : Follows step (getEvmContractAddress txHash : Act World Address) :=
  follows_holding quiet (quiet.bind (follows_hosted quiet fun host => .lookup host txHash) fun _ => quiet.bind quiet.get fun _ => quiet.pure _)

theorem follows_validateNextBlock (block : Block) : Follows step (validateNextBlock env block) :=
  quiet.bind quiet.get fun _ => follows_ite (fun _ => quiet.pure _) fun _ =>
    follows_holding quiet (quiet.bind quiet.get fun _ => follows_checked quiet.toChains _)

/-- Only the execution of a block and the mempool need a closer look. -/
theorem follows_perform (operation : Operation) (blocks : ∀ block, Follows step (executeBlock env block))
    (enters : ∀ tx, Follows step (addTx tx : Act World TxInvalid)) : Follows step (perform env operation) := by
  have dropped : ∀ {α : Type} {action : Act World α}, Follows step action → Follows step (do let _ ← action : Act World Unit) :=
    fun kept => quiet.bind kept fun _ => quiet.pure _
  cases operation with
  | processNextBlock block =>
    exact quiet.bind (follows_validateNextBlock quiet env block) fun _ => follows_ite (fun _ => quiet.throw _) fun _ =>
      follows_holding quiet (blocks block)
  | addTx tx => exact dropped (enters tx)
  | addBalance addr => exact follows_addBalance quiet env addr
  | ethCall callInfo => exact dropped (follows_ethCall quiet env callInfo)
  | estimateGas callInfo => exact dropped (follows_estimateGas quiet env callInfo)
  | getContractCode addr => exact dropped (follows_getContractCode quiet addr)
  | getEvmContractAddress txHash => exact dropped (follows_getEvmContractAddress quiet txHash)

end Calls

theorem reachable_invariant {inv : State World → Prop} {env : Env World}
    (quiet : Quiet fun before after : State World => inv before → inv after)
    (start : ∀ db world events rdposSeed storage, inv (construct db world events rdposSeed storage))
    (blocks : ∀ block, Preserves inv (executeBlock env block)) (enters : ∀ tx, Preserves inv (addTx tx : Act World TxInvalid))
    (reachable : Reachable env state) : inv state := by
  induction reachable with
  | construct db world events rdposSeed storage => exact start db world events rdposSeed storage
  | @step before after result operation reached performed ended held =>
    rw [show after = ((perform env operation).eval before).2 by rw [performed]]
    exact follows_perform quiet env operation blocks enters before held

variable {state : State World} {tx : TxBlock}

theorem eval_validateTransaction (free : state.stateMutex = .free) :
    (validateTransaction tx).eval state = (checked (state.validateTransactionInternal tx)).eval state := by
  unfold validateTransaction
  rw [eval_holding free, Action.eval_bind, Action.eval_get]
  have back : withMutex (withMutex state .shared) .free = state := withMutex_free free
  have same : (withMutex state .shared).validateTransactionInternal tx = state.validateTransactionInternal tx := rfl
  simp only [same]
  cases state.validateTransactionInternal tx with
  | ok verdict => simp [back]
  | error what => simp [back]

/-- A transaction is added exactly if it is found valid. -/
theorem eval_addTx (free : state.stateMutex = .free) : (addTx tx).eval state =
    match state.validateTransactionInternal tx with
    | .error what => (.error (.exception what), state)
    | .ok verdict => (.ok verdict,
        if verdict = .notInvalid then { state with mempool := insertTx state.mempool tx.hash tx } else state) := by
  unfold addTx
  rw [Action.eval_bind, eval_validateTransaction free]
  cases state.validateTransactionInternal tx with
  | error what => rfl
  | ok verdict =>
    simp only [eval_checked_ok]
    by_cases valid : verdict = .notInvalid
    · rw [if_neg (not_not.mpr valid), if_pos valid]
      have added : (holding .unique (addToMempool tx)).eval state =
          (.ok (), { state with mempool := insertTx state.mempool tx.hash tx }) := by
        have back : withMutex { state with mempool := insertTx state.mempool tx.hash tx } .free =
          { state with mempool := insertTx state.mempool tx.hash tx } := withMutex_free free
        rw [eval_holding free]
        exact congrArg (Prod.mk _) back
      rw [eval_seq_ok added]
      rfl
    · rw [if_pos valid, if_neg valid]
      rfl

theorem insertTx_of_mem {mempool : List (Hash × TxBlock)} {hash : Hash} (present : mempool.any (·.1 = hash) = true) :
    insertTx mempool hash tx = mempool := if_pos present

theorem pricedMempool_addTx (free : state.stateMutex = .free) (priced : PricedMempool state.mempool) :
    PricedMempool ((addTx tx).eval state).2.mempool := by
  rw [eval_addTx free]
  cases verdictIs : state.validateTransactionInternal tx with
  | error what => exact priced
  | ok verdict =>
    by_cases valid : verdict = .notInvalid
    · simp only [if_pos valid]
      unfold validateTransactionInternal at verdictIs
      split at verdictIs
      case isTrue present => rwa [insertTx_of_mem present]
      case isFalse => exact pricedMempool_insertTx priced (priced_of_validate (valid ▸ verdictIs))
    · simp only [if_neg valid]
      exact priced

end OrbiterSDK.Proofs.Locks
