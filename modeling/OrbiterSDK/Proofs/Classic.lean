import OrbiterSDK.Proofs.Transaction

/-! The ways through the branch of `processTransaction` without the virtual machine. -/

namespace OrbiterSDK.Proofs.Classic
open Lib State Statements Transaction

variable {World : Type} {env : Env World} {tx : TxBlock} {txIndex : UInt64} {state : State World}

/-- The fee for all of the gas that a transaction may use. -/
def feeLimit (tx : TxBlock) : Nat := tx.gasLimit.toNat * tx.maxFeePerGas.toNat

/-- The sender holds the value and the fee. -/
def Covered (tx : TxBlock) (state : State World) : Prop := tx.value.toNat + feeLimit tx ≤ held state tx.from

/-- The receiver can take the value, once the sender has paid it. -/
def Receivable (tx : TxBlock) (state : State World) : Prop :=
  tx.from = tx.to ∨ held state tx.to + tx.value.toNat < 2 ^ 256

/-- The sender has paid value and fee. -/
def spent (tx : TxBlock) (state : State World) : State World :=
  setHeld state tx.from (BitVec.ofNat 256 (held state tx.from - (tx.value.toNat + feeLimit tx)))

theorem held_spent (covered : Covered tx state) (addr : Address) :
    held (spent tx state) addr + onlyAt tx.from addr (tx.value.toNat + feeLimit tx) = held state addr := by
  have bound := held_lt state tx.from
  unfold Covered at covered
  rw [spent, held_setHeld, BitVec.toNat_ofNat, Nat.mod_eq_of_lt (by omega), onlyAt]
  split
  case isTrue same =>
    rw [same]
    omega
  case isFalse => rfl

private theorem eval_classicTransfer (fits : tx.value.toNat + feeLimit tx < 2 ^ 256) :
    (classicTransfer env tx).eval state = (debit env tx.from (BitVec.ofNat 256 (tx.value.toNat + feeLimit tx)) >>= fun _ =>
      credit env tx.to tx.value).eval state := by
  have feeFits : feeLimit tx < 2 ^ 256 := by omega
  have feeNat : (BitVec.ofNat 256 (feeLimit tx)).toNat = feeLimit tx := by
    rw [BitVec.toNat_ofNat, Nat.mod_eq_of_lt feeFits]
  unfold classicTransfer
  rw [Uint256.mul, if_pos (show tx.gasLimit.toNat * tx.maxFeePerGas.toNat < 2 ^ 256 from feeFits),
    eval_seq_ok (eval_checked_ok _ _), Uint256.add,
    show (BitVec.ofNat 256 (tx.gasLimit.toNat * tx.maxFeePerGas.toNat)).toNat = feeLimit tx from feeNat, if_pos fits,
    eval_seq_ok (eval_checked_ok _ _)]

/-- Value and fee together do not fit, and nothing has happened. -/
theorem classicTransfer_wide (wide : ¬ tx.value.toNat + feeLimit tx < 2 ^ 256) :
    ∃ what, (classicTransfer env tx).eval state = (.error (.exception what), state) := by
  unfold classicTransfer
  by_cases feeFits : feeLimit tx < 2 ^ 256
  · have feeNat : (BitVec.ofNat 256 (feeLimit tx)).toNat = feeLimit tx := by
      rw [BitVec.toNat_ofNat, Nat.mod_eq_of_lt feeFits]
    refine ⟨Uint256.overflow, ?_⟩
    rw [Uint256.mul, if_pos (show tx.gasLimit.toNat * tx.maxFeePerGas.toNat < 2 ^ 256 from feeFits),
      eval_seq_ok (eval_checked_ok _ _), Uint256.add,
      show (BitVec.ofNat 256 (tx.gasLimit.toNat * tx.maxFeePerGas.toNat)).toNat = feeLimit tx from feeNat, if_neg wide,
      eval_seq_error (eval_checked_error _ _)]
  · refine ⟨Uint256.overflow, ?_⟩
    rw [Uint256.mul, if_neg (show ¬ tx.gasLimit.toNat * tx.maxFeePerGas.toNat < 2 ^ 256 from feeFits),
      eval_seq_error (eval_checked_error _ _)]

private theorem total_toNat (fits : tx.value.toNat + feeLimit tx < 2 ^ 256) :
    (BitVec.ofNat 256 (tx.value.toNat + feeLimit tx)).toNat = tx.value.toNat + feeLimit tx := by
  rw [BitVec.toNat_ofNat, Nat.mod_eq_of_lt fits]

theorem classicTransfer_short (fits : tx.value.toNat + feeLimit tx < 2 ^ 256) (short : ¬ Covered tx state) :
    (classicTransfer env tx).eval state = (.error (.exception Uint256.negative), setHeld state tx.from
      (env.underflowed (state.balanceOf tx.from) (BitVec.ofNat 256 (tx.value.toNat + feeLimit tx)))) := by
  rw [eval_classicTransfer fits, eval_seq_error (debit_error env _)]
  rwa [total_toNat fits]

private theorem debit_covered (covered : Covered tx state) :
    (debit env tx.from (BitVec.ofNat 256 (tx.value.toNat + feeLimit tx))).eval state = (.ok (), spent tx state) := by
  have fits := lt_of_le_of_lt covered (held_lt state tx.from)
  rw [eval_debit, total_toNat fits, if_pos (show tx.value.toNat + feeLimit tx ≤ held state tx.from from covered)]
  rfl

theorem held_spent_receiver (covered : Covered tx state) (apart : tx.from ≠ tx.to) :
    held (spent tx state) tx.to = held state tx.to := by
  have same := held_spent covered tx.to
  rwa [onlyAt_of_ne (Ne.symm apart), Nat.add_zero] at same

theorem classicTransfer_full (covered : Covered tx state) (full : ¬ Receivable tx state) :
    (classicTransfer env tx).eval state = (.error (.exception Uint256.overflow), setHeld (spent tx state) tx.to
      (env.overflowed ((spent tx state).balanceOf tx.to) tx.value)) := by
  unfold Receivable at full
  push Not at full
  have fits := lt_of_le_of_lt covered (held_lt state tx.from)
  rw [eval_classicTransfer fits, eval_seq_ok (debit_covered covered), credit_error]
  rw [held_spent_receiver covered full.1]
  exact Nat.not_lt.mpr full.2

/-- Value and fee have been paid and the value received. -/
structure Delivered (tx : TxBlock) (before after : State World) : Prop where
  paid : Paid before after
  held : ∀ addr, held after addr + onlyAt tx.from addr (tx.value.toNat + feeLimit tx) =
    held before addr + onlyAt tx.to addr tx.value.toNat
  accessed : after.evmHost.accessedAccountsBalances = before.evmHost.accessedAccountsBalances

theorem classicTransfer_ok (covered : Covered tx state) (receivable : Receivable tx state) :
    ∃ after, (classicTransfer env tx).eval state = (.ok (), after) ∧ Delivered tx state after := by
  have fits := lt_of_le_of_lt covered (held_lt state tx.from)
  have room : held (spent tx state) tx.to + tx.value.toNat < 2 ^ 256 := by
    rcases receivable with same | room
    · have atSender := held_spent covered tx.from
      rw [onlyAt_self] at atSender
      rw [← same]
      have bound := held_lt state tx.from
      omega
    · have atReceiver := held_spent covered tx.to
      omega
  obtain ⟨credited, creditEval, creditState, creditHeld⟩ := credit_ok env room
  refine ⟨credited, ?_, ?_, fun addr => ?_, ?_⟩
  · rw [eval_classicTransfer fits, eval_seq_ok (debit_covered covered), creditEval]
  · rw [creditState]
    exact (paid_setHeld _ _ _).trans (paid_setHeld _ _ _)
  · have before := held_spent covered addr
    rw [creditHeld]
    by_cases receiver : addr = tx.to
    · rw [if_pos receiver, receiver, onlyAt_self]
      rw [receiver] at before
      omega
    · rw [if_neg receiver, onlyAt_of_ne receiver]
      omega
  · rw [creditState]
    rfl

def unmarked (state : State World) : State World := { state with processingPayable := false }

/-- When the handler can move back what it believes to have been moved. -/
def Refundable (tx : TxBlock) (state : State World) : Prop :=
  held state tx.from + tx.value.toNat < 2 ^ 256 ∧ (state.processingPayable = true →
    tx.from = tx.to ∨ (tx.value.toNat ≤ held state tx.to ∧ held state tx.from + 2 * tx.value.toNat < 2 ^ 256))

/-- The handler credits the sender once, and once more against the receiver for a payable call. -/
structure Refunded (tx : TxBlock) (before after : State World) : Prop where
  paid : Paid (unmarked before) after
  held : ∀ addr, held after addr + (if before.processingPayable then onlyAt tx.to addr tx.value.toNat else 0) =
    held before addr + onlyAt tx.from addr ((if before.processingPayable then 2 else 1) * tx.value.toNat)
  accessed : after.evmHost.accessedAccountsBalances = before.evmHost.accessedAccountsBalances

private theorem payableRollback_unmarked (plain : state.processingPayable = false) :
    (payableRollback env tx).eval state = (.ok (), state) := by
  unfold payableRollback
  rw [Action.eval_bind, Action.eval_get]
  simp only [plain, Bool.false_eq_true, if_false]
  rfl

private theorem payableRollback_marked (payable : state.processingPayable = true) :
    (payableRollback env tx).eval state = (credit env tx.from tx.value >>= fun _ => do
      debit env tx.to tx.value
      setProcessingPayable false).eval state := by
  unfold payableRollback
  rw [Action.eval_bind, Action.eval_get]
  simp only [payable, if_true]

private theorem eval_unmark : (setProcessingPayable false).eval state = (.ok (), unmarked state) := rfl

theorem classicRollback_ok (refundable : Refundable tx state) :
    ∃ after, (classicRollback env tx).eval state = (.ok (), after) ∧ Refunded tx state after := by
  obtain ⟨fits, payableFits⟩ := refundable
  obtain ⟨credited, creditEval, creditState, creditHeld⟩ := credit_ok env fits
  unfold classicRollback
  cases marked : state.processingPayable with
  | false =>
    refine ⟨credited, ?_, ?_, fun addr => ?_, ?_⟩
    · rw [eval_seq_ok (payableRollback_unmarked marked), creditEval]
    · rw [creditState, show unmarked state = state by rw [unmarked, ← marked]]
      exact paid_setHeld _ _ _
    · rw [creditHeld, marked]
      simp only [Bool.false_eq_true, if_false, onlyAt]
      split <;> simp_all
    · rw [creditState]
      rfl
  | true =>
    have covered : tx.value.toNat ≤ held credited tx.to := by
      rw [creditHeld]
      split
      case isTrue => omega
      case isFalse apart => exact ((payableFits marked).resolve_left fun same => apart same.symm).1
    obtain ⟨debited, debitEval, debitState, debitHeld⟩ := debit_ok env covered
    have room : held (unmarked debited) tx.from + tx.value.toNat < 2 ^ 256 := by
      show held debited tx.from + tx.value.toNat < 2 ^ 256
      rw [debitHeld]
      by_cases same : tx.from = tx.to
      · rw [if_pos same, creditHeld, if_pos same.symm]
        omega
      · rw [if_neg same, creditHeld, if_pos rfl]
        have double := ((payableFits marked).resolve_left same).2
        omega
    obtain ⟨recredited, recreditEval, recreditState, recreditHeld⟩ := credit_ok env room
    refine ⟨recredited, ?_, ?_, fun addr => ?_, ?_⟩
    · have inner : (payableRollback env tx).eval state = (.ok (), unmarked debited) := by
        rw [payableRollback_marked marked, eval_seq_ok creditEval, eval_seq_ok debitEval, eval_unmark]
      rw [eval_seq_ok inner, recreditEval]
    · rw [recreditState, debitState, creditState]
      exact (paid_setHeld (unmarked state) _ _).trans ((paid_setHeld _ _ _).trans (paid_setHeld _ _ _))
    · have here : ∀ other, held (unmarked debited) other = held debited other := fun _ => rfl
      rw [recreditHeld]
      simp only [here, debitHeld, creditHeld, marked, if_true, onlyAt] at covered ⊢
      by_cases sender : addr = tx.from <;> by_cases receiver : addr = tx.to <;> simp_all <;> omega
    · rw [recreditState, debitState, creditState]
      rfl

theorem classicRollback_error (stuck : ¬ Refundable tx state) :
    ∃ what after, (classicRollback env tx).eval state = (.error (.exception what), after) := by
  unfold classicRollback
  cases marked : state.processingPayable with
  | false =>
    have wide : ¬ held state tx.from + tx.value.toNat < 2 ^ 256 := fun fits => stuck ⟨fits, by simp [marked]⟩
    exact ⟨_, _, by rw [eval_seq_ok (payableRollback_unmarked marked), credit_error env wide]⟩
  | true =>
    by_cases fits : held state tx.from + tx.value.toNat < 2 ^ 256
    · obtain ⟨credited, creditEval, creditState, creditHeld⟩ := credit_ok env fits
      have failing : tx.from ≠ tx.to ∧ (tx.value.toNat ≤ held state tx.to →
          ¬ held state tx.from + 2 * tx.value.toNat < 2 ^ 256) := by
        constructor
        · exact fun same => stuck ⟨fits, fun _ => .inl same⟩
        · exact fun covered double => stuck ⟨fits, fun _ => .inr ⟨covered, double⟩⟩
      by_cases covered : tx.value.toNat ≤ held credited tx.to
      · obtain ⟨debited, debitEval, debitState, debitHeld⟩ := debit_ok env covered
        have inner : (payableRollback env tx).eval state = (.ok (), unmarked debited) := by
          rw [payableRollback_marked marked, eval_seq_ok creditEval, eval_seq_ok debitEval, eval_unmark]
        have wide : ¬ held (unmarked debited) tx.from + tx.value.toNat < 2 ^ 256 := by
          show ¬ held debited tx.from + tx.value.toNat < 2 ^ 256
          rw [creditHeld, if_neg (Ne.symm failing.1)] at covered
          rw [debitHeld, if_neg failing.1, creditHeld, if_pos rfl]
          have double := failing.2 covered
          omega
        exact ⟨_, _, by rw [eval_seq_ok inner, credit_error env wide]⟩
      · have inner := (payableRollback_marked marked).trans
          ((eval_seq_ok creditEval).trans (eval_seq_error (debit_error env covered)))
        exact ⟨_, _, eval_seq_error inner⟩
    · have inner := (payableRollback_marked marked).trans (eval_seq_error (credit_error env fits))
      exact ⟨_, _, eval_seq_error inner⟩

/-- What the called contract does in a state. -/
def callOutcome (env : Env World) (tx : TxBlock) (state : State World) : Except Exception (World × ContractCallLogger) :=
  (state.contractManager.called env.contracts env.chainOwner tx.txToCallInfo).run state.evmHost.accounts {}

def isCall (env : Env World) (tx : TxBlock) (state : State World) : Bool :=
  state.contractManager.isContractCall env.contracts tx

def isPayable (env : Env World) (tx : TxBlock) (state : State World) : Bool :=
  state.contractManager.isPayable env.contracts tx.txToCallInfo

def marked (env : Env World) (tx : TxBlock) (state : State World) : State World :=
  { state with processingPayable := state.processingPayable || isPayable env tx state }

private theorem eval_markPayable : (markPayable env tx).eval state = (.ok (), marked env tx state) := by
  unfold markPayable
  rw [Action.eval_bind, Action.eval_get]
  cases payable : state.contractManager.isPayable env.contracts tx.txToCallInfo with
  | false => simp [marked, isPayable, payable]
  | true => simp [marked, isPayable, payable, setProcessingPayable]

theorem contractPart_none (plain : isCall env tx state = false) :
    (contractPart env tx txIndex).eval state = (.ok (), state) := by
  unfold contractPart
  rw [Action.eval_bind, Action.eval_get]
  simp only [show state.contractManager.isContractCall env.contracts tx = false from plain, Bool.false_eq_true, if_false]
  rfl

private theorem eval_contractPart (call : isCall env tx state = true) : (contractPart env tx txIndex).eval state =
    (callContract env tx txIndex >>= fun _ => setProcessingPayable false).eval (marked env tx state) := by
  unfold contractPart
  rw [Action.eval_bind, Action.eval_get]
  simp only [show state.contractManager.isContractCall env.contracts tx = true from call, if_true]
  rw [eval_seq_ok eval_markPayable]

/-- A failed call is discarded, and its mark stays for the handler. -/
def aborted (env : Env World) (tx : TxBlock) (state : State World) : State World :=
  { marked env tx state with
    contractManager := state.contractManager.discard env.contracts state.evmHost.accounts
      (state.contractManager.called env.contracts env.chainOwner tx.txToCallInfo) {} }

theorem contractPart_fails {what : Exception} (call : isCall env tx state = true)
    (fails : callOutcome env tx state = .error what) :
    (contractPart env tx txIndex).eval state = (.error (.exception what), aborted env tx state) := by
  rw [eval_contractPart call]
  apply eval_seq_error
  have seen : ((marked env tx state).contractManager.called env.contracts env.chainOwner tx.txToCallInfo).run
    (marked env tx state).evmHost.accounts {} = .error what := fails
  unfold callContract
  rw [Action.eval_bind, Action.eval_get]
  simp only [seen]
  rfl

/-- Balances become current that a payable call has left. -/
def settledHost (balances : Table Address Uint256) (host : EVMHost) : EVMHost :=
  { host with
    accessedAccountsBalances := host.accessedAccountsBalances ++ List.replicate balances.keys.card contractManagerAddress
    accounts := host.accounts.assign balances.keys fun address acc =>
      { acc with balance := acc.balance.write (balances.value address) } }

/-- The variables and events of a call are kept. -/
def kept (tx : TxBlock) (txIndex : UInt64) (world : World) (logger : ContractCallLogger) (state : State World) : State World :=
  let manager := state.contractManager
  let emitted := { manager.eventManager with tempEvents := manager.eventManager.tempEvents ++ logger.tempEvents }
  { unmarked state with contractManager :=
      { manager with world, eventManager := emitted.commitEvents manager.globals tx.hash txIndex } }

def settles (env : Env World) (tx : TxBlock) (state : State World) : Bool :=
  state.contractManager.settles env.contracts tx.txToCallInfo

private theorem payable_of_settles (paid : settles env tx state = true) : isPayable env tx state = true := by
  unfold settles ContractManager.settles at paid
  rw [Bool.and_eq_true] at paid
  exact paid.2

theorem contractPart_returns {world : World} {logger : ContractCallLogger} (call : isCall env tx state = true)
    (returns : callOutcome env tx state = .ok (world, logger)) :
    (contractPart env tx txIndex).eval state = (.ok (), kept tx txIndex world logger
      (if settles env tx state then withHost state (settledHost logger.balances state.evmHost) else state)) := by
  rw [eval_contractPart call]
  have seen : ((marked env tx state).contractManager.called env.contracts env.chainOwner tx.txToCallInfo).run
    (marked env tx state).evmHost.accounts {} = .ok (world, logger) := returns
  unfold callContract
  cases paid : settles env tx state with
  | false =>
    have skip : (settle env tx.txToCallInfo logger.balances).eval (marked env tx state) = (.ok (), marked env tx state) := by
      unfold settle
      rw [Action.eval_bind, Action.eval_get]
      simp only [show (marked env tx state).contractManager.settles env.contracts tx.txToCallInfo = false from paid,
        Bool.false_eq_true, if_false]
      rfl
    rw [Action.eval_bind, Action.eval_bind, Action.eval_get]
    simp only [seen]
    rw [eval_seq_ok skip]
    rfl
  | true =>
    have payable := payable_of_settles paid
    have apply : (settle env tx.txToCallInfo logger.balances).eval (marked env tx state) =
        (.ok (), withHost (marked env tx state) (settledHost logger.balances state.evmHost)) := by
      unfold settle
      rw [Action.eval_bind, Action.eval_get]
      simp only [show (marked env tx state).contractManager.settles env.contracts tx.txToCallInfo = true from paid, if_true]
      unfold processContractPayable
      rw [Action.eval_bind, Action.eval_get]
      simp only [show (marked env tx state).processingPayable = true by simp [marked, payable], Bool.not_true,
        Bool.false_eq_true, if_false]
      rfl
    rw [Action.eval_bind, Action.eval_bind, Action.eval_get]
    simp only [seen]
    rw [eval_seq_ok apply]
    rfl

variable {after : State World} {what : Exception}

theorem classicTransaction_caught (throws : (classicBody env tx txIndex).eval state = (.error (.exception what), after)) :
    (classicTransaction env tx txIndex).eval state = (classicRollback env tx).eval after :=
  eval_catching_exception throws

theorem classicBody_stuck (stuck : (classicTransfer env tx).eval state = (.error (.exception what), after)) :
    (classicBody env tx txIndex).eval state = (.error (.exception what), after) :=
  eval_seq_error stuck

theorem classicBody_fails {delivered : State World} (transfer : (classicTransfer env tx).eval state = (.ok (), delivered))
    (fails : (contractPart env tx txIndex).eval delivered = (.error (.exception what), after)) :
    (classicBody env tx txIndex).eval state = (.error (.exception what), after) := by
  unfold classicBody
  rw [eval_seq_ok transfer, eval_seq_error fails]

/-- The receiver is noted and what the machine's lists hold is committed. -/
def concluded (tx : TxBlock) (state : State World) : State World :=
  withHost state (noted state tx.to).evmHost.commit

theorem classicTransaction_done {delivered : State World}
    (transfer : (classicTransfer env tx).eval state = (.ok (), delivered))
    (done : (contractPart env tx txIndex).eval delivered = (.ok (), after)) :
    (classicTransaction env tx txIndex).eval state = (.ok (), concluded tx after) := by
  unfold classicTransaction
  refine eval_catching_ok ?_
  unfold classicBody
  rw [eval_seq_ok transfer, eval_seq_ok done]
  rfl

end OrbiterSDK.Proofs.Classic
