import OrbiterSDK.Proofs.NonceOrder

/-! Which blocks are processed to their end. The checked operations that no handler
covers are the transfer before the machine runs and the refunds of the handlers, so
each transaction has an exact condition on the state in which it starts. -/

namespace OrbiterSDK.Proofs.BlockCompletion
open Lib State Statements Transaction Classic Paths Locks BlockRun Conservation NonceOrder

variable {World : Type}

section Conditions
variable (env : Env World) (tx : TxBlock) (context : BlockContext) (state : State World)

/-- The handler of a call can credit the sender, and for a payable one move the value
back from the receiver before. -/
def RefundFits (sender receiver : Nat) (payable : Bool) : Prop :=
  sender + tx.value.toNat < 2 ^ 256 ∧ (payable = true →
    tx.from = tx.to ∨ (tx.value.toNat ≤ receiver ∧ sender + 2 * tx.value.toNat < 2 ^ 256))

/-- The value can be moved, and if the fee cannot be paid afterwards, what the failed
debit leaves has room for the value. -/
def MachineCompletable : Prop :=
  Transferable env tx state ∧ ∀ result, (machine env tx context (atMachine env tx state)).1 = .ok result →
    feeOf tx result < 2 ^ 256 → held (atMachine env tx state) tx.from < feeOf tx result →
    (env.underflowed ((atMachine env tx state).balanceOf tx.from) (BitVec.ofNat 256 (feeOf tx result))).toNat +
      tx.value.toNat < 2 ^ 256

/-- The refund fits, in each of the ways to come to it. -/
structure PlainCompletable : Prop where
  unpriced : ¬ Priced tx → RefundFits tx (held state tx.from) (held state tx.to) state.processingPayable
  short : Priced tx → ¬ Covered tx state →
    RefundFits tx (env.underflowed (state.balanceOf tx.from) (BitVec.ofNat 256 (tx.value.toNat + feeLimit tx))).toNat
      (held state tx.to) state.processingPayable
  full : Covered tx state → ¬ Receivable tx state →
    RefundFits tx (held state tx.from - (tx.value.toNat + feeLimit tx))
      (env.overflowed (state.balanceOf tx.to) tx.value).toNat state.processingPayable
  failing : Covered tx state → Receivable tx state → ContractFails env tx state →
    (tx.from = tx.to ∨ state.processingPayable = true ∨ isPayable env tx state = true) →
    held state tx.from - feeLimit tx + tx.value.toNat < 2 ^ 256

/-- The condition on a transaction and the state in which it starts. -/
def Completable : Prop :=
  if isEvmTransaction tx state then MachineCompletable env tx context state else PlainCompletable env tx state

end Conditions

variable {env : Env World} {tx : TxBlock} {context : BlockContext} {txIndex : UInt64} {state : State World}

/-- A transaction completes or throws; it never waits. -/
def Completes (env : Env World) (tx : TxBlock) (context : BlockContext) (txIndex : UInt64) (state : State World) : Prop :=
  ∃ after, (processTransaction env tx context txIndex).eval state = (.ok (), after)

def Throws (env : Env World) (tx : TxBlock) (context : BlockContext) (txIndex : UInt64) (state : State World) : Prop :=
  ∃ what after, (processTransaction env tx context txIndex).eval state = (.error (.exception what), after)

theorem balanceOf_ran {moved : State World} {result : EvmcResult} {host : EVMHost}
    (ran : machine env tx context moved = (.ok result, host)) (addr : Address) :
    (withHost moved host).balanceOf addr = moved.balanceOf addr := BitVec.eq_of_toNat_eq (held_ran ran addr)

/-- After a failed debit of the fee the handler needs room for the value, and nothing else. -/
theorem returnable_unpaid {moved : State World} {host : EVMHost} {left : Uint256}
    (shift : Moved env tx (entered tx state) moved)
    (same : ∀ addr, held (withHost moved host) addr = held moved addr) :
    Returnable env tx (setHeld (withHost moved host) tx.from left) ↔ left.toNat + tx.value.toNat < 2 ^ 256 := by
  unfold Returnable
  rw [held_setHeld, if_pos rfl]
  refine and_iff_left_of_imp fun _ => ?_
  by_cases self : tx.from = realTo env tx
  · exact .inl self
  · refine .inr ?_
    have atReceiver := shift.held (realTo env tx)
    rw [onlyAt_self, onlyAt_of_ne (Ne.symm self)] at atReceiver
    rw [held_setHeld, if_neg (Ne.symm self), same]
    omega

private theorem completes_caught {moved later : State World} {what : Exception} (evm : isEvmTransaction tx state = true)
    (entry : (enterMachine env tx).eval (entered tx state) = (.ok (), moved))
    (throws : (evmBody env tx context txIndex).eval moved = (.error (.exception what), later))
    (returnable : Returnable env tx later) : Completes env tx context txIndex state := by
  obtain ⟨after, completes, _⟩ := process_caught evm entry throws returnable
  exact ⟨_, completes⟩

theorem machine_completes (evm : isEvmTransaction tx state = true) (completable : MachineCompletable env tx context state) :
    Completes env tx context txIndex state := by
  obtain ⟨transferable, unpaid⟩ := completable
  have transferable := transferable_entered.mpr transferable
  obtain ⟨moved, entry, shift⟩ := enterMachine_ok transferable
  rw [show atMachine env tx state = moved by rw [atMachine, entry]] at unpaid
  rcases seen : machine env tx context moved with ⟨what | result, host⟩
  · have same := held_refused seen
    exact completes_caught evm entry (evmBody_refused seen)
      (returnable_of_moved transferable shift (fun addr _ => same addr) (same tx.from).le)
  · have same := held_ran seen
    rcases Nat.lt_or_ge (feeOf tx result) (2 ^ 256) with fits | wide
    · rcases Nat.lt_or_ge (held moved tx.from) (feeOf tx result) with short | covered
      · refine completes_caught evm entry (evmBody_unpaid seen fits (by rwa [same])) ?_
        rw [returnable_unpaid shift same, balanceOf_ran seen]
        exact unpaid result (by rw [seen]) fits short
      · have covered : feeOf tx result ≤ held (withHost moved host) tx.from := by rwa [same]
        by_cases failed : Failed result host
        · exact completes_caught evm entry (evmBody_failed seen covered failed)
            (returnable_of_charged transferable shift seen covered)
        · exact ⟨_, process_succeeded evm entry (evmBody_succeeded seen covered failed)⟩
    · exact completes_caught evm entry (evmBody_overcharged seen wide)
        (returnable_of_moved transferable shift (fun addr _ => same addr) (same tx.from).le)

theorem machine_throws (evm : isEvmTransaction tx state = true) (stuck : ¬ MachineCompletable env tx context state) :
    Throws env tx context txIndex state := by
  by_cases transferable : Transferable env tx state
  · obtain ⟨moved, entry, shift⟩ := enterMachine_ok (transferable_entered.mpr transferable)
    unfold MachineCompletable at stuck
    rw [show atMachine env tx state = moved by rw [atMachine, entry], and_iff_right transferable] at stuck
    push Not at stuck
    obtain ⟨result, ran, fits, short, full⟩ := stuck
    rcases seen : machine env tx context moved with ⟨returned, host⟩
    rw [seen] at ran
    cases ran
    have same := held_ran seen
    refine process_escaped evm entry (evmBody_unpaid seen fits (by rwa [same])) ?_
    rw [returnable_unpaid shift same, balanceOf_ran seen]
    exact Nat.not_lt.mpr full
  · exact process_stuck evm transferable

private theorem completes_or_throws {later : State World} {what : Exception} (classic : isEvmTransaction tx state = false)
    (throws : (classicBody env tx txIndex).eval (entered tx state) = (.error (.exception what), later)) :
    (Refundable tx later → Completes env tx context txIndex state) ∧
    (¬ Refundable tx later → Throws env tx context txIndex state) := by
  refine ⟨fun refundable => ?_, process_unrefunded classic throws⟩
  have completed : ∃ after, (processTransaction env tx context txIndex).eval state = (.ok (), finished tx after) ∧
      Refunded tx later after := process_refunded classic throws refundable
  obtain ⟨after, completes, _⟩ := completed
  exact ⟨_, completes⟩

theorem priced_of_covered (covered : Covered tx state) : Priced tx := lt_of_le_of_lt covered (held_lt state tx.from)

private theorem balanceOf_entered (addr : Address) : (entered tx state).balanceOf addr = state.balanceOf addr :=
  BitVec.eq_of_toNat_eq (held_entered tx state addr)

/-- A transaction whose price does not fit is refunded what it never paid. -/
theorem unpriced_iff (unpriced : ¬ Priced tx) :
    PlainCompletable env tx state ↔ Refundable tx (entered tx state) := by
  have uncovered : ¬ Covered tx state := mt priced_of_covered unpriced
  have fits : Refundable tx (entered tx state) ↔
      RefundFits tx (held state tx.from) (held state tx.to) state.processingPayable := by
    simp only [Refundable, RefundFits, held_entered]
    rfl
  rw [fits]
  exact ⟨fun completable => completable.unpriced unpriced, fun refund => ⟨fun _ => refund, fun priced => absurd priced unpriced,
    fun covered => absurd covered uncovered, fun covered => absurd covered uncovered⟩⟩

/-- The failed debit leaves the sender an arbitrary balance. -/
theorem short_iff (priced : Priced tx) (short : ¬ Covered tx state) :
    PlainCompletable env tx state ↔ Refundable tx (setHeld (entered tx state) tx.from
      (env.underflowed ((entered tx state).balanceOf tx.from) (BitVec.ofNat 256 (tx.value.toNat + feeLimit tx)))) := by
  have fits : ∀ left, Refundable tx (setHeld (entered tx state) tx.from left) ↔
      RefundFits tx left.toNat (held state tx.to) state.processingPayable := by
    intro left
    unfold Refundable RefundFits
    rw [held_setHeld, held_setHeld, if_pos rfl]
    by_cases self : tx.from = tx.to
    · simp [self]
    · simp only [self, false_or, if_neg (Ne.symm self), held_entered]
      rfl
  rw [fits, balanceOf_entered]
  exact ⟨fun completable => completable.short priced short, fun refund => ⟨fun unpriced => absurd priced unpriced,
    fun _ _ => refund, fun covered => absurd covered short, fun covered => absurd covered short⟩⟩

/-- The failed credit leaves the receiver an arbitrary balance. -/
theorem full_iff (covered : Covered tx state) (full : ¬ Receivable tx state) :
    PlainCompletable env tx state ↔ Refundable tx (setHeld (spent tx (entered tx state)) tx.to
      (env.overflowed ((spent tx (entered tx state)).balanceOf tx.to) tx.value)) := by
  have apart : tx.from ≠ tx.to := fun same => full (.inl same)
  have coveredThen := covered_entered.mpr covered
  have sender : held (spent tx (entered tx state)) tx.from = held state tx.from - (tx.value.toNat + feeLimit tx) := by
    have paid := held_spent coveredThen tx.from
    rw [onlyAt_self, held_entered] at paid
    omega
  have receiver : (spent tx (entered tx state)).balanceOf tx.to = state.balanceOf tx.to :=
    BitVec.eq_of_toNat_eq ((held_spent_receiver coveredThen apart).trans (held_entered tx state tx.to))
  have fits : ∀ left, Refundable tx (setHeld (spent tx (entered tx state)) tx.to left) ↔
      RefundFits tx (held state tx.from - (tx.value.toNat + feeLimit tx)) left.toNat state.processingPayable := by
    intro left
    unfold Refundable RefundFits
    rw [held_setHeld, held_setHeld, if_pos rfl, if_neg apart, sender]
    rfl
  rw [fits, receiver]
  exact ⟨fun completable => completable.full covered full, fun refund => ⟨fun unpriced => absurd (priced_of_covered covered) unpriced,
    fun _ short => absurd covered short, fun _ _ => refund, fun _ receivable => absurd receivable full⟩⟩

theorem payable_aborted {delivered : State World} (shift : Delivered tx (entered tx state) delivered) :
    (aborted env tx delivered).processingPayable = (state.processingPayable || isPayable env tx state) := by
  have manager : delivered.contractManager = state.contractManager := by rw [shift.paid.state]; rfl
  have flag : delivered.processingPayable = state.processingPayable := by rw [shift.paid.state]; rfl
  simp only [aborted, marked, isPayable, manager, flag]

/-- A contract that throws has its value refunded on top of what the sender kept. -/
theorem failing_iff {delivered : State World} (covered : Covered tx state) (receivable : Receivable tx state)
    (shift : Delivered tx (entered tx state) delivered) (fails : ContractFails env tx state) :
    PlainCompletable env tx state ↔ Refundable tx (aborted env tx delivered) := by
  have payable := @payable_aborted _ env _ _ _ shift
  have sender := shift.held tx.from
  rw [onlyAt_self, held_entered] at sender
  have receiver := shift.held tx.to
  rw [onlyAt_self, held_entered] at receiver
  have bound := held_lt state tx.from
  have fits : Refundable tx (aborted env tx delivered) ↔
      ((tx.from = tx.to ∨ state.processingPayable = true ∨ isPayable env tx state = true) →
        held state tx.from - feeLimit tx + tx.value.toNat < 2 ^ 256) := by
    unfold Refundable
    rw [payable, Bool.or_eq_true, show held (aborted env tx delivered) = held delivered from rfl]
    unfold Covered at covered
    by_cases self : tx.from = tx.to
    · rw [← self, onlyAt_self] at sender
      simp only [self, true_or, implies_true, and_true, true_implies]
      rw [← self]
      omega
    · rw [onlyAt_of_ne self] at sender
      rw [onlyAt_of_ne (Ne.symm self)] at receiver
      simp only [self, false_or]
      constructor
      · rintro ⟨_, double⟩ either
        have more := (double either).2
        omega
      · intro room
        exact ⟨by omega, fun either => ⟨by omega, by have more := room either; omega⟩⟩
  rw [fits]
  exact ⟨fun completable => completable.failing covered receivable fails, fun refund =>
    ⟨fun unpriced => absurd (priced_of_covered covered) unpriced, fun _ short => absurd covered short,
      fun _ full => absurd receivable full, fun _ _ _ => refund⟩⟩

theorem plain_outcome (classic : isEvmTransaction tx state = false) :
    (PlainCompletable env tx state → Completes env tx context txIndex state) ∧
    (¬ PlainCompletable env tx state → Throws env tx context txIndex state) := by
  by_cases priced : Priced tx
  · by_cases covered : Covered tx state
    · have coveredThen := covered_entered.mpr covered
      by_cases receivable : Receivable tx state
      · obtain ⟨delivered, transfer, shift⟩ := classicTransfer_ok coveredThen (receivable_entered.mpr receivable)
        have completes : ∀ {later}, (contractPart env tx txIndex).eval delivered = (.ok (), later) →
            Completes env tx context txIndex state := fun done => ⟨_, process_concluded classic transfer done⟩
        by_cases fails : ContractFails env tx state
        · rw [failing_iff covered receivable shift fails]
          unfold ContractFails at fails
          rw [atContract_eq transfer] at fails
          obtain ⟨call, what, outcome⟩ := fails
          exact completes_or_throws classic (classicBody_fails transfer (contractPart_fails call outcome))
        · have completable : PlainCompletable env tx state := ⟨fun unpriced => absurd priced unpriced,
            fun _ short => absurd covered short, fun _ full => absurd receivable full, fun _ _ failing => absurd failing fails⟩
          refine ⟨fun _ => ?_, fun stuck => absurd completable stuck⟩
          unfold ContractFails at fails
          rw [atContract_eq transfer] at fails
          cases call : isCall env tx delivered with
          | false => exact completes (contractPart_none call)
          | true =>
            cases outcome : callOutcome env tx delivered with
            | error what => exact absurd ⟨call, what, outcome⟩ fails
            | ok returned =>
              rcases returned with ⟨world, logger⟩
              exact completes (contractPart_returns call outcome)
      · rw [full_iff covered receivable]
        exact completes_or_throws classic (classicBody_stuck
          (classicTransfer_full coveredThen (mt receivable_entered.mp receivable)))
    · rw [short_iff priced covered]
      exact completes_or_throws classic (classicBody_stuck (classicTransfer_short priced (mt covered_entered.mp covered)))
  · obtain ⟨what, stuck⟩ : ∃ what, (classicTransfer env tx).eval (entered tx state) = (.error (.exception what), entered tx state) :=
      classicTransfer_wide priced
    rw [unpriced_iff priced]
    exact completes_or_throws classic (classicBody_stuck stuck)

variable {block : Block}

/-- A transaction completes exactly if its condition holds where it starts, and throws otherwise. -/
theorem transaction_outcome : (Completable env tx context state → Completes env tx context txIndex state) ∧
    (¬ Completable env tx context state → Throws env tx context txIndex state) := by
  unfold Completable
  split
  case isTrue evm => exact ⟨machine_completes evm, machine_throws evm⟩
  case isFalse classic => exact plain_outcome (Bool.not_eq_true _ ▸ classic)

/-- A list of transactions completes exactly if every transaction that is started can complete. -/
theorem transactions_outcome (txs : List TxBlock) : ∀ {txIndex : UInt64} {state : State World},
    ((∀ run ∈ executions env context txs txIndex state, Completable env run.2 context run.1) ∧
      ∃ after, (processTransactions env context txs txIndex).eval state = (.ok (), after)) ∨
    ((¬ ∀ run ∈ executions env context txs txIndex state, Completable env run.2 context run.1) ∧
      ∃ what after, (processTransactions env context txs txIndex).eval state = (.error (.exception what), after)) := by
  induction txs with
  | nil =>
    intro txIndex state
    exact .inl ⟨fun run member => absurd member List.not_mem_nil, state, rfl⟩
  | cons tx rest ih =>
    intro txIndex state
    rw [executions, processTransactions]
    by_cases completable : Completable env tx context state
    · obtain ⟨next, done⟩ : Completes env tx context txIndex state := transaction_outcome.1 completable
      rw [done, eval_seq_ok done]
      simp only [List.forall_mem_cons, completable, true_and]
      exact ih
    · obtain ⟨what, after, throws⟩ : Throws env tx context txIndex state := transaction_outcome.2 completable
      rw [throws, eval_seq_error throws]
      exact .inr ⟨fun all => completable (all _ List.mem_cons_self), what, after, rfl⟩

theorem completable_of_completes (completes : (runTransactions env block state).1 = .ok ()) :
    ∀ run ∈ blockExecutions env block state, Completable env run.2 (blockContext env block) run.1 := by
  rcases @transactions_outcome World env (blockContext env block) block.txs 0 (opened block state) with ⟨all, _⟩ | ⟨_, what, after, throws⟩
  · exact all
  · have same := completes.symm.trans (congrArg Prod.fst throws)
    cases same

/-- An accepted block is processed to its end and stored, exactly if every transaction
in it that is started can complete from the state the earlier ones have left. -/
theorem block_completes_iff (reachable : Reachable env state) (accepts : Accepts env state block) :
    (∃ after, (processNextBlock env block).eval state = (.ok (), after) ∧ after.latest = block) ↔
      ∀ run ∈ blockExecutions env block state, Completable env run.2 (blockContext env block) run.1 := by
  have free := reachable_free reachable
  rcases transactions_outcome block.txs with ⟨all, after, done⟩ | ⟨stuck, what, after, throws⟩
  · obtain ⟨mempool, completes, _⟩ := processNextBlock_completes free (reachable_priced reachable) accepts done
    exact iff_of_true ⟨_, completes, rfl⟩ all
  · refine iff_of_false ?_ stuck
    rintro ⟨final, completes, _⟩
    rw [processNextBlock_throws free accepts throws] at completes
    cases completes

/-- Transfers of two senders. -/
abbrev transfers : Block := nextBlock [transfer 0 4, otherTransfer]

theorem transfers_complete : (blockExecutions stoppingEnv transfers twoAccounts).length = 2 ∧
    (blockExecutions stoppingEnv transfers twoAccounts).Forall fun run =>
      Completable stoppingEnv run.2 (blockContext stoppingEnv transfers) run.1 := by
  have reachable : Reachable stoppingEnv twoAccounts := .construct _ _ _ _ _
  have accepts : Accepts stoppingEnv twoAccounts transfers := by
    unfold Accepts
    decide
  have done : ((processNextBlock stoppingEnv transfers).eval twoAccounts).1 = .ok () := by decide
  have latest : ((processNextBlock stoppingEnv transfers).eval twoAccounts).2.latest = transfers := by decide
  refine ⟨by decide, List.forall_iff_forall_mem.mpr ?_⟩
  exact (block_completes_iff reachable accepts).mp ⟨_, Prod.ext done rfl, latest⟩

/-- An account with a thousand coins, and the simplest contract. -/
def contractState : State Unit :=
  construct
    { accountsCode := [(5, [0])]
      nativeAccounts := [(7, 1000000000000000000000, 0)] } () [] 0 ⟨[], genesis⟩

def payment (hash : Hash) : TxBlock :=
  { donation with
    «to» := 5
    value := 600000000000000000000
    hash }

/-- The block is accepted and thrown away half done: the contract holds both payments. -/
theorem second_payment_stops_block :
    Reachable stoppingEnv contractState ∧
    Accepts stoppingEnv contractState (nextBlock [payment 4, payment 5]) ∧
    ((processNextBlock stoppingEnv (nextBlock [payment 4, payment 5])).eval contractState).1 = .error (.exception Uint256.negative) ∧
    ((processNextBlock stoppingEnv (nextBlock [payment 4, payment 5])).eval contractState).2.latest = genesis ∧
    held ((processNextBlock stoppingEnv (nextBlock [payment 4, payment 5])).eval contractState).2 5 = 1200000000000000000000 := by
  refine ⟨.construct _ _ _ _ _, ?_, ?_, ?_, ?_⟩
  · unfold Accepts
    decide
  · decide
  · decide
  · decide

end OrbiterSDK.Proofs.BlockCompletion
