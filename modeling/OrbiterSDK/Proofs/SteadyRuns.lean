import OrbiterSDK.Proofs.BlockCompletion
import OrbiterSDK.Proofs.DryRuns

/-! Transactions that leave original and current values in step. A balance that is
changed without being noted stays out of step, so the condition of a transaction says
that no such balance changes. -/

namespace OrbiterSDK.Proofs.SteadyRuns
open Lib State HostRun HostCommit Statements Transaction Classic Paths Locks Versions Conservation NonceOrder BlockCompletion DryRuns

variable {World : Type}

section Conditions
variable (env : Env World) (tx : TxBlock) (context : BlockContext) (state : State World)

/-- The machine runs, is paid and does not fail. -/
def MachinePasses : Prop :=
  ∃ result host, machine env tx context (atMachine env tx state) = (.ok result, host) ∧
    feeOf tx result ≤ held (atMachine env tx state) tx.from ∧ ¬ Failed result host

/-- A creation that keeps its value notes the zero address and not the contract. -/
structure MachineSteady : Prop where
  completable : MachineCompletable env tx context state
  creation : tx.to = 0 → tx.value ≠ 0 → MachinePasses env tx context state → realTo env tx = tx.from ∨ realTo env tx = 0

/-- The handler of a call does not note the receiver, and a payable call notes the
contract manager in place of every account whose balance it changes. -/
structure PlainSteady : Prop where
  completable : PlainCompletable env tx state
  full : Covered tx state → ¬ Receivable tx state → env.overflowed (state.balanceOf tx.to) tx.value = state.balanceOf tx.to
  failing : Covered tx state → Receivable tx state → ContractFails env tx state →
    tx.value = 0 ∨ tx.from = tx.to ∨ isPayable env tx state = true
  settling : Covered tx state → Receivable tx state → isCall env tx (atContract env tx state) = true →
    settles env tx (atContract env tx state) = true →
    ∀ world logger, callOutcome env tx (atContract env tx state) = .ok (world, logger) →
    ∀ addr ∈ logger.balances.keys, addr = tx.from ∨ addr = tx.to ∨ addr = contractManagerAddress ∨
      logger.balances.value addr = (atContract env tx state).balanceOf addr

def Steady : Prop :=
  if isEvmTransaction tx state then MachineSteady env tx context state else PlainSteady env tx state

end Conditions

/-- Between transactions everything is settled and no payable call is being processed. -/
structure Between (state : State World) : Prop where
  settled : Settled state.evmHost
  idle : state.processingPayable = false

/-- A transaction completes and leaves everything in step. -/
abbrev Passes (env : Env World) (tx : TxBlock) (context : BlockContext) (txIndex : UInt64) (state : State World) : Prop :=
  ∃ after, (processTransaction env tx context txIndex).eval state = (.ok (), after) ∧ Between after

section Machine
variable {env : Env World} {tx : TxBlock} {context : BlockContext} {txIndex : UInt64} {state : State World}
variable {moved : State World} {host : EVMHost}

/-- The machine starts with everything but the balances noted. -/
theorem noted_ran (settled : Settled state.evmHost) (shift : Moved env tx (entered tx state) moved)
    (executed : Executed (prepared tx context moved) host) : Noted host := by
  have start : Noted moved.evmHost := (settled.entered tx).paid shift.paid
  have ready : Noted (prepared tx context moved) :=
    ⟨start.nonce, start.code, start.codeHash, start.storage, start.transientStorage⟩
  exact ready.written executed.toWritten

/-- The original balances are those before the transaction. -/
theorem first_ran (shift : Moved env tx (entered tx state) moved) (executed : Executed (prepared tx context moved) host)
    (addr : Address) : (host.account addr).balance.first = (state.evmHost.account addr).balance.first := by
  rw [executed.balance]
  refine (shift.paid.first addr).trans ?_
  rw [account_entered]

/-- Apart from the two parties of the transfer no balance has moved. -/
theorem held_moved (shift : Moved env tx (entered tx state) moved) {addr : Address} (apart : addr ≠ tx.from) :
    held moved addr = held state addr + onlyAt (realTo env tx) addr tx.value.toNat := by
  have here := shift.held addr
  rwa [onlyAt_of_ne apart, Nat.add_zero, held_entered] at here

theorem mem_accessed (settled : Settled state.evmHost) (shift : Moved env tx (entered tx state) moved) (addr : Address) :
    addr ∈ moved.evmHost.accessedAccountsBalances ↔ addr = tx.from ∨ (tx.value ≠ 0 ∧ addr = tx.to) := by
  have entry : (entered tx state).evmHost.accessedAccountsBalances = [tx.from] := by
    show state.evmHost.accessedAccountsBalances ++ [tx.from] = _
    rw [settled.accessedAccountsBalances]
    rfl
  rw [shift.accessed, entry]
  split
  case isTrue none => simp [none]
  case isFalse some =>
    simp only [List.mem_append, List.mem_cons, List.not_mem_nil]
    tauto

/-- Every way into the handler ends settled: the value is moved back, and of the
other balances only the sender's has changed. -/
theorem settled_caught {later : State World} {what : Exception} (between : Between state) (evm : isEvmTransaction tx state = true)
    (entry : (enterMachine env tx).eval (entered tx state) = (.ok (), moved))
    (shift : Moved env tx (entered tx state) moved) (executed : Executed (prepared tx context moved) host)
    (paid : Paid (withHost moved host) later)
    (accessed : later.evmHost.accessedAccountsBalances = moved.evmHost.accessedAccountsBalances)
    (others : ∀ addr, addr ≠ tx.from → held later addr = held moved addr)
    (throws : (evmBody env tx context txIndex).eval moved = (.error (.exception what), later))
    (returnable : Returnable env tx later) : Passes env tx context txIndex state := by
  obtain ⟨returned, completes, back⟩ := process_caught evm entry throws returnable
  refine ⟨_, completes, settled_finished tx ?_ ?_ rfl rfl rfl rfl, ?_⟩
  · have thrown : Noted later.evmHost := (noted_ran between.settled shift executed).paid paid
    have calm : Noted (calmed later).evmHost :=
      ⟨thrown.nonce, thrown.code, thrown.codeHash, thrown.storage, thrown.transientStorage⟩
    exact (calm.paid back.paid).revert.revertCode
  · refine balancesNoted_of between.settled (fun addr => ?_) fun addr unnoted => ?_
    · simp only [reverted, withHost_evmHost, revertCode_balance, revert_balance]
      rw [back.paid.first]
      exact (paid.first addr).trans (first_ran shift executed addr)
    · have apart : addr ≠ tx.from := by
        rintro rfl
        have member := (mem_accessed between.settled shift tx.from).mpr (.inl rfl)
        rw [← accessed, ← back.accessed] at member
        exact unnoted member
      have same := back.held addr
      rw [onlyAt_of_ne apart, others addr apart, held_moved shift apart] at same
      have unchanged : held (reverted returned) addr = held state addr := by
        rw [held_reverted]
        omega
      exact unchanged
  · show returned.processingPayable = false
    rw [back.paid.payable]
    show later.processingPayable = false
    rw [paid.payable]
    show moved.processingPayable = false
    rw [shift.paid.payable]
    exact between.idle

theorem machine_between (between : Between state) (evm : isEvmTransaction tx state = true)
    (steady : MachineSteady env tx context state) : Passes env tx context txIndex state := by
  obtain ⟨⟨transferable, unpaid⟩, creation⟩ := steady
  have transferable := transferable_entered.mpr transferable
  obtain ⟨moved, entry, shift⟩ := enterMachine_ok transferable
  have start : atMachine env tx state = moved := by rw [atMachine, entry]
  unfold MachinePasses at creation
  rw [start] at unpaid creation
  rcases seen : machine env tx context moved with ⟨what | result, host⟩
  · have same := held_refused seen
    have executed := Ran.executed (machine_error seen).2
    exact settled_caught between evm entry shift executed (Paid.refl _) executed.accessedAccountsBalances
      (fun addr _ => same addr) (evmBody_refused seen)
      (returnable_of_moved transferable shift (fun addr _ => same addr) (same tx.from).le)
  · have same := held_ran seen
    have executed := (machine_ok seen).2.1
    rcases Nat.lt_or_ge (feeOf tx result) (2 ^ 256) with fits | wide
    · rcases Nat.lt_or_ge (held moved tx.from) (feeOf tx result) with short | covered
      · refine settled_caught between evm entry shift executed (paid_setHeld _ _ _) executed.accessedAccountsBalances
          (fun addr apart => ?_) (evmBody_unpaid seen fits (by rwa [same])) ?_
        · rw [held_setHeld, if_neg apart, same]
        · rw [returnable_unpaid shift same, balanceOf_ran seen]
          exact unpaid result (by rw [seen]) fits short
      · have coveredRan : feeOf tx result ≤ held (withHost moved host) tx.from := by rwa [same]
        by_cases failed : Failed result host
        · refine settled_caught between evm entry shift executed (paid_setHeld _ _ _) executed.accessedAccountsBalances
            (fun addr apart => ?_) (evmBody_failed seen coveredRan failed)
            (returnable_of_charged transferable shift seen coveredRan)
          exact (held_charged_of_ne coveredRan apart).trans (same addr)
        · refine ⟨_, process_succeeded evm entry (evmBody_succeeded seen coveredRan failed),
            settled_finished tx ?_ ?_ rfl rfl rfl rfl, ?_⟩
          · have charge : Paid (withHost moved host) (charged tx result (withHost moved host)) := paid_setHeld _ _ _
            have ran : Noted (withHost moved host).evmHost := noted_ran between.settled shift executed
            exact (ran.paid charge).commit.commitCode
          · refine balancesNoted_of between.settled (fun addr => ?_) fun addr unnoted => ?_
            · simp only [withHost_evmHost, commitCode_balance, commit_balance]
              have charge : Paid (withHost moved host) (charged tx result (withHost moved host)) := paid_setHeld _ _ _
              exact (charge.first addr).trans (first_ran shift executed addr)
            · have unlisted : addr ∉ moved.evmHost.accessedAccountsBalances :=
                executed.accessedAccountsBalances ▸ unnoted
              rw [mem_accessed between.settled shift, not_or, not_and] at unlisted
              obtain ⟨apart, notReceiver⟩ := unlisted
              have atOther : held (charged tx result (withHost moved host)) addr = held state addr +
                  onlyAt (realTo env tx) addr tx.value.toNat := by
                rw [held_charged_of_ne coveredRan apart, same, held_moved shift apart]
              have nothing : onlyAt (realTo env tx) addr tx.value.toNat = 0 := by
                by_cases none : tx.value = 0
                · rw [none]
                  exact onlyAt_zero _ _
                · refine onlyAt_of_ne (fun receiver => ?_) _
                  by_cases create : tx.to = 0
                  · rcases creation create none ⟨result, host, seen, covered, failed⟩ with sender | zero
                    · exact apart (receiver.trans sender)
                    · exact notReceiver none (receiver.trans (zero.trans create.symm))
                  · exact notReceiver none (receiver.trans (if_neg create))
              simp only [withHost_evmHost, EVMHost.balanceOf, commitCode_balance, commit_balance]
              rw [nothing, Nat.add_zero] at atOther
              exact atOther
          · show moved.processingPayable = false
            rw [shift.paid.payable]
            exact between.idle
    · exact settled_caught between evm entry shift executed (Paid.refl _) executed.accessedAccountsBalances
        (fun addr _ => same addr) (evmBody_overcharged seen wide)
        (returnable_of_moved transferable shift (fun addr _ => same addr) (same tx.from).le)

end Machine

section Plain
variable {env : Env World} {tx : TxBlock} {context : BlockContext} {txIndex : UInt64} {state : State World}

/-- Value has moved, and nothing but balances and the list of their accounts differs from a settled host. -/
theorem lists_paid {mid : State World} (settled : Settled state.evmHost) (paid : Paid (entered tx state) mid) :
    mid.evmHost.accessedAccountsCode = [] ∧ mid.evmHost.accessedStorages = [] ∧ mid.evmHost.accessedTransients = [] ∧
      mid.evmHost.recentlyCreatedContracts = [] := by
  rw [paid.host]
  exact ⟨settled.accessedAccountsCode, settled.accessedStorages, settled.accessedTransients, settled.recentlyCreatedContracts⟩

theorem first_paid {mid : State World} (paid : Paid (entered tx state) mid) (addr : Address) :
    (mid.evmHost.account addr).balance.first = (state.evmHost.account addr).balance.first := by
  rw [paid.first, account_entered]

theorem accessed_entered (settled : Settled state.evmHost) : (entered tx state).evmHost.accessedAccountsBalances = [tx.from] := by
  show state.evmHost.accessedAccountsBalances ++ [tx.from] = _
  rw [settled.accessedAccountsBalances]
  rfl

private theorem noted_settledHost {host : EVMHost} (noted : Noted host) (balances : Table Address Uint256) :
    Noted (settledHost balances host) := by
  have kept : ∀ {β : Type} (project : EVMAccount → β),
      (∀ (acc : EVMAccount) balance, project { acc with balance := balance } = project acc) → ∀ addr,
      project ((settledHost balances host).account addr) = project (host.account addr) := by
    intro β project same addr
    simp only [EVMHost.account, settledHost, Table.assign]
    split
    · exact same _ _
    · rfl
  constructor
  case nonce =>
    intro addr unnoted
    rw [kept EVMAccount.nonce fun _ _ => rfl]
    exact noted.nonce addr unnoted
  case code =>
    intro addr unnoted
    rw [kept EVMAccount.code fun _ _ => rfl]
    exact noted.code addr unnoted
  case codeHash =>
    intro addr unnoted
    rw [kept EVMAccount.codeHash fun _ _ => rfl]
    exact noted.codeHash addr unnoted
  case storage =>
    intro addr key unnoted
    rw [kept EVMAccount.storage fun _ _ => rfl]
    exact noted.storage addr key unnoted
  case transientStorage =>
    intro addr unnoted
    rw [kept EVMAccount.transientStorage fun _ _ => rfl]
    exact noted.transientStorage addr unnoted

private theorem first_settledHost (host : EVMHost) (balances : Table Address Uint256) (addr : Address) :
    ((settledHost balances host).account addr).balance.first = (host.account addr).balance.first := by
  simp only [EVMHost.account, settledHost, Table.assign]
  split
  · rfl
  · rfl

private theorem balanceOf_settledHost (host : EVMHost) (balances : Table Address Uint256) (addr : Address) :
    (settledHost balances host).balanceOf addr =
      if addr ∈ balances.keys then balances.value addr else host.balanceOf addr := by
  simp only [EVMHost.balanceOf, EVMHost.account, settledHost, Table.assign]
  split
  · rfl
  · rfl

/-- The balances of the accounts other than the two parties after the transfer. -/
private theorem held_delivered {delivered : State World} (shift : Delivered tx (entered tx state) delivered) {addr : Address}
    (apart : addr ≠ tx.from) : held delivered addr = held state addr + onlyAt tx.to addr tx.value.toNat := by
  have here := shift.held addr
  rwa [onlyAt_of_ne apart, Nat.add_zero, held_entered] at here

section Settled
variable (between : Between state) (classic : isEvmTransaction tx state = false)
include between classic

/-- The handler ends settled if it gives every other account than the sender its balance back. -/
theorem settled_refunded {later mid : State World} {what : Exception}
    (throws : (classicBody env tx txIndex).eval (entered tx state) = (.error (.exception what), later))
    (paid : Paid (entered tx state) mid) (sameHost : later.evmHost = mid.evmHost)
    (accessed : mid.evmHost.accessedAccountsBalances = (entered tx state).evmHost.accessedAccountsBalances)
    (others : ∀ addr, addr ≠ tx.from → held later addr =
      held state addr + if later.processingPayable then onlyAt tx.to addr tx.value.toNat else 0)
    (refundable : Refundable tx later) : Passes env tx context txIndex state := by
  have completed : ∃ after, (processTransaction env tx context txIndex).eval state = (.ok (), finished tx after) ∧
      Refunded tx later after := process_refunded classic throws refundable
  obtain ⟨after, completes, refund⟩ := completed
  obtain ⟨codeDone, storagesDone, transientsDone, createdDone⟩ := lists_paid between.settled paid
  have host : after.evmHost = { mid.evmHost with
      accounts := after.evmHost.accounts
      accessedAccountsBalances := after.evmHost.accessedAccountsBalances } := by
    have shape := refund.paid.host
    rwa [show (unmarked later).evmHost = mid.evmHost from sameHost] at shape
  refine ⟨_, completes, settled_finished tx ?_ ?_ ?_ ?_ ?_ ?_, ?_⟩
  · have notedLater : Noted (unmarked later).evmHost := by
      show Noted later.evmHost
      rw [sameHost]
      exact (between.settled.entered tx).paid paid
    exact notedLater.paid refund.paid
  · refine balancesNoted_of between.settled (fun addr => ?_) fun addr unnoted => ?_
    · rw [refund.paid.first]
      show (later.evmHost.account addr).balance.first = _
      rw [sameHost]
      exact first_paid paid addr
    · have apart : addr ≠ tx.from := by
        rintro rfl
        rw [refund.accessed, sameHost, accessed, accessed_entered between.settled] at unnoted
        exact unnoted List.mem_cons_self
      have back := refund.held addr
      rw [onlyAt_of_ne apart, others addr apart] at back
      exact Nat.add_right_cancel back
  · rw [host]
    exact codeDone
  · rw [host]
    exact storagesDone
  · rw [host]
    exact transientsDone
  · rw [host]
    exact createdDone
  · exact refund.paid.payable

/-- A call that returns ends settled if every balance it changed is noted. -/
theorem settled_concluded {delivered later : State World}
    (transfer : (classicTransfer env tx).eval (entered tx state) = (.ok (), delivered))
    (done : (contractPart env tx txIndex).eval delivered = (.ok (), later))
    (noted : Noted later.evmHost) (codeDone : later.evmHost.accessedAccountsCode = [])
    (createdDone : later.evmHost.recentlyCreatedContracts = [])
    (first : ∀ addr, (later.evmHost.account addr).balance.first = (state.evmHost.account addr).balance.first)
    (others : ∀ addr, addr ∉ later.evmHost.accessedAccountsBalances → addr ≠ tx.to → held later addr = held state addr)
    (idle : later.processingPayable = false) : Passes env tx context txIndex state := by
  have notedMore : Noted (Statements.noted later tx.to).evmHost :=
    ⟨noted.nonce, noted.code, noted.codeHash, noted.storage, noted.transientStorage⟩
  refine ⟨_, process_concluded classic transfer done, settled_finished tx notedMore.commit ?_ codeDone rfl rfl createdDone, idle⟩
  refine balancesNoted_of between.settled (fun addr => ?_) fun addr unnoted => ?_
  · simp only [concluded, withHost_evmHost, commit_balance]
    exact first addr
  · have unlisted : addr ∉ later.evmHost.accessedAccountsBalances ++ [tx.to] := unnoted
    rw [List.mem_append, not_or, List.mem_singleton] at unlisted
    exact (held_concluded tx later addr).trans (others addr unlisted.1 unlisted.2)

/-- A call that returns, with or without balances to hand back. -/
theorem returned_between {delivered : State World} {world : World} {logger : ContractCallLogger}
    (transfer : (classicTransfer env tx).eval (entered tx state) = (.ok (), delivered))
    (shift : Delivered tx (entered tx state) delivered) (call : isCall env tx delivered = true)
    (returns : callOutcome env tx delivered = .ok (world, logger))
    (settling : settles env tx delivered = true → ∀ addr ∈ logger.balances.keys, addr = tx.from ∨ addr = tx.to ∨
      addr = contractManagerAddress ∨ logger.balances.value addr = delivered.balanceOf addr) : Passes env tx context txIndex state := by
  have done : (contractPart env tx txIndex).eval delivered = _ := contractPart_returns call returns
  obtain ⟨codeDone, _, _, createdDone⟩ := lists_paid between.settled shift.paid
  have noted : Noted delivered.evmHost := (between.settled.entered tx).paid shift.paid
  have listed : delivered.evmHost.accessedAccountsBalances = [tx.from] := by
    rw [shift.accessed, accessed_entered between.settled]
  cases paid : settles env tx delivered with
  | false =>
    rw [paid, if_neg Bool.false_ne_true] at done
    have first : ∀ addr, (delivered.evmHost.account addr).balance.first = (state.evmHost.account addr).balance.first :=
      first_paid shift.paid
    refine settled_concluded between classic transfer done noted codeDone createdDone first
      (fun addr unnoted receiver => ?_) rfl
    have unlisted : addr ∉ delivered.evmHost.accessedAccountsBalances := unnoted
    rw [listed, List.mem_singleton] at unlisted
    have same := held_delivered shift unlisted
    rwa [onlyAt_of_ne receiver, Nat.add_zero] at same
  | true =>
    rw [paid, if_pos rfl] at done
    refine settled_concluded between classic transfer done (noted_settledHost noted _) codeDone createdDone
      (fun addr => (first_settledHost _ _ addr).trans (first_paid shift.paid addr)) (fun addr unnoted receiver => ?_) rfl
    have unlisted : addr ∉ delivered.evmHost.accessedAccountsBalances ++
        List.replicate logger.balances.keys.card contractManagerAddress := unnoted
    rw [listed, List.mem_append, not_or, List.mem_singleton, List.mem_replicate, not_and] at unlisted
    have same := held_delivered shift unlisted.1
    rw [onlyAt_of_ne receiver, Nat.add_zero] at same
    refine Eq.trans ?_ same
    show ((settledHost logger.balances delivered.evmHost).balanceOf addr).toNat = _
    rw [balanceOf_settledHost]
    split
    case isTrue member =>
      have some : logger.balances.keys.card ≠ 0 := Finset.card_ne_zero_of_mem member
      rcases settling paid addr member with sender | other | manager | unchanged
      · exact absurd sender unlisted.1
      · exact absurd other receiver
      · exact absurd manager (unlisted.2 some)
      · rw [unchanged]
        rfl
    case isFalse => rfl

theorem failed_between {delivered : State World}
    (steady : PlainSteady env tx state) (covered : Covered tx state) (receivable : Receivable tx state)
    (transfer : (classicTransfer env tx).eval (entered tx state) = (.ok (), delivered)) (shift : Delivered tx (entered tx state) delivered)
    (fails : ContractFails env tx state) : Passes env tx context txIndex state := by
  have refundable := (failing_iff covered receivable shift fails).mp steady.completable
  have worthless := steady.failing covered receivable fails
  unfold ContractFails at fails
  rw [atContract_eq transfer] at fails
  obtain ⟨call, what, outcome⟩ := fails
  refine settled_refunded between classic (classicBody_fails transfer (contractPart_fails call outcome)) shift.paid rfl
    shift.accessed (fun addr apart => ?_) refundable
  refine (held_delivered shift apart).trans ?_
  rw [payable_aborted shift, between.idle, Bool.false_or]
  rcases worthless with none | self | paid
  · simp [none]
  · have elsewhere : addr ≠ tx.to := self ▸ apart
    simp [onlyAt_of_ne elsewhere]
  · simp [paid]

theorem full_between (steady : PlainSteady env tx state)
    (covered : Covered tx state) (receivable : ¬ Receivable tx state) : Passes env tx context txIndex state := by
  have coveredThen := covered_entered.mpr covered
  refine settled_refunded between classic
    (classicBody_stuck (classicTransfer_full coveredThen (mt receivable_entered.mp receivable)))
    ((paid_setHeld _ _ _).trans (paid_setHeld _ _ _)) rfl rfl (fun addr apart => ?_) ((full_iff covered receivable).mp steady.completable)
  have idleLater : (setHeld (spent tx (entered tx state)) tx.to (env.overflowed
    ((spent tx (entered tx state)).balanceOf tx.to) tx.value)).processingPayable = false := between.idle
  rw [idleLater]
  simp only [Bool.false_eq_true, if_false, Nat.add_zero]
  have others := held_spent coveredThen addr
  rw [onlyAt_of_ne apart, Nat.add_zero, held_entered] at others
  rw [held_setHeld]
  split
  case isTrue receiver =>
    have same : (spent tx (entered tx state)).balanceOf tx.to = state.balanceOf tx.to :=
      BitVec.eq_of_toNat_eq (receiver ▸ others)
    rw [same, steady.full covered receivable, receiver]
    rfl
  case isFalse => exact others

theorem plain_between (steady : PlainSteady env tx state) : Passes env tx context txIndex state := by
  have idle : (entered tx state).processingPayable = false := between.idle
  by_cases priced : Priced tx
  · by_cases covered : Covered tx state
    · by_cases receivable : Receivable tx state
      · obtain ⟨delivered, transfer, shift⟩ := classicTransfer_ok (covered_entered.mpr covered) (receivable_entered.mpr receivable)
        by_cases fails : ContractFails env tx state
        · exact failed_between between classic steady covered receivable transfer shift fails
        · have settling := steady.settling covered receivable
          unfold ContractFails at fails
          rw [atContract_eq transfer] at fails settling
          cases call : isCall env tx delivered with
          | false =>
            obtain ⟨codeDone, _, _, createdDone⟩ := lists_paid between.settled shift.paid
            refine settled_concluded between classic transfer (contractPart_none call)
              ((between.settled.entered tx).paid shift.paid) codeDone createdDone (first_paid shift.paid)
              (fun addr unnoted receiver => ?_) (shift.paid.payable.trans idle)
            rw [shift.accessed, accessed_entered between.settled, List.mem_singleton] at unnoted
            have same := held_delivered shift unnoted
            rwa [onlyAt_of_ne receiver, Nat.add_zero] at same
          | true =>
            cases outcome : callOutcome env tx delivered with
            | error what => exact absurd ⟨call, what, outcome⟩ fails
            | ok returned =>
              rcases returned with ⟨world, logger⟩
              exact returned_between between classic transfer shift call outcome fun paid => settling call paid world logger outcome
      · exact full_between between classic steady covered receivable
    · refine settled_refunded between classic
        (classicBody_stuck (classicTransfer_short priced (mt covered_entered.mp covered))) (paid_setHeld _ _ _) rfl rfl
        (fun addr apart => ?_) ((short_iff priced covered).mp steady.completable)
      have idleLater : ∀ left, (setHeld (entered tx state) tx.from left).processingPayable = false := fun _ => idle
      rw [held_setHeld, if_neg apart, idleLater, held_entered]
      simp
  · obtain ⟨what, stuck⟩ : ∃ what, (classicTransfer env tx).eval (entered tx state) = (.error (.exception what), entered tx state) :=
      classicTransfer_wide priced
    refine settled_refunded between classic (classicBody_stuck stuck) (Paid.refl _) rfl rfl (fun addr _ => ?_)
      ((unpriced_iff priced).mp steady.completable)
    rw [idle, held_entered]
    simp

end Settled

/-- A transfer that can be paid and calls no contract is steady. -/
theorem steady_transfer (classic : isEvmTransaction tx state = false) (covered : Covered tx state)
    (receivable : Receivable tx state) (plain : isCall env tx (atContract env tx state) = false) :
    Steady env tx context state := by
  have returns : ¬ ContractFails env tx state := fun fails => absurd (plain.symm.trans fails.1) Bool.false_ne_true
  have completable : PlainCompletable env tx state :=
    { unpriced := fun unpriced => absurd (priced_of_covered covered) unpriced
      short := fun _ short => absurd covered short
      full := fun _ full => absurd receivable full
      failing := fun _ _ fails => absurd fails returns }
  unfold Steady
  rw [classic, if_neg Bool.false_ne_true]
  exact {
    completable
    full := fun _ full => absurd receivable full
    failing := fun _ _ fails => absurd fails returns
    settling := fun _ _ call => absurd (plain.symm.trans call) Bool.false_ne_true }

/-- A steady transaction completes and leaves everything in step. -/
theorem transaction_between (between : Between state) (steady : Steady env tx context state) : Passes env tx context txIndex state := by
  unfold Steady at steady
  split at steady
  case isTrue evm => exact machine_between between evm steady
  case isFalse classic => exact plain_between between (Bool.not_eq_true _ ▸ classic) steady

end Plain
section Calls
variable {env : Env World} {callInfo : EthCallInfo} {state : State World} {α : Type}

/-- A dry run has no way out between its transfer and its rollback, or never gets there. -/
def DrySteady (callInfo : EthCallInfo) (state : State World) : Prop :=
  (callInfo.value ≠ 0 ∧ callInfo.to = 0) ∨ DryTransferable callInfo state

/-- Everything about the host but the generator is as in a settled state. -/
theorem between_of_host {after : State World} (between : Between state) (flag : after.processingPayable = state.processingPayable)
    (host : after.evmHost = { state.evmHost with randomGen := after.evmHost.randomGen }) : Between after := by
  refine ⟨?_, flag.trans between.idle⟩
  rw [host]
  exact { between.settled with }

theorem between_withMutex (between : Between state) (mutex : Mutex) : Between (withMutex state mutex) :=
  between_of_host between rfl rfl

theorem between_surveyed (between : Between state) : Between (surveyed env callInfo state) := by
  unfold surveyed
  split
  · exact between_of_host between rfl rfl
  · exact between

/-- The rollback of a dry run brings everything back in step. -/
theorem dryExecute_between (between : Between state) (taken : state.stateMutex ≠ .free) (steady : DrySteady callInfo state) :
    Between ((dryExecute env callInfo).eval state).2 := by
  have seeded : Between (reseeded state) := between_of_host between rfl rfl
  rcases steady with ⟨some, create⟩ | transferable
  · rw [dryExecute_stops (dryTransfer_waits some create taken)]
    exact seeded
  · have entered : ∃ moved, (dryTransfer env callInfo).eval (reseeded state) = (.ok (), moved) ∧
        DryMoved callInfo (reseeded state) moved := dryTransfer_ok transferable
    obtain ⟨moved, entry, shift⟩ := entered
    obtain ⟨result, host, _, executed, run⟩ := dryExecute_ok entry
    rw [run]
    have start : Noted moved.evmHost := seeded.settled.noted.paid shift.paid
    have ran : Noted host := start.written executed.toWritten
    have back : Noted host.revert.revertCode := ran.revert.revertCode
    have noNonces : host.accessedAccountsNonces = [] := by
      rw [executed.accessedAccountsNonces, shift.paid.host]
      exact between.settled.accessedAccountsNonces
    refine ⟨?_, (shift.paid.payable).trans between.idle⟩
    show Settled (restored host)
    unfold restored
    constructor
    case balance =>
      intro addr
      rw [revertBalance_balance]
      split
      case isTrue => exact inStep_revert _
      case isFalse unnoted =>
        rw [revertCode_balance, revert_balance, executed.balance]
        have unlisted : addr ∉ moved.evmHost.accessedAccountsBalances := executed.accessedAccountsBalances ▸ unnoted
        refine balancesNoted_of seeded.settled shift.paid.first (fun other unlisted => ?_) addr unlisted
        rw [shift.accessed, seeded.settled.accessedAccountsBalances, List.nil_append] at unlisted
        have here := shift.held other
        by_cases none : callInfo.value = 0
        · rw [none, show (0 : Uint256).toNat = 0 from rfl, onlyAt_zero, onlyAt_zero] at here
          exact here
        · rw [if_neg none, List.mem_cons, List.mem_singleton, not_or] at unlisted
          rwa [onlyAt_of_ne unlisted.1, onlyAt_of_ne unlisted.2] at here
    case nonce =>
      intro addr
      rw [revertBalance_nonce]
      exact back.nonce addr (by rw [show host.revert.revertCode.accessedAccountsNonces = [] from noNonces]; exact List.not_mem_nil)
    case code =>
      intro addr
      rw [revertBalance_code]
      exact back.code addr List.not_mem_nil
    case codeHash =>
      intro addr
      rw [revertBalance_codeHash]
      exact back.codeHash addr List.not_mem_nil
    case storage =>
      intro addr key
      rw [revertBalance_storage]
      exact back.storage addr key List.not_mem_nil
    case transientStorage =>
      intro addr
      rw [revertBalance_transientStorage]
      exact back.transientStorage addr List.not_mem_nil
    case accessedAccountsNonces => exact noNonces
    all_goals rfl

theorem dryCall_between {runs : Prop} {start : State World} {action : Act World α} (between : Between start)
    (call : DryCall env callInfo state runs start action)
    (steady : runs → DrySteady callInfo start) : Between (action.eval state).2 := by
  by_cases machine : runs
  · rcases run : (dryExecute env callInfo).eval (withMutex start .unique) with ⟨stop, after⟩
    have final : Between after := by
      have kept : Between ((dryExecute env callInfo).eval (withMutex start .unique)).2 :=
        dryExecute_between (between_withMutex between .unique) (by simp [withMutex]) (steady machine)
      rwa [run] at kept
    rcases call.executes machine run with ⟨_, waits⟩ | ⟨_, result, _, ends⟩
    · rw [waits]
      exact final
    · rw [ends]
      exact between_withMutex final .free
  · obtain ⟨result, after, seen, _, same | seeded⟩ := call.answers machine
    · rw [seen, same]
      exact between
    · rw [seen, seeded]
      exact between_of_host between rfl rfl

end Calls
variable {env : Env World} {state : State World}

private theorem settled_setBoth {host : EVMHost} (settled : Settled host) (addr : Address) (balance : Uint256) :
    Settled ((host.setFirstBalance addr balance).setBalance addr balance) := by
  have kept : ∀ {β : Type} (project : EVMAccount → β),
      (∀ (acc : EVMAccount) balance, project { acc with balance := balance } = project acc) → ∀ other,
      project (((host.setFirstBalance addr balance).setBalance addr balance).account other) = project (host.account other) :=
    fun project same other => (Table.modify_project project _ _ _ fun acc => same acc _).trans
      (Table.modify_project project _ _ _ fun acc => same acc _)
  refine { settled with
    balance := fun other => ?_
    nonce := fun other => by rw [kept EVMAccount.nonce fun _ _ => rfl]; exact settled.nonce other
    code := fun other => by rw [kept EVMAccount.code fun _ _ => rfl]; exact settled.code other
    codeHash := fun other => by rw [kept EVMAccount.codeHash fun _ _ => rfl]; exact settled.codeHash other
    storage := fun other key => by rw [kept EVMAccount.storage fun _ _ => rfl]; exact settled.storage other key
    transientStorage := fun other => by
      rw [kept EVMAccount.transientStorage fun _ _ => rfl]; exact settled.transientStorage other }
  simp only [EVMHost.account, EVMHost.setBalance, EVMHost.setFirstBalance, Table.modify_value]
  split
  case isTrue => rfl
  case isFalse => exact settled.balance other

private theorem add_fits {left right : Uint256} (fits : left.toNat + right.toNat < 2 ^ 256) :
    Uint256.add left right = .ok (BitVec.ofNat 256 (left.toNat + right.toNat)) := if_pos fits

/-- Both versions of a balance grow by the same amount, if it fits. -/
private theorem creditBoth_between (between : Between state) (addr : Address) (amount : Uint256)
    (fits : held state addr + amount.toNat < 2 ^ 256) :
    Between ((creditFirst env addr amount >>= fun _ => credit env addr amount).eval state).2 := by
  let sum : Uint256 := BitVec.ofNat 256 (held state addr + amount.toNat)
  have original : (creditFirst env addr amount).eval state =
      (.ok (), withHost state (state.evmHost.setFirstBalance addr sum)) := by
    have same : (state.evmHost.account addr).balance.first = state.balanceOf addr := between.settled.balance addr
    unfold creditFirst
    rw [Action.eval_bind, Action.eval_get]
    simp only [same, add_fits fits]
    rfl
  have heldThen : held (withHost state (state.evmHost.setFirstBalance addr sum)) addr = held state addr := by
    simp only [held, State.balanceOf, EVMHost.balanceOf, withHost_evmHost, EVMHost.setFirstBalance, EVMHost.account,
      Table.modify_value_self]
  have current : (credit env addr amount).eval (withHost state (state.evmHost.setFirstBalance addr sum)) =
      (.ok (), withHost state ((state.evmHost.setFirstBalance addr sum).setBalance addr sum)) := by
    rw [eval_credit, heldThen, if_pos fits]
    rfl
  rw [eval_seq_ok original, current]
  exact ⟨settled_setBoth between.settled addr sum, between.idle⟩

theorem holding_between {α : Type} {mode : Mutex} {body : Act World α} (between : Between state)
    (kept : Between (body.eval (withMutex state mode)).2) : Between ((holding mode body).eval state).2 := by
  by_cases free : state.stateMutex = .free
  · rw [eval_holding free]
    rcases seen : body.eval (withMutex state mode) with ⟨(what | _) | value, after⟩
    · rw [seen] at kept
      exact between_withMutex kept .free
    · rw [seen] at kept
      exact kept
    · rw [seen] at kept
      exact between_withMutex kept .free
  · rw [eval_holding_held free]
    exact between

private theorem addBalance_between (between : Between state) (addr : Address) (fits : held state addr + faucet.toNat < 2 ^ 256) :
    Between ((addBalance env addr).eval state).2 :=
  holding_between between (creditBoth_between (between_withMutex between .unique) addr faucet fits)

/-- An account whose original and current values agree. -/
structure Level (acc : EVMAccount) : Prop where
  balance : acc.balance.InStep
  nonce : acc.nonce.InStep
  code : acc.code.InStep
  codeHash : acc.codeHash.InStep
  storage : ∀ key, (acc.storage.value key).InStep
  transientStorage : acc.transientStorage = default

/-- Every entry of the database fills in both versions at once. -/
private theorem level_fold {κ : Type} (entries : List κ) (place : κ → Address) (update : κ → EVMAccount → EVMAccount)
    (kept : ∀ entry acc, Level acc → Level (update entry acc)) :
    ∀ accounts : Table Address EVMAccount, (∀ addr, Level (accounts.value addr)) → ∀ addr,
      Level ((entries.foldl (fun accounts entry => accounts.modify (place entry) (update entry)) accounts).value addr) := by
  induction entries with
  | nil => exact fun accounts start => start
  | cons entry rest ih =>
    intro accounts start
    refine ih _ fun addr => ?_
    rw [Table.modify_value]
    split
    · exact kept entry _ (start _)
    · exact start addr

theorem construct_between (db : Database) (world : World) (events : List Event) (rdposSeed : Hash) (storage : Chain) :
    Between (construct db world events rdposSeed storage) := by
  have blank : ∀ addr, Level ((default : Table Address EVMAccount).value addr) :=
    fun _ => ⟨rfl, rfl, rfl, rfl, fun _ => rfl, rfl⟩
  have codes := level_fold db.accountsCode (·.1) (fun entry acc => { acc with code := ⟨entry.2, entry.2⟩ })
    (fun entry acc level => { level with code := rfl }) default blank
  have hashes := level_fold db.accountsHashcode (·.1) (fun entry acc => { acc with codeHash := ⟨entry.2, entry.2⟩ })
    (fun entry acc level => { level with codeHash := rfl }) _ codes
  have slots := level_fold db.accountsStorage (·.1)
    (fun entry acc => { acc with storage := acc.storage.modify entry.2.1 fun _ => ⟨entry.2.2, entry.2.2⟩ })
    (fun entry acc level => { level with
      storage := fun key => by
        show ((acc.storage.modify entry.2.1 fun _ => ⟨entry.2.2, entry.2.2⟩).value key).InStep
        rw [Table.modify_value]
        split
        · rfl
        · exact level.storage key }) _ hashes
  have accounts := level_fold db.nativeAccounts (·.1)
    (fun entry acc => { acc with balance := ⟨entry.2.1, entry.2.1⟩, nonce := ⟨entry.2.2, entry.2.2⟩ })
    (fun entry acc level => { level with balance := rfl, nonce := rfl }) _ slots
  refine ⟨?_, rfl⟩
  constructor
  case balance => exact fun addr => (accounts addr).balance
  case nonce => exact fun addr => (accounts addr).nonce
  case code => exact fun addr => (accounts addr).code
  case codeHash => exact fun addr => (accounts addr).codeHash
  case storage => exact fun addr => (accounts addr).storage
  case transientStorage => exact fun addr => (accounts addr).transientStorage
  all_goals rfl

/-- A run in which every step meets its condition. -/
inductive SteadyRun (env : Env World) : State World → Prop where
  | construct (db : Database) (world : World) (events : List Event) (rdposSeed : Hash) (storage : Chain) :
      SteadyRun env (construct db world events rdposSeed storage)
  | addBalance {state : State World} (addr : Address) (run : SteadyRun env state)
      (fits : held state addr + faucet.toNat < 2 ^ 256) : SteadyRun env ((addBalance env addr).eval state).2
  | beginBlock {state : State World} (block : Block) (run : SteadyRun env state) :
      SteadyRun env ((beginBlock block).eval state).2
  | processTransaction {state : State World} (tx : TxBlock) (context : BlockContext) (txIndex : UInt64)
      (run : SteadyRun env state) (steady : Steady env tx context state) :
      SteadyRun env ((processTransaction env tx context txIndex).eval state).2
  | ethCall {state : State World} (callInfo : EthCallInfo) (run : SteadyRun env state)
      (steady : ethCallRuns env callInfo state = true → DrySteady callInfo state) :
      SteadyRun env ((ethCall env callInfo).eval state).2
  | estimateGas {state : State World} (callInfo : EthCallInfo) (run : SteadyRun env state)
      (steady : EstimateRuns env callInfo state → DrySteady callInfo state) :
      SteadyRun env ((estimateGas env callInfo).eval state).2

private theorem drySteady_surveyed {callInfo : EthCallInfo} (steady : DrySteady callInfo state) :
    DrySteady callInfo (surveyed env callInfo state) := by
  have same : ∀ addr, held (surveyed env callInfo state) addr = held state addr := by
    intro addr
    simp only [held, State.balanceOf, EVMHost.balanceOf, EVMHost.account, accounts_surveyed]
  unfold DrySteady DryTransferable at steady ⊢
  rwa [same, same]

theorem steadyRun_between (run : SteadyRun env state) : Between state := by
  induction run with
  | construct db world events rdposSeed storage => exact construct_between db world events rdposSeed storage
  | addBalance addr run fits between => exact addBalance_between between addr fits
  | beginBlock block run between => exact between_of_host between rfl rfl
  | processTransaction tx context txIndex run steady between =>
    have completed : ∃ after, (processTransaction env tx context txIndex).eval _ = (.ok (), after) ∧ Between after :=
      transaction_between between steady
    obtain ⟨after, completes, kept⟩ := completed
    rw [completes]
    exact kept
  | @ethCall state callInfo run steady between =>
    by_cases free : state.stateMutex = .free
    · exact dryCall_between between (dryCall_ethCall free) steady
    · rw [show (ethCall env callInfo).eval state = (.error .deadlock, state) from eval_seq_error (eval_holding_held free)]
      exact between
  | @estimateGas state callInfo run steady between =>
    by_cases free : state.stateMutex = .free
    · exact dryCall_between (between_surveyed between) (dryCall_estimateGas free) fun runs =>
        drySteady_surveyed (steady runs)
    · rw [show (estimateGas env callInfo).eval state = (.error .deadlock, state) from eval_seq_error (eval_holding_held free)]
      exact between

/-- In every state of a steady run original and current values agree and no list is left. -/
theorem steady_run_settled (run : SteadyRun env state) : Settled state.evmHost := (steadyRun_between run).settled

theorem transfer_run_settled : Settled ((processTransaction stoppingEnv (transfer 0 4) firstBlock 0).eval
      freshState).2.evmHost := by
  have covered : Covered (transfer 0 4) freshState := by
    unfold Covered
    decide
  have receivable : Receivable (transfer 0 4) freshState := .inr (by decide)
  exact steady_run_settled (.processTransaction _ _ _ (.construct _ _ _ _ _)
    (steady_transfer (by decide) covered receivable (by decide)))

/-- A call that throws leaves its receiver with a balance that was never noted. -/
theorem failing_call_unsettles : freshState.validateTransactionInternal donation = .ok .notInvalid ∧
    ((processTransaction stoppingEnv donation firstBlock 0).eval freshState).1 = .ok () ∧
    ¬ Settled ((processTransaction stoppingEnv donation firstBlock 0).eval freshState).2.evmHost := by
  have apart : (((processTransaction stoppingEnv donation firstBlock 0).eval
      freshState).2.evmHost.account rdPoSAddress).balance = ⟨0, 100000⟩ := by decide
  refine ⟨by decide, by decide, fun settled => ?_⟩
  have level := settled.balance rdPoSAddress
  rw [apart] at level
  exact absurd (show (0 : Uint256) = 100000 from level) (by decide)

end OrbiterSDK.Proofs.SteadyRuns
