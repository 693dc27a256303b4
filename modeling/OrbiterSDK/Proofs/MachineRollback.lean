import OrbiterSDK.Proofs.Completed
import OrbiterSDK.Proofs.SteadyRuns

/-! What a failed run of the machine costs. The handler undoes everything the run has
noted, so besides the fee only the hash of a contract whose creation was taken back
can be missed. -/

namespace OrbiterSDK.Proofs.MachineRollback
open Lib State HostCommit Statements Transaction Classic Paths Versions Conservation NonceOrder BlockCompletion SteadyRuns BlockRun Locks DryRuns Completed

variable {World : Type}

/-- The sender has paid a fee and used a nonce, and nothing else has changed. -/
structure OnlyCharged (tx : TxBlock) (fee : Nat) (before after : State World) : Prop where
  balance : ∀ addr, held after addr + onlyAt tx.from addr fee = held before addr
  nonce : ∀ addr, after.nonceOf addr = if addr = tx.from then before.nonceOf addr + 1 else before.nonceOf addr
  code : ∀ addr, (after.evmHost.account addr).code = (before.evmHost.account addr).code
  codeHash : ∀ addr, (after.evmHost.account addr).codeHash = (before.evmHost.account addr).codeHash
  storage : ∀ addr key, (after.evmHost.account addr).storage.value key = (before.evmHost.account addr).storage.value key
  transientStorage : ∀ addr, (after.evmHost.account addr).transientStorage = (before.evmHost.account addr).transientStorage
  contractAddresses : after.evmHost.contractAddresses = before.evmHost.contractAddresses
  events : after.contractManager.eventManager = before.contractManager.eventManager

variable {env : Env World} {tx : TxBlock} {context : BlockContext} {txIndex : UInt64} {state : State World}
variable {moved returned : State World} {result : EvmcResult} {host : EVMHost}

/-- The hashes under which the failed run has stored an address. -/
theorem created_returned (settled : Settled state.evmHost) (shift : Moved env tx (entered tx state) moved)
    (ran : machine env tx context moved = (.ok result, host))
    (back : Returned env tx (charged tx result (withHost moved host)) returned) :
    returned.evmHost.recentlyCreatedContracts = if tx.to = 0 ∧ result.statusCode = .success then [tx.hash] else [] := by
  have none : (prepared tx context moved).recentlyCreatedContracts = [] := by
    show moved.evmHost.recentlyCreatedContracts = []
    rw [shift.paid.host]
    exact settled.recentlyCreatedContracts
  have created := execute_created ran
  rw [none, List.nil_append] at created
  rw [back.paid.host]
  exact created

/-- The accounts after a failed run, balances and nonces apart. -/
private theorem undone (written : Written (prepared tx context moved) returned.evmHost) (settled : Settled state.evmHost)
    (shift : Moved env tx (entered tx state) moved) (addr : Address) :
    ((reverted returned).evmHost.account addr).code = (state.evmHost.account addr).code ∧
    ((reverted returned).evmHost.account addr).codeHash = (state.evmHost.account addr).codeHash ∧
    (∀ key, ((reverted returned).evmHost.account addr).storage.value key = (state.evmHost.account addr).storage.value key) ∧
    ((reverted returned).evmHost.account addr).transientStorage = (state.evmHost.account addr).transientStorage := by
  have same : (prepared tx context moved).account addr = _ := account_prepared shift addr
  have back : ∀ {α : Type} {pair : Versioned α}, pair.InStep → pair.revert = pair := fun inStep => Versioned.ext rfl inStep
  refine ⟨?_, ?_, fun key => ?_, ?_⟩
  · refine (undone_code written addr).trans ?_
    rw [same]
    split
    · exact back (settled.code addr)
    · rfl
  · refine (undone_codeHash written addr).trans ?_
    rw [same]
    split
    · exact back (settled.codeHash addr)
    · rfl
  · refine (undone_storage written addr key).trans ?_
    rw [same]
    split
    · exact back (settled.storage addr key)
    · rfl
  · refine (undone_transientStorage written addr).trans ?_
    rw [same]
    split
    · exact (settled.transientStorage addr).symm
    · rfl

/-- Erasing the hash of a creation gives the addresses back, unless it was there before. -/
private theorem contractAddresses_restored (written : Written (prepared tx context moved) returned.evmHost)
    (shift : Moved env tx (entered tx state) moved) :
    (reverted returned).evmHost.contractAddresses = state.evmHost.contractAddresses ↔
      ∀ hash ∈ returned.evmHost.recentlyCreatedContracts, hash ∉ state.evmHost.contractAddresses.keys := by
  have start : (prepared tx context moved).contractAddresses = state.evmHost.contractAddresses := by
    show moved.evmHost.contractAddresses = _
    rw [shift.paid.host]
    rfl
  have found := undone_contractAddresses written
  rw [start] at found
  constructor
  · intro same hash created present
    have here := found hash
    rw [if_pos created, show returned.evmHost.revert.revertCode.contractAddresses = _ from same] at here
    have some := (Table.find_isSome state.evmHost.contractAddresses hash).mpr present
    rw [here] at some
    cases some
  · intro fresh
    refine Table.eq_of_find fun hash => (found hash).trans ?_
    split
    case isTrue created =>
      exact (if_neg (fresh hash created)).symm
    case isFalse => rfl

/-- A failed run that is paid for costs its fee and nothing else, up to the addresses of contracts. -/
private theorem onlyCharged_iff (settled : Settled state.evmHost) (evm : isEvmTransaction tx state = true)
    (transferable : Transferable env tx (entered tx state))
    (entry : (enterMachine env tx).eval (entered tx state) = (.ok (), moved))
    (shift : Moved env tx (entered tx state) moved) (ran : machine env tx context moved = (.ok result, host))
    (failed : Failed result host) (covered : feeOf tx result ≤ held (withHost moved host) tx.from) :
    (∃ after, (processTransaction env tx context txIndex).eval state = (.ok (), after) ∧
      OnlyCharged tx (feeOf tx result) state after) ↔
    (tx.to = 0 → result.statusCode = .success → tx.hash ∉ state.evmHost.contractAddresses.keys) := by
  have returnable := returnable_of_charged transferable shift ran covered
  have body : (evmBody env tx context txIndex).eval moved = _ := evmBody_failed ran covered failed
  obtain ⟨returned, completes, back⟩ := process_caught evm entry body returnable
  have written := written_caught (machine_ok ran).2.1 (paid_setHeld _ _ _) back
  have restored := contractAddresses_restored written shift
  rw [created_returned settled shift ran back] at restored
  have fresh : (∀ hash ∈ if tx.to = 0 ∧ result.statusCode = .success then [tx.hash] else [],
      hash ∉ state.evmHost.contractAddresses.keys) ↔
      (tx.to = 0 → result.statusCode = .success → tx.hash ∉ state.evmHost.contractAddresses.keys) := by
    split
    case isTrue both => simp [both]
    case isFalse neither => simp_all
  rw [← fresh, ← restored]
  have account := undone written settled shift
  constructor
  · rintro ⟨after, seen, only⟩
    rw [completes] at seen
    cases seen
    exact only.contractAddresses
  · intro addresses
    refine ⟨_, completes, ?_, nonceOf_processed completes, fun addr => ?_, fun addr => ?_, fun addr key => ?_, fun addr => ?_,
      addresses, ?_⟩
    · intro addr
      have paid := held_charged covered addr
      have moves := shift.held addr
      have returns := back.held addr
      rw [held_ran ran] at paid
      rw [held_entered] at moves
      rw [held_finished, held_reverted]
      omega
    · exact (finished_project EVMAccount.code (fun _ _ => rfl) (fun _ _ => rfl) tx _ addr).trans (account addr).1
    · exact (finished_project EVMAccount.codeHash (fun _ _ => rfl) (fun _ _ => rfl) tx _ addr).trans (account addr).2.1
    · exact (finished_project (fun acc => acc.storage.value key) (fun _ _ => rfl) (fun _ _ => rfl) tx _ addr).trans
        ((account addr).2.2.1 key)
    · exact (finished_project EVMAccount.transientStorage (fun _ _ => rfl) (fun _ _ => rfl) tx _ addr).trans
        (account addr).2.2.2
    · show returned.contractManager.eventManager = _
      rw [back.paid.state]
      show moved.contractManager.eventManager = _
      rw [shift.paid.state]
      rfl

/-- Whatever the failed debit of a fee leaves, it is not what the sender held without the fee. -/
private theorem unpaid_overcharges (evm : isEvmTransaction tx state = true)
    (entry : (enterMachine env tx).eval (entered tx state) = (.ok (), moved))
    (shift : Moved env tx (entered tx state) moved) (ran : machine env tx context moved = (.ok result, host))
    (short : held moved tx.from < feeOf tx result) :
    ¬ ∃ after, (processTransaction env tx context txIndex).eval state = (.ok (), after) ∧
      OnlyCharged tx (feeOf tx result) state after := by
  rintro ⟨after, seen, only⟩
  have same := held_ran ran
  have moves := shift.held tx.from
  rw [onlyAt_self, held_entered] at moves
  have paid := only.balance tx.from
  rw [onlyAt_self] at paid
  -- The handler returns the value, so the sender ends with what the body left it and the value.
  have returns : ∀ {later : State World} {what : Exception},
      (evmBody env tx context txIndex).eval moved = (.error (.exception what), later) →
      held after tx.from + onlyAt (realTo env tx) tx.from tx.value.toNat = held later tx.from + tx.value.toNat := by
    intro later what throws
    by_cases returnable : Returnable env tx later
    · obtain ⟨returned, completes, back⟩ := process_caught evm entry throws returnable
      rw [completes] at seen
      cases seen
      have here := back.held tx.from
      rwa [onlyAt_self, ← held_reverted, ← held_finished tx] at here
    · obtain ⟨error, later, escapes⟩ := process_escaped evm entry throws returnable
      rw [escapes] at seen
      cases seen
  rcases Nat.lt_or_ge (feeOf tx result) (2 ^ 256) with fits | wide
  · have left := returns (evmBody_unpaid ran fits (by rwa [same]))
    by_cases self : tx.from = realTo env tx
    · rw [← self, onlyAt_self] at left moves
      omega
    · rw [onlyAt_of_ne self] at left moves
      omega
  · have bound := held_lt state tx.from
    omega

/-- A transaction whose run of the machine fails changes the nonce and the fee of its
sender and nothing else, exactly if its value can be moved, the fee can be paid besides
it, and a contract whose creation is taken back was not known under the hash before. -/
theorem failed_machine_only_charges_iff {env : Env World} {tx : TxBlock} {context : BlockContext} {txIndex : UInt64}
    {state : State World} {result : EvmcResult} {host : EVMHost} (settled : Settled state.evmHost)
    (evm : isEvmTransaction tx state = true)
    (ran : machine env tx context (atMachine env tx state) = (.ok result, host)) (failed : Failed result host) :
    (∃ after, (processTransaction env tx context txIndex).eval state = (.ok (), after) ∧
      OnlyCharged tx (feeOf tx result) state after) ↔
    Transferable env tx state ∧ MachineAffordable env tx context state ∧
      (tx.to = 0 → result.statusCode = .success → tx.hash ∉ state.evmHost.contractAddresses.keys) := by
  by_cases transferable : Transferable env tx state
  · have transferableThen := transferable_entered.mpr transferable
    obtain ⟨moved, entry, shift⟩ := enterMachine_ok transferableThen
    rw [atMachine, entry] at ran
    rw [affordable_iff shift, feeDue_machine evm entry, ran, and_iff_right transferable]
    rcases Nat.lt_or_ge (held moved tx.from) (feeOf tx result) with short | covered
    · exact iff_of_false (unpaid_overcharges evm entry shift ran short) fun both => absurd both.1 (Nat.not_le.mpr short)
    · have coveredRan : feeOf tx result ≤ held (withHost moved host) tx.from := by rwa [held_ran ran]
      rw [onlyCharged_iff settled evm transferableThen entry shift ran failed coveredRan]
      exact (and_iff_right covered).symm
  · refine iff_of_false ?_ fun both => transferable both.1
    rintro ⟨after, seen, _⟩
    have escaped : ∃ error after, (processTransaction env tx context txIndex).eval state = (.error (.exception error), after) :=
      process_stuck evm transferable
    obtain ⟨error, later, escapes⟩ := escaped
    rw [escapes] at seen
    cases seen

theorem reverting_payment_only_charges :
    ∃ after, (processTransaction (bareEnv fun _ _ => .done .revert 100 []) (payment 4) firstBlock 0).eval contractState =
      (.ok (), after) ∧ OnlyCharged (payment 4) (feeOf (payment 4) ⟨.revert, 20900, []⟩) contractState after := by
  have settled : Settled contractState.evmHost := (construct_between _ _ _ _ _).settled
  have ran : (machine (bareEnv fun _ _ => .done .revert 100 []) (payment 4) firstBlock
      (atMachine (bareEnv fun _ _ => .done .revert 100 []) (payment 4) contractState)).1 = .ok ⟨.revert, 20900, []⟩ := by
    decide
  refine (failed_machine_only_charges_iff settled (by decide) (Prod.ext ran rfl) (.inl (by decide))).mpr ⟨?_, ?_, ?_⟩
  · exact .inr ⟨by decide, .inr (by decide)⟩
  · unfold MachineAffordable
    decide
  · exact fun create => absurd create (by decide)

def gift : TxBlock :=
  { donation with
    «to» := 9
    value := 900000000000000000000
    hash := 4 }

def visit : TxBlock :=
  { donation with
    «to» := 5
    value := 0
    gasLimit := 1000000
    maxFeePerGas := 500000000000000
    hash := 5 }

/-- A machine that uses up its gas and fails. -/
def failing : Env Unit := bareEnv fun _ _ => .done .failure 1000000 []

/-- The visit waits in the mempool. -/
def visitorState : State Unit := ((addTx visit).eval contractState).2

def visitBlock : Block := nextBlock [gift, visit]

/-- The state in which the visit is executed. -/
def afterGift : State Unit := ((processTransaction failing gift (blockContext failing visitBlock) 0).eval
  (opened visitBlock visitorState)).2

private theorem visitorState_eq : (addTx visit).eval contractState = (.ok .notInvalid,
    { contractState with mempool := insertTx contractState.mempool visit.hash visit }) := by
  rw [eval_addTx rfl, show contractState.validateTransactionInternal visit = .ok .notInvalid by decide]
  rfl

private theorem visitorState_reachable : Reachable failing visitorState := by
  have reachable : Reachable failing contractState := .construct _ _ _ _ _
  have added : (perform failing (.addTx visit)).eval contractState = (.ok (), visitorState) := by
    unfold visitorState
    rw [visitorState_eq]
    exact eval_seq_ok visitorState_eq
  exact .step (.addTx visit) reachable added (returned_ended ())

private theorem gift_done : (processTransaction failing gift (blockContext failing visitBlock) 0).eval
    (opened visitBlock visitorState) = (.ok (), afterGift) := Prod.ext (by decide) rfl

private theorem afterGift_settled : Settled afterGift.evmHost := by
  have start : Between visitorState := by
    have fresh : Between contractState := construct_between _ _ _ _ _
    unfold visitorState
    rw [visitorState_eq]
    exact ⟨fresh.settled, fresh.idle⟩
  have begun : Between (opened visitBlock visitorState) := between_of_host start rfl rfl
  have covered : Covered gift (opened visitBlock visitorState) := by
    unfold Covered
    decide
  have steady : Steady failing gift (blockContext failing visitBlock) (opened visitBlock visitorState) :=
    steady_transfer (by decide) covered (.inr (by decide)) (by decide)
  have completed : ∃ after, (processTransaction failing gift (blockContext failing visitBlock) 0).eval
      (opened visitBlock visitorState) = (.ok (), after) ∧ Between after := transaction_between begun steady
  obtain ⟨after, completes, between⟩ := completed
  rw [gift_done] at completes
  cases completes
  exact between.settled

/-- The sender of the visit does not hold its fee, and the failed debit leaves another balance. -/
theorem unpaid_visit_corrupts_balance :
    Reachable failing visitorState ∧ Accepts failing visitorState visitBlock ∧
    (afterGift, visit) ∈ blockExecutions failing visitBlock visitorState ∧ Settled afterGift.evmHost ∧
    afterGift.validateTransactionInternal visit = .ok .notInvalid ∧
    (machine failing visit (blockContext failing visitBlock) (atMachine failing visit afterGift)).1 = .ok ⟨.failure, 0, []⟩ ∧
    held afterGift 7 = 99999999999999979000 ∧
    held ((processTransaction failing visit (blockContext failing visitBlock) 1).eval afterGift).2 7 =
      400000000000000021000 ∧
    ¬ ∃ after, (processTransaction failing visit (blockContext failing visitBlock) 1).eval afterGift = (.ok (), after) ∧
      OnlyCharged visit (feeOf visit ⟨.failure, 0, []⟩) afterGift after := by
  have before : held afterGift 7 = 99999999999999979000 := by decide
  refine ⟨visitorState_reachable, ?_, ?_, afterGift_settled, by decide, by decide, before, by decide, ?_⟩
  · unfold Accepts
    decide
  · show _ ∈ executions failing (blockContext failing visitBlock) [gift, visit] 0 (opened visitBlock visitorState)
    rw [executions, gift_done]
    refine List.mem_cons_of_mem _ ?_
    show _ ∈ executions failing (blockContext failing visitBlock) [visit] 1 afterGift
    rw [executions]
    exact List.mem_cons_self
  · rintro ⟨after, _, only⟩
    have paid := only.balance 7
    rw [before, show onlyAt visit.from 7 (feeOf visit ⟨.failure, 0, []⟩) = 500000000000000000000 by decide] at paid
    omega

end OrbiterSDK.Proofs.MachineRollback
