import OrbiterSDK.Proofs.Classic

/-! Whole transactions. A transaction completes exactly if its branch does, and the
branch fails to complete only where a checked operation stands outside of every
handler or inside one. -/

namespace OrbiterSDK.Proofs.Paths
open Lib State HostCommit Statements Transaction Classic

variable {World : Type}

theorem held_finished (tx : TxBlock) (state : State World) (addr : Address) :
    held (finished tx state) addr = held state addr := by
  have same : ((state.evmHost.accounts.modify tx.from fun acc =>
      { acc with nonce := acc.nonce.write (acc.nonce.second + 1) }).value addr).balance =
      (state.evmHost.accounts.value addr).balance :=
    Table.modify_project EVMAccount.balance _ _ _ fun _ => rfl
  simp only [held, State.balanceOf, EVMHost.balanceOf, finished, withHost_evmHost, commitBalance_balance,
    commitNonce_balance]
  simp only [EVMHost.account, same]
  split
  · rfl
  · rfl

theorem held_reverted (state : State World) (addr : Address) : held (reverted state) addr = held state addr := by
  simp only [held, State.balanceOf, EVMHost.balanceOf, reverted, withHost_evmHost, revertCode_balance, revert_balance]

theorem held_concluded (tx : TxBlock) (state : State World) (addr : Address) :
    held (concluded tx state) addr = held state addr := by
  simp only [held, State.balanceOf, EVMHost.balanceOf, concluded, withHost_evmHost, commit_balance]
  rfl

section Moments
variable (env : Env World) (tx : TxBlock) (state : State World)

/-- The state in which the machine is started. -/
def atMachine : State World := ((enterMachine env tx).eval (entered tx state)).2

/-- The state in which a contract is called. -/
def atContract : State World := ((classicTransfer env tx).eval (entered tx state)).2

/-- A contract is called and throws. -/
def ContractFails : Prop :=
  isCall env tx (atContract env tx state) = true ∧ ∃ what, callOutcome env tx (atContract env tx state) = .error what

end Moments

variable {env : Env World} {tx : TxBlock} {block : BlockContext} {txIndex : UInt64} {state : State World}

theorem transferable_entered : Transferable env tx (entered tx state) ↔ Transferable env tx state := by
  simp only [Transferable, held_entered]

/-- Whatever has become of the sender's balance since, the handler can undo the transfer
as long as it is not higher than before. -/
theorem returnable_of_moved {before moved later : State World} (transferable : Transferable env tx before)
    (shift : Moved env tx before moved) (others : ∀ addr, addr ≠ tx.from → held later addr = held moved addr)
    (less : held later tx.from ≤ held moved tx.from) : Returnable env tx later := by
  have atSender := shift.held tx.from
  rw [onlyAt_self] at atSender
  have bound := held_lt before tx.from
  by_cases same : tx.from = realTo env tx
  · refine ⟨?_, .inl same⟩
    rw [← same, onlyAt_self] at atSender
    rcases transferable with none | ⟨fits, _⟩
    · have zero : tx.value.toNat = 0 := by
        rw [none]
        rfl
      omega
    · rw [← same] at fits
      omega
  · rw [onlyAt_of_ne same] at atSender
    have atReceiver := shift.held (realTo env tx)
    rw [onlyAt_self, onlyAt_of_ne (Ne.symm same)] at atReceiver
    refine ⟨by omega, .inr ?_⟩
    rw [others _ (Ne.symm same)]
    omega

private theorem held_withHost {host : EVMHost}
    (same : ∀ addr, (host.account addr).balance = (state.evmHost.account addr).balance) (addr : Address) :
    held (withHost state host) addr = held state addr := by
  simp only [held, State.balanceOf, EVMHost.balanceOf, withHost_evmHost, same]

theorem held_ran {result : EvmcResult} {host : EVMHost} (ran : machine env tx block state = (.ok result, host))
    (addr : Address) : held (withHost state host) addr = held state addr :=
  held_withHost (machine_ok ran).2.1.balance addr

theorem held_refused {what : Exception} {host : EVMHost} (refused : machine env tx block state = (.error what, host))
    (addr : Address) : held (withHost state host) addr = held state addr :=
  held_withHost (machine_error refused).2.balance addr

/-- A transaction to the machine completes once the handler has moved the value back. -/
theorem process_caught {moved later : State World} {what : Exception} (evm : isEvmTransaction tx state = true)
    (entry : (enterMachine env tx).eval (entered tx state) = (.ok (), moved))
    (throws : (evmBody env tx block txIndex).eval moved = (.error (.exception what), later))
    (returnable : Returnable env tx later) :
    ∃ after, (processTransaction env tx block txIndex).eval state = (.ok (), finished tx (reverted after)) ∧
      Returned env tx later after := by
  obtain ⟨after, undone, returned⟩ := evmRollback_ok returnable
  refine ⟨after, ?_, returned⟩
  rw [processTransaction_eq, dispatch_evm evm, evmTransaction_caught entry throws, undone]

theorem process_escaped {moved later : State World} {what : Exception} (evm : isEvmTransaction tx state = true)
    (entry : (enterMachine env tx).eval (entered tx state) = (.ok (), moved))
    (throws : (evmBody env tx block txIndex).eval moved = (.error (.exception what), later))
    (stuck : ¬ Returnable env tx later) :
    ∃ error after, (processTransaction env tx block txIndex).eval state = (.error (.exception error), after) := by
  obtain ⟨error, after, escaped, _⟩ := evmRollback_error stuck
  refine ⟨error, after, ?_⟩
  rw [processTransaction_eq, dispatch_evm evm, evmTransaction_caught entry throws, escaped]

theorem process_succeeded {moved later : State World} (evm : isEvmTransaction tx state = true)
    (entry : (enterMachine env tx).eval (entered tx state) = (.ok (), moved))
    (done : (evmBody env tx block txIndex).eval moved = (.ok (), later)) :
    (processTransaction env tx block txIndex).eval state = (.ok (), finished tx later) := by
  rw [processTransaction_eq, dispatch_evm evm, evmTransaction_done entry done]

theorem process_stuck (evm : isEvmTransaction tx state = true) (stuck : ¬ Transferable env tx state) :
    ∃ error after, (processTransaction env tx block txIndex).eval state = (.error (.exception error), after) := by
  obtain ⟨error, after, seen, _⟩ := enterMachine_error (mt transferable_entered.mp stuck)
  refine ⟨error, after, ?_⟩
  rw [processTransaction_eq, dispatch_evm evm, evmTransaction_stuck seen]

theorem held_charged_of_ne {result : EvmcResult} (covered : feeOf tx result ≤ held state tx.from) {addr : Address}
    (apart : addr ≠ tx.from) : held (charged tx result state) addr = held state addr := by
  have same := held_charged covered addr
  rwa [onlyAt_of_ne apart, Nat.add_zero] at same

/-- The handler can always undo the transfer of a failed run whose fee was paid. -/
theorem returnable_of_charged {before moved : State World} {result : EvmcResult} {host : EVMHost}
    (transferable : Transferable env tx before) (shift : Moved env tx before moved)
    (ran : machine env tx block moved = (.ok result, host)) (covered : feeOf tx result ≤ held (withHost moved host) tx.from) :
    Returnable env tx (charged tx result (withHost moved host)) := by
  have same := held_ran ran
  refine returnable_of_moved transferable shift (fun addr apart => ?_) ?_
  · rw [held_charged_of_ne covered apart, same]
  · have paid := held_charged covered tx.from
    rw [onlyAt_self, same] at paid
    omega

theorem covered_entered : Covered tx (entered tx state) ↔ Covered tx state := by
  simp only [Covered, held_entered]

theorem receivable_entered : Receivable tx (entered tx state) ↔ Receivable tx state := by
  simp only [Receivable, held_entered]

theorem process_refunded {later : State World} {what : Exception} (classic : isEvmTransaction tx state = false)
    (throws : (classicBody env tx txIndex).eval (entered tx state) = (.error (.exception what), later))
    (refundable : Refundable tx later) :
    ∃ after, (processTransaction env tx block txIndex).eval state = (.ok (), finished tx after) ∧ Refunded tx later after := by
  obtain ⟨after, undone, refunded⟩ := classicRollback_ok refundable
  refine ⟨after, ?_, refunded⟩
  rw [processTransaction_eq, dispatch_classic classic, classicTransaction_caught throws, undone]

theorem process_unrefunded {later : State World} {what : Exception} (classic : isEvmTransaction tx state = false)
    (throws : (classicBody env tx txIndex).eval (entered tx state) = (.error (.exception what), later))
    (stuck : ¬ Refundable tx later) :
    ∃ error after, (processTransaction env tx block txIndex).eval state = (.error (.exception error), after) := by
  obtain ⟨error, after, escaped⟩ := classicRollback_error stuck
  refine ⟨error, after, ?_⟩
  rw [processTransaction_eq, dispatch_classic classic, classicTransaction_caught throws, escaped]

theorem process_concluded {delivered later : State World} (classic : isEvmTransaction tx state = false)
    (transfer : (classicTransfer env tx).eval (entered tx state) = (.ok (), delivered))
    (done : (contractPart env tx txIndex).eval delivered = (.ok (), later)) :
    (processTransaction env tx block txIndex).eval state = (.ok (), finished tx (concluded tx later)) := by
  rw [processTransaction_eq, dispatch_classic classic, classicTransaction_done transfer done]

theorem atContract_eq {delivered : State World}
    (transfer : (classicTransfer env tx).eval (entered tx state) = (.ok (), delivered)) :
    atContract env tx state = delivered := by
  rw [atContract, transfer]

end OrbiterSDK.Proofs.Paths
