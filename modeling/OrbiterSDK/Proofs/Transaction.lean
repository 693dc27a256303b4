import OrbiterSDK.Proofs.Statements

/-! The ways through `processTransaction`. Each lemma is one way: the condition on
the state it starts from, and the state it ends in. -/

namespace OrbiterSDK.Proofs.Transaction
open Lib State HostRun HostCommit Statements

variable {World : Type}

/-- A number that counts only at one address. -/
def onlyAt (place addr : Address) (amount : Nat) : Nat := if addr = place then amount else 0

@[simp] theorem onlyAt_self (addr : Address) (amount : Nat) : onlyAt addr addr amount = amount := if_pos rfl

theorem onlyAt_of_ne {place addr : Address} (apart : addr ≠ place) (amount : Nat) : onlyAt place addr amount = 0 :=
  if_neg apart

@[simp] theorem onlyAt_zero (place addr : Address) : onlyAt place addr 0 = 0 := by
  unfold onlyAt
  split <;> rfl

section Frame
variable (env : Env World) (tx : TxBlock) (block : BlockContext) (txIndex : UInt64) (state : State World)

/-- The state in which the branch is chosen. -/
def entered : State World :=
  withHost state { (state.evmHost.touch tx.to) with
    accessedAccountsBalances := state.evmHost.accessedAccountsBalances ++ [tx.from]
    accessedAccountsNonces := state.evmHost.accessedAccountsNonces ++ [tx.from] }

private theorem eval_enterTransaction : (enterTransaction tx).eval state = (.ok (), entered tx state) := rfl

@[simp] theorem account_entered (addr : Address) :
    (entered tx state).evmHost.account addr = state.evmHost.account addr := account_touch _ _ _

@[simp] theorem held_entered (addr : Address) : held (entered tx state) addr = held state addr := by
  simp only [held, State.balanceOf, EVMHost.balanceOf, account_entered]

/-- The nonce is advanced and the balances and nonces on the lists are committed. -/
def finished : State World :=
  withHost state (EVMHost.commitBalance (EVMHost.commitNonce { state.evmHost with
    accounts := state.evmHost.accounts.modify tx.from fun acc =>
      { acc with nonce := acc.nonce.write (acc.nonce.second + 1) }
    accessedAccountsNonces := state.evmHost.accessedAccountsNonces ++ [tx.from] }))

theorem isEvmContract_touch (host : EVMHost) (addr other : Address) :
    (host.touch addr).isEvmContract other = host.isEvmContract other := by
  have same := account_touch host addr other
  simp only [EVMHost.account] at same
  simp only [EVMHost.isEvmContract, Table.find, same]
  by_cases inside : other ∈ host.accounts.keys
  · have insideToo : other ∈ (host.touch addr).accounts.keys := Finset.mem_insert_of_mem inside
    rw [if_pos inside, if_pos insideToo]
  · have empty : host.accounts.value other = default := host.accounts.absent other inside
    rw [if_neg inside]
    split
    · simp_all
    case h_2 acc found =>
      split at found
      · cases found
        rw [empty]
        rfl
      · cases found

@[simp] theorem isEvmTransaction_entered : isEvmTransaction tx (entered tx state) = isEvmTransaction tx state := by
  have same : (entered tx state).evmHost.isEvmContract tx.to = state.evmHost.isEvmContract tx.to :=
    isEvmContract_touch state.evmHost tx.to tx.to
  unfold isEvmTransaction
  rw [same]

/-- The branch decides whether the transaction completes. -/
theorem processTransaction_eq : (processTransaction env tx block txIndex).eval state =
    match (dispatch env tx block txIndex).eval (entered tx state) with
    | (.ok _, after) => (.ok (), finished tx after)
    | (.error stop, after) => (.error stop, after) := by
  unfold processTransaction
  rw [eval_seq_ok (eval_enterTransaction tx state), Action.eval_bind]
  rcases (dispatch env tx block txIndex).eval (entered tx state) with ⟨_ | _, after⟩
  · rfl
  · rfl

theorem dispatch_evm {env tx block txIndex state} (evm : isEvmTransaction tx state = true) :
    (dispatch env tx block txIndex).eval (entered tx state) =
      (evmTransaction env tx block txIndex : Act World Unit).eval (entered tx state) := by
  unfold dispatch
  rw [Action.eval_bind, Action.eval_get]
  simp only [isEvmTransaction_entered, evm, if_true]

theorem dispatch_classic {env tx block txIndex state} (classic : isEvmTransaction tx state = false) :
    (dispatch env tx block txIndex).eval (entered tx state) =
      (classicTransaction env tx txIndex : Act World Unit).eval (entered tx state) := by
  unfold dispatch
  rw [Action.eval_bind, Action.eval_get]
  simp only [isEvmTransaction_entered, classic, Bool.false_eq_true, if_false]

end Frame

variable {env : Env World} {tx : TxBlock} {block : BlockContext} {txIndex : UInt64} {state : State World}

/-- When the value can be moved to the receiver outside of any handler. -/
def Transferable (env : Env World) (tx : TxBlock) (state : State World) : Prop :=
  tx.value = 0 ∨ (held state (realTo env tx) + tx.value.toNat < 2 ^ 256 ∧
    (tx.from = realTo env tx ∨ tx.value.toNat ≤ held state tx.from))

/-- The value has moved, or nothing if there is none. -/
structure Moved (env : Env World) (tx : TxBlock) (before after : State World) : Prop where
  paid : Paid before after
  held : ∀ addr, held after addr + onlyAt tx.from addr tx.value.toNat =
    held before addr + onlyAt (realTo env tx) addr tx.value.toNat
  accessed : after.evmHost.accessedAccountsBalances =
    before.evmHost.accessedAccountsBalances ++ tx.from :: if tx.value = 0 then [] else [tx.to]

theorem enterMachine_ok (transferable : Transferable env tx state) :
    ∃ after, (enterMachine env tx).eval state = (.ok (), after) ∧ Moved env tx state after := by
  unfold enterMachine
  rw [eval_seq_ok (eval_pushBalance tx.from state)]
  unfold transferValue
  by_cases none : tx.value = 0
  · refine ⟨noted state tx.from, by rw [if_pos none]; rfl, paid_noted _ _, fun addr => ?_, ?_⟩
    · simp [none]
    · simp [none, noted]
  · rw [if_neg none]
    obtain ⟨fits, covered⟩ := transferable.resolve_left none
    obtain ⟨credited, creditEval, creditState, creditHeld⟩ :=
      credit_ok env (show held (noted state tx.from) (realTo env tx) + tx.value.toNat < 2 ^ 256 from fits)
    have enough : tx.value.toNat ≤ held credited tx.from := by
      rw [creditHeld]
      simp only [held_noted]
      split
      case isTrue => omega
      case isFalse apart => exact covered.resolve_left apart
    obtain ⟨debited, debitEval, debitState, debitHeld⟩ := debit_ok env enough
    refine ⟨noted debited tx.to, ?_, ?_, fun addr => ?_, ?_⟩
    · rw [eval_seq_ok creditEval, eval_seq_ok debitEval, eval_pushBalance]
    · rw [debitState, creditState]
      exact ((paid_noted _ _).trans ((paid_setHeld _ _ _).trans (paid_setHeld _ _ _))).trans (paid_noted _ _)
    · rw [held_noted, debitHeld]
      simp only [creditHeld, held_noted, onlyAt] at enough ⊢
      by_cases sender : addr = tx.from
      · subst sender
        simp only [if_true]
        split at enough <;> simp_all
      · simp only [if_neg sender]
        split <;> simp_all
    · rw [debitState, creditState, if_neg none]
      simp [noted, setHeld, EVMHost.setBalance]

theorem enterMachine_error (stuck : ¬ Transferable env tx state) :
    ∃ what after, (enterMachine env tx).eval state = (.error (.exception what), after) ∧ Paid state after := by
  unfold Transferable at stuck
  push Not at stuck
  obtain ⟨some, rest⟩ := stuck
  unfold enterMachine
  rw [eval_seq_ok (eval_pushBalance tx.from state)]
  unfold transferValue
  rw [if_neg some]
  by_cases fits : held state (realTo env tx) + tx.value.toNat < 2 ^ 256
  · obtain ⟨apart, short⟩ := rest fits
    obtain ⟨credited, creditEval, creditState, creditHeld⟩ :=
      credit_ok env (show held (noted state tx.from) (realTo env tx) + tx.value.toNat < 2 ^ 256 from fits)
    have missing : ¬ tx.value.toNat ≤ held credited tx.from := by
      rw [creditHeld, if_neg apart, held_noted]
      omega
    refine ⟨_, _, by rw [eval_seq_ok creditEval, eval_seq_error (debit_error env missing)], ?_⟩
    rw [creditState]
    exact (paid_noted _ _).trans ((paid_setHeld _ _ _).trans (paid_setHeld _ _ _))
  · have wide : ¬ held (noted state tx.from) (realTo env tx) + tx.value.toNat < 2 ^ 256 := fits
    exact ⟨_, _, eval_seq_error (credit_error env wide), (paid_noted _ _).trans (paid_setHeld _ _ _)⟩

/-- The host in which the machine starts to run. -/
def prepared (tx : TxBlock) (block : BlockContext) (state : State World) : EVMHost :=
  { state.evmHost.setTxContext tx.txToCallInfo block.blockHeight block.blockCoinbase block.blockTimestamp
      block.blockGasLimit block.chainId with currentTxHash := tx.hash }

/-- What the machine returns, and the host it leaves. -/
def machine (env : Env World) (tx : TxBlock) (block : BlockContext) (state : State World) :
    Except Exception EvmcResult × EVMHost :=
  (prepared tx block state).execute env.vm tx.txToCallInfo

/-- The fee for the gas that a run has used. -/
def feeOf (tx : TxBlock) (result : EvmcResult) : Nat :=
  (tx.gasLimit.toNat - result.gasLeft.toNat) * tx.maxFeePerGas.toNat

def Failed (result : EvmcResult) (host : EVMHost) : Prop := result.statusCode ≠ .success ∨ host.shouldRevert = true

/-- The machine leaves part of the gas it was given. -/
def GasWithin (tx : TxBlock) (result : EvmcResult) : Prop :=
  0 ≤ result.gasLeft ∧ result.gasLeft ≤ (tx.gasLimit.toNat : Int)

theorem machine_ok {result : EvmcResult} {host : EVMHost} (ran : machine env tx block state = (.ok result, host)) :
    gasFits tx.txToCallInfo ∧ Executed (prepared tx block state) host ∧ GasWithin tx result := by
  unfold machine at ran
  by_cases fits : gasFits tx.txToCallInfo
  · obtain ⟨returned, after, left, seen, executed, leftIs, atMost⟩ := execute_returns env.vm fits (prepared tx block state)
    rw [seen] at ran
    cases ran
    refine ⟨fits, executed, ?_, ?_⟩
    · omega
    · rw [leftIs]
      exact_mod_cast atMost
  · obtain ⟨after, seen, _⟩ := execute_refused env.vm fits (prepared tx block state)
    rw [seen] at ran
    cases ran

theorem machine_error {what : Exception} {host : EVMHost} (refused : machine env tx block state = (.error what, host)) :
    ¬ gasFits tx.txToCallInfo ∧ Ran (prepared tx block state) host := by
  unfold machine at refused
  by_cases fits : gasFits tx.txToCallInfo
  · obtain ⟨returned, after, left, seen, _⟩ := execute_returns env.vm fits (prepared tx block state)
    rw [seen] at refused
    cases refused
  · obtain ⟨after, seen, ran⟩ := execute_refused env.vm fits (prepared tx block state)
    rw [seen] at refused
    cases refused
    exact ⟨fits, ran⟩

theorem eval_hostExecute (callInfo : EthCallInfo) : (hostExecute env callInfo).eval state =
    (checked (state.evmHost.execute env.vm callInfo).1).eval (withHost state (state.evmHost.execute env.vm callInfo).2) :=
  rfl

private theorem eval_evmBody : (evmBody env tx block txIndex).eval state =
    (checked (machine env tx block state).1 >>= fun evmCallResult => do
      chargeFee env tx evmCallResult
      settleMachine env tx block txIndex evmCallResult).eval (withHost state (machine env tx block state).2) := by
  unfold evmBody
  rw [eval_seq_ok (show (prepareMachine tx block).eval state = (.ok (), withHost state (prepared tx block state)) from rfl),
    Action.eval_bind, Action.eval_bind, eval_hostExecute]
  rfl

/-- The machine does not run when its gas limit cannot be passed on. -/
theorem evmBody_refused {what : Exception} {host : EVMHost} (refused : machine env tx block state = (.error what, host)) :
    (evmBody env tx block txIndex).eval state = (.error (.exception what), withHost state host) := by
  rw [eval_evmBody, refused]
  rfl

section Ran
variable {result : EvmcResult} {host : EVMHost}

private theorem eval_chargeFee (within : GasWithin tx result) : (chargeFee env tx result).eval state =
    if feeOf tx result < 2 ^ 256 then (debit env tx.from (BitVec.ofNat 256 (feeOf tx result))).eval state
    else (.error (.exception Uint256.overflow), state) := by
  obtain ⟨left, leftIs⟩ := Int.eq_ofNat_of_zero_le within.1
  have atMost : left ≤ tx.gasLimit.toNat := by
    have most := within.2
    omega
  have leftNat : (BitVec.ofInt 256 result.gasLeft).toNat = left := by
    rw [leftIs, BitVec.ofInt_natCast, BitVec.toNat_ofNat, Nat.mod_eq_of_lt (lt_of_le_of_lt atMost tx.gasLimit.isLt)]
  have used : Uint256.sub tx.gasLimit (BitVec.ofInt 256 result.gasLeft) = .ok (BitVec.ofNat 256 (tx.gasLimit.toNat - left)) := by
    rw [Uint256.sub, leftNat, if_pos atMost]
  have usedNat : (BitVec.ofNat 256 (tx.gasLimit.toNat - left)).toNat = tx.gasLimit.toNat - left := by
    rw [BitVec.toNat_ofNat, Nat.mod_eq_of_lt (lt_of_le_of_lt (Nat.sub_le _ _) tx.gasLimit.isLt)]
  have fee : feeOf tx result = (tx.gasLimit.toNat - left) * tx.maxFeePerGas.toNat := by
    rw [feeOf, leftIs, Int.toNat_natCast]
  unfold chargeFee
  rw [if_neg (by omega), used, eval_seq_ok (eval_checked_ok _ _), Uint256.mul, usedNat, ← fee]
  split
  · rw [eval_seq_ok (eval_checked_ok _ _)]
  · rw [eval_seq_error (eval_checked_error _ _)]

private theorem eval_evmBody_ran (ran : machine env tx block state = (.ok result, host)) :
    (evmBody env tx block txIndex).eval state =
      (chargeFee env tx result >>= fun _ => settleMachine env tx block txIndex result).eval (withHost state host) := by
  rw [eval_evmBody, ran]
  rfl

theorem evmBody_overcharged (ran : machine env tx block state = (.ok result, host)) (wide : 2 ^ 256 ≤ feeOf tx result) :
    (evmBody env tx block txIndex).eval state = (.error (.exception Uint256.overflow), withHost state host) := by
  rw [eval_evmBody_ran ran, eval_seq_error]
  rw [eval_chargeFee (machine_ok ran).2.2, if_neg (by omega)]

theorem evmBody_unpaid (ran : machine env tx block state = (.ok result, host)) (fits : feeOf tx result < 2 ^ 256)
    (short : held (withHost state host) tx.from < feeOf tx result) :
    (evmBody env tx block txIndex).eval state = (.error (.exception Uint256.negative),
      setHeld (withHost state host) tx.from
        (env.underflowed ((withHost state host).balanceOf tx.from) (BitVec.ofNat 256 (feeOf tx result)))) := by
  rw [eval_evmBody_ran ran, eval_seq_error]
  rw [eval_chargeFee (machine_ok ran).2.2, if_pos fits]
  apply debit_error
  rw [BitVec.toNat_ofNat, Nat.mod_eq_of_lt fits]
  omega

/-- The state in which the fee is paid. -/
def charged (tx : TxBlock) (result : EvmcResult) (state : State World) : State World :=
  setHeld state tx.from (BitVec.ofNat 256 (held state tx.from - feeOf tx result))

theorem held_charged (covered : feeOf tx result ≤ held state tx.from) (addr : Address) :
    held (charged tx result state) addr + onlyAt tx.from addr (feeOf tx result) = held state addr := by
  have bound := held_lt state tx.from
  rw [charged, held_setHeld, BitVec.toNat_ofNat, Nat.mod_eq_of_lt (by omega), onlyAt]
  split
  case isTrue same =>
    rw [same]
    omega
  case isFalse => rfl

private theorem chargeFee_paid (within : GasWithin tx result) (covered : feeOf tx result ≤ held state tx.from) :
    (chargeFee env tx result).eval state = (.ok (), charged tx result state) := by
  have fits : feeOf tx result < 2 ^ 256 := lt_of_le_of_lt covered (held_lt _ _)
  have feeNat : (BitVec.ofNat 256 (feeOf tx result)).toNat = feeOf tx result := by
    rw [BitVec.toNat_ofNat, Nat.mod_eq_of_lt fits]
  rw [eval_chargeFee within, if_pos fits, eval_debit, feeNat, if_pos covered]
  rfl

theorem evmBody_failed (ran : machine env tx block state = (.ok result, host))
    (covered : feeOf tx result ≤ held (withHost state host) tx.from) (failed : Failed result host) :
    (evmBody env tx block txIndex).eval state =
      (.error (.exception (executionError env result)), charged tx result (withHost state host)) := by
  rw [eval_evmBody_ran ran, eval_seq_ok (chargeFee_paid (machine_ok ran).2.2 covered), settleMachine,
    Action.eval_bind, Action.eval_get]
  simp only [if_pos (show result.statusCode ≠ .success ∨
    (charged tx result (withHost state host)).evmHost.shouldRevert = true from failed)]
  rfl

/-- The events of a successful run are logged. -/
def logged (tx : TxBlock) (block : BlockContext) (txIndex : UInt64) (state : State World) : State World :=
  ((registerEvents tx block txIndex).eval state).2

/-- The fee is paid and everything the machine did is kept. -/
theorem evmBody_succeeded (ran : machine env tx block state = (.ok result, host))
    (covered : feeOf tx result ≤ held (withHost state host) tx.from) (passed : ¬ Failed result host) :
    (evmBody env tx block txIndex).eval state =
      (.ok (), withHost (logged tx block txIndex (charged tx result (withHost state host)))
        (charged tx result (withHost state host)).evmHost.commit.commitCode) := by
  rw [eval_evmBody_ran ran, eval_seq_ok (chargeFee_paid (machine_ok ran).2.2 covered), settleMachine,
    Action.eval_bind, Action.eval_get]
  simp only [if_neg (show ¬ (result.statusCode ≠ .success ∨
    (charged tx result (withHost state host)).evmHost.shouldRevert = true) from passed)]
  rfl

end Ran

/-- The request to revert is forgotten. -/
def calmed (state : State World) : State World := withHost state { state.evmHost with shouldRevert := false }

/-- Storage and code go back to their original values. -/
def reverted (state : State World) : State World := withHost state state.evmHost.revert.revertCode

/-- When the value can be moved back in the handler. -/
def Returnable (env : Env World) (tx : TxBlock) (state : State World) : Prop :=
  held state tx.from + tx.value.toNat < 2 ^ 256 ∧ (tx.from = realTo env tx ∨ tx.value.toNat ≤ held state (realTo env tx))

/-- The value is back, and no list has grown. -/
structure Returned (env : Env World) (tx : TxBlock) (before after : State World) : Prop where
  paid : Paid (calmed before) after
  held : ∀ addr, held after addr + onlyAt (realTo env tx) addr tx.value.toNat =
    held before addr + onlyAt tx.from addr tx.value.toNat
  accessed : after.evmHost.accessedAccountsBalances = before.evmHost.accessedAccountsBalances

theorem evmRollback_ok (returnable : Returnable env tx state) :
    ∃ after, (evmRollback env tx).eval state = (.ok (), reverted after) ∧ Returned env tx state after := by
  obtain ⟨fits, covered⟩ := returnable
  obtain ⟨credited, creditEval, creditState, creditHeld⟩ :=
    credit_ok env (show held (calmed state) tx.from + tx.value.toNat < 2 ^ 256 from fits)
  have enough : tx.value.toNat ≤ held credited (realTo env tx) := by
    rw [creditHeld]
    split
    case isTrue => omega
    case isFalse apart => exact covered.resolve_left fun same => apart same.symm
  obtain ⟨debited, debitEval, debitState, debitHeld⟩ := debit_ok env enough
  refine ⟨debited, ?_, ?_, fun addr => ?_, ?_⟩
  · unfold evmRollback
    rw [eval_seq_ok (show Action.eval (onHost _) state = (.ok (), calmed state) from rfl), eval_seq_ok creditEval,
      eval_seq_ok debitEval]
    rfl
  · rw [debitState, creditState]
    exact (paid_setHeld _ _ _).trans (paid_setHeld _ _ _)
  · have here : ∀ other, held (calmed state) other = held state other := fun _ => rfl
    rw [debitHeld]
    simp only [creditHeld, here, onlyAt] at enough ⊢
    by_cases receiver : addr = realTo env tx
    · subst receiver
      simp only [if_true]
      split at enough <;> simp_all
    · simp only [if_neg receiver]
      split <;> simp_all
  · rw [debitState, creditState]
    rfl

theorem evmRollback_error (stuck : ¬ Returnable env tx state) :
    ∃ what after, (evmRollback env tx).eval state = (.error (.exception what), after) ∧ Paid (calmed state) after := by
  unfold Returnable at stuck
  push Not at stuck
  unfold evmRollback
  rw [eval_seq_ok (show Action.eval (onHost _) state = (.ok (), calmed state) from rfl)]
  by_cases fits : held state tx.from + tx.value.toNat < 2 ^ 256
  · obtain ⟨apart, short⟩ := stuck fits
    obtain ⟨credited, creditEval, creditState, creditHeld⟩ :=
      credit_ok env (show held (calmed state) tx.from + tx.value.toNat < 2 ^ 256 from fits)
    have missing : ¬ tx.value.toNat ≤ held credited (realTo env tx) := by
      rw [creditHeld, if_neg fun same => apart same.symm]
      exact Nat.not_le.mpr short
    refine ⟨_, _, by rw [eval_seq_ok creditEval, eval_seq_error (debit_error env missing)], ?_⟩
    rw [creditState]
    exact (paid_setHeld _ _ _).trans (paid_setHeld _ _ _)
  · have wide : ¬ held (calmed state) tx.from + tx.value.toNat < 2 ^ 256 := fits
    exact ⟨_, _, eval_seq_error (credit_error env wide), paid_setHeld _ _ _⟩

theorem evmTransaction_stuck {what : Exception} {after : State World}
    (stuck : (enterMachine env tx).eval state = (.error (.exception what), after)) :
    (evmTransaction env tx block txIndex).eval state = (.error (.exception what), after) :=
  eval_seq_error stuck

theorem evmTransaction_done {moved after : State World} (entry : (enterMachine env tx).eval state = (.ok (), moved))
    (done : (evmBody env tx block txIndex).eval moved = (.ok (), after)) :
    (evmTransaction env tx block txIndex).eval state = (.ok (), after) := by
  unfold evmTransaction
  rw [eval_seq_ok entry, eval_catching_ok done]

theorem evmTransaction_caught {moved after : State World} {what : Exception}
    (entry : (enterMachine env tx).eval state = (.ok (), moved))
    (throws : (evmBody env tx block txIndex).eval moved = (.error (.exception what), after)) :
    (evmTransaction env tx block txIndex).eval state = (evmRollback env tx).eval after := by
  unfold evmTransaction
  rw [eval_seq_ok entry, eval_catching_exception throws]

end OrbiterSDK.Proofs.Transaction
