import OrbiterSDK.Proofs.MempoolRuns

/-! Whether a sender can pay, in numbers without a bound, and when the checked numbers of the
validation tell the same. -/

namespace OrbiterSDK.Proofs.Affordability
open Lib State Locks Classic Statements BlockRun Conservation NonceOrder

variable {World : Type}

/-- What the sender is judged by. -/
def judgement (state : State World) (tx : TxBlock) : TxInvalid :=
  if tx.from ∉ state.evmHost.accounts.keys then .invalidBalance
  else if held state tx.from < tx.value.toNat + feeLimit tx then .invalidBalance
  else if (state.nonceOf tx.from).toNat ≠ tx.nonce.toNat then .invalidNonce
  else .notInvalid

/-- Nobody is there to pay, or the sum of value and fees has 256 bits. -/
def Bounded (state : State World) (tx : TxBlock) : Prop := tx.from ∉ state.evmHost.accounts.keys ∨ Priced tx

section One
variable {state : State World} {tx : TxBlock}

theorem judged_of_bounded (bounded : Bounded state tx) : state.validateAgainstAccounts tx = .ok (judgement state tx) := by
  unfold judgement
  rcases bounded with missing | priced
  · have none : state.evmHost.accounts.find tx.from = none := if_neg missing
    rw [if_pos missing, validateAgainstAccounts, none]
  · rw [validateAgainstAccounts_eq priced]
    split_ifs <;> rfl

/-- A sum that is too large is thrown, whatever the balance. -/
theorem bounded_of_judged {verdict : TxInvalid} (judged : state.validateAgainstAccounts tx = .ok verdict) : Bounded state tx := by
  by_cases present : tx.from ∈ state.evmHost.accounts.keys
  case neg => exact .inl present
  have found : state.evmHost.accounts.find tx.from = some (state.evmHost.account tx.from) := if_pos present
  rw [validateAgainstAccounts, found] at judged
  simp only [] at judged
  cases product : Uint256.mul tx.gasLimit tx.maxFeePerGas with
  | error what => simp [product, bind, Except.bind] at judged
  | ok fees =>
    cases total : Uint256.add tx.value fees with
    | error what => simp [product, total, bind, Except.bind] at judged
    | ok sum =>
      have sumNat := Uint256.add_eq_ok.mp total
      rw [feeLimit_eq product] at sumNat
      refine .inr ?_
      unfold Priced
      rw [← sumNat]
      exact sum.isLt

theorem validate_new (fresh : state.inMempool tx.hash = false) :
    state.validateTransactionInternal tx = state.validateAgainstAccounts tx := by
  rw [validateTransactionInternal, fresh]
  rfl

theorem validate_judged_iff (fresh : state.inMempool tx.hash = false) :
    state.validateTransactionInternal tx = .ok (judgement state tx) ↔ Bounded state tx := by
  rw [validate_new fresh]
  exact ⟨bounded_of_judged, judged_of_bounded⟩

/-- A transaction that waits already is not looked at again. -/
theorem validate_returns_iff :
    (∃ verdict, state.validateTransactionInternal tx = .ok verdict) ↔ state.inMempool tx.hash = true ∨ Bounded state tx := by
  cases waits : state.inMempool tx.hash with
  | true =>
    refine iff_of_true ⟨.notInvalid, ?_⟩ (.inl rfl)
    rw [validateTransactionInternal, waits]
    rfl
  | false =>
    rw [validate_new waits, or_iff_right Bool.false_ne_true]
    constructor
    · rintro ⟨verdict, judged⟩
      exact bounded_of_judged judged
    · exact fun bounded => ⟨_, judged_of_bounded bounded⟩

theorem addTx_returns_iff (free : state.stateMutex = .free) :
    (∃ verdict, ((addTx tx).eval state).1 = .ok verdict) ↔ state.inMempool tx.hash = true ∨ Bounded state tx := by
  rw [← validate_returns_iff, eval_addTx free]
  cases state.validateTransactionInternal tx with
  | error what => exact iff_of_false (by rintro ⟨_, impossible⟩; cases impossible) (by rintro ⟨_, impossible⟩; cases impossible)
  | ok verdict => exact iff_of_true ⟨verdict, rfl⟩ ⟨verdict, rfl⟩

end One

/-- Every transaction of a block up to the first one that is refused. -/
def AllBounded (state : State World) : List TxBlock → Prop
  | [] => True
  | tx :: rest =>
    if state.inMempool tx.hash then AllBounded state rest
    else Bounded state tx ∧ (judgement state tx = .notInvalid → AllBounded state rest)

variable {env : Env World} {state : State World} {block : Block}

theorem validateTxs_returns_iff (txs : List TxBlock) :
    (∃ verdict, state.validateTxs txs = .ok verdict) ↔ AllBounded state txs := by
  induction txs with
  | nil => exact iff_of_true ⟨true, rfl⟩ trivial
  | cons tx rest ih =>
    rw [validateTxs, AllBounded]
    cases waits : state.inMempool tx.hash with
    | true =>
      have valid : state.validateTransactionInternal tx = .ok .notInvalid := by
        rw [validateTransactionInternal, waits]
        rfl
      rw [valid, if_pos rfl]
      exact ih
    | false =>
      rw [if_neg Bool.false_ne_true, validate_new waits]
      by_cases bounded : Bounded state tx
      · rw [judged_of_bounded bounded, and_iff_right bounded]
        change (∃ verdict, (if judgement state tx ≠ .notInvalid then _ else _) = _) ↔ _
        by_cases valid : judgement state tx = .notInvalid
        · rw [if_neg (not_not.mpr valid), ih]
          exact ⟨fun later _ => later, fun later => later valid⟩
        · rw [if_pos valid]
          exact iff_of_true ⟨false, rfl⟩ fun same => absurd same valid
      · refine iff_of_false ?_ fun all => bounded all.1
        rintro ⟨verdict, judged⟩
        cases thrown : state.validateAgainstAccounts tx with
        | error what =>
          rw [thrown] at judged
          cases judged
        | ok verdict => exact bounded (bounded_of_judged thrown)

theorem validateNextBlock_returns_iff (free : state.stateMutex = .free) :
    (∃ verdict, ((validateNextBlock env block).eval state).1 = .ok verdict) ↔
      (state.validateHeader env block = true → AllBounded state block.txs) := by
  rw [eval_validateNextBlock free, ← validateTxs_returns_iff]
  cases state.validateHeader env block with
  | false => exact iff_of_true ⟨false, rfl⟩ fun impossible => absurd impossible Bool.false_ne_true
  | true =>
    rw [if_pos rfl, forall_prop_of_true rfl]
    cases state.validateTxs block.txs with
    | error what => exact iff_of_false (by rintro ⟨_, impossible⟩; cases impossible) (by rintro ⟨_, impossible⟩; cases impossible)
    | ok verdict => exact iff_of_true ⟨verdict, rfl⟩ ⟨verdict, rfl⟩

/-- What waits has been accepted once, so its sum fits, whatever becomes of the accounts. -/
private theorem refreshMempool_total {after : State World} (reachable : Reachable env state) (kept : after.mempool = state.mempool) :
    ((refreshMempool block).eval after).1 = .ok () := by
  obtain ⟨mempool, done, _⟩ := @refreshMempool_returns _ after block (kept ▸ reachable_priced reachable)
  rw [done]

/-- When the verdict is the one in numbers without a bound, and when what validates returns at all. -/
theorem affordability_iff (env : Env World) :
    (∀ (state : State World) (tx : TxBlock), state.inMempool tx.hash = false →
      (state.validateTransactionInternal tx = .ok (judgement state tx) ↔ Bounded state tx)) ∧
    (∀ (state : State World) (tx : TxBlock), state.stateMutex = .free →
      ((∃ verdict, ((addTx tx).eval state).1 = .ok verdict) ↔ state.inMempool tx.hash = true ∨ Bounded state tx)) ∧
    (∀ (state : State World) (block : Block), state.stateMutex = .free →
      ((∃ verdict, ((validateNextBlock env block).eval state).1 = .ok verdict) ↔
        (state.validateHeader env block = true → AllBounded state block.txs))) ∧
    ∀ (state after : State World) (block : Block), Reachable env state → after.mempool = state.mempool →
      ((refreshMempool block).eval after).1 = .ok () :=
  ⟨fun _ _ fresh => validate_judged_iff fresh, fun _ _ free => addTx_returns_iff free,
    fun _ _ free => validateNextBlock_returns_iff free, fun _ _ _ reachable kept => refreshMempool_total reachable kept⟩

/-- The donation waits in the mempool. -/
def offered : State Unit := ((addTx donation).eval freshState).2

theorem donation_is_judged : freshState.validateTransactionInternal donation = .ok (judgement freshState donation) ∧
    (∃ verdict, ((addTx donation).eval freshState).1 = .ok verdict) ∧
    (∃ verdict, ((validateNextBlock stoppingEnv (nextBlock [donation])).eval freshState).1 = .ok verdict) ∧
    offered.mempool ≠ [] ∧ ((refreshMempool (nextBlock [])).eval offered).1 = .ok () := by
  obtain ⟨judged, added, validated, refreshed⟩ := affordability_iff stoppingEnv
  have priced : donation.value.toNat + feeLimit donation < 2 ^ 256 := by decide
  have waiting : Reachable stoppingEnv offered := @Reachable.step _ _ freshState _ (.ok ()) (.addTx donation) (.construct _ _ _ _ _) rfl (by decide)
  refine ⟨(judged _ _ rfl).mpr (.inr priced), (added _ _ rfl).mpr (.inr (.inr priced)), (validated _ _ rfl).mpr fun _ => ?_,
    by decide, refreshed offered _ _ waiting rfl⟩
  exact ⟨.inr priced, fun _ => trivial⟩

/-- Fees of twice 2^255. -/
def hugeFees : TxBlock := { donation with gasLimit := 2 ^ 255, maxFeePerGas := 2 }

theorem huge_fees_are_thrown : ¬ ∀ (state : State Unit) (tx : TxBlock), state.inMempool tx.hash = false →
    state.validateTransactionInternal tx = .ok (judgement state tx) := by
  intro exact_
  have bounded := (validate_judged_iff rfl).mp (exact_ freshState hugeFees rfl)
  rcases bounded with missing | priced
  · exact missing (by decide)
  · have large : ¬ hugeFees.value.toNat + feeLimit hugeFees < 2 ^ 256 := by decide +kernel
    exact large priced

end OrbiterSDK.Proofs.Affordability
