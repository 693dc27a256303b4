import OrbiterSDK.Proofs.Supply
import OrbiterSDK.StateCalls

/-! Conservation of the supply by one transaction: exactly when, and a transaction
by which it grows. -/

namespace OrbiterSDK.Proofs.Conservation
open Lib State HostCommit Statements Transaction Classic Paths Supply

variable {World : Type}

section Statement
variable (env : Env World) (tx : TxBlock) (block : BlockContext) (txIndex : UInt64) (state : State World)

/-- The fee a transaction owes: for the gas used if the machine ran, for the whole limit outside of the machine. -/
def feeDue : Nat :=
  if isEvmTransaction tx state then
    match (machine env tx block (atMachine env tx state)).1 with
    | .ok result => feeOf tx result
    | .error _ => 0
  else feeLimit tx

/-- The transaction completes and the supply falls by the fee it owes, at most the limit. -/
def Conserves : Prop :=
  ∃ after, (processTransaction env tx block txIndex).eval state = (.ok (), after) ∧
    supply after + feeDue env tx block state = supply state ∧ feeDue env tx block state ≤ feeLimit tx

/-- The sender holds the fee besides the value, which stays with a sender that is its own receiver. -/
def MachineAffordable : Prop :=
  if tx.from = realTo env tx then feeDue env tx block state ≤ held state tx.from
  else tx.value.toNat + feeDue env tx block state ≤ held state tx.from

end Statement

variable {env : Env World} {tx : TxBlock} {block : BlockContext} {txIndex : UInt64} {state : State World}

private theorem supply_moved {before moved : State World} (shift : Moved env tx before moved) : supply moved = supply before :=
  Nat.add_right_cancel (supply_shift shift.held)

private theorem supply_returned {before after : State World} (shift : Returned env tx before after) :
    supply (reverted after) = supply before := by
  rw [supply_congr (held_reverted after)]
  exact Nat.add_right_cancel (supply_shift shift.held)

theorem feeOf_le (tx : TxBlock) (result : EvmcResult) : feeOf tx result ≤ feeLimit tx :=
  Nat.mul_le_mul_right _ (Nat.sub_le _ _)

theorem feeDue_le (env : Env World) (tx : TxBlock) (block : BlockContext) (state : State World) :
    feeDue env tx block state ≤ feeLimit tx := by
  unfold feeDue
  split
  · split
    · exact feeOf_le tx _
    · exact Nat.zero_le _
  · exact Nat.le_refl _

/-- The sender can pay the fee in the moment in which the machine has run. -/
theorem affordable_iff {moved : State World} (shift : Moved env tx (entered tx state) moved) :
    MachineAffordable env tx block state ↔ feeDue env tx block state ≤ held moved tx.from := by
  have atSender := shift.held tx.from
  rw [onlyAt_self, held_entered] at atSender
  unfold MachineAffordable
  split
  case isTrue same =>
    rw [← same, onlyAt_self] at atSender
    omega
  case isFalse apart =>
    rw [onlyAt_of_ne apart] at atSender
    omega

theorem feeDue_machine {moved : State World} (evm : isEvmTransaction tx state = true)
    (entry : (enterMachine env tx).eval (entered tx state) = (.ok (), moved)) : feeDue env tx block state =
      match (machine env tx block moved).1 with
      | .ok result => feeOf tx result
      | .error _ => 0 := by
  rw [feeDue, if_pos evm, atMachine, entry]

/-- After the handler the supply is that of the state in which the body threw. -/
private theorem conserves_caught {moved later : State World} {what : Exception} (evm : isEvmTransaction tx state = true)
    (entry : (enterMachine env tx).eval (entered tx state) = (.ok (), moved))
    (throws : (evmBody env tx block txIndex).eval moved = (.error (.exception what), later)) :
    Conserves env tx block txIndex state ↔
      Returnable env tx later ∧ supply later + feeDue env tx block state = supply state := by
  by_cases returnable : Returnable env tx later
  · obtain ⟨after, completes, returned⟩ := process_caught evm entry throws returnable
    have same : supply (finished tx (reverted after)) = supply later := by
      rw [supply_finished, supply_returned returned]
    constructor
    · rintro ⟨final, seen, balance, _⟩
      rw [completes] at seen
      cases seen
      exact ⟨returnable, same ▸ balance⟩
    · rintro ⟨_, balance⟩
      exact ⟨_, completes, by rw [same, balance], feeDue_le env tx block state⟩
  · obtain ⟨error, after, escapes⟩ := process_escaped evm entry throws returnable
    constructor
    · rintro ⟨final, seen, _⟩
      rw [escapes] at seen
      cases seen
    · exact fun both => absurd both.1 returnable

theorem supply_charged {result : EvmcResult} (covered : feeOf tx result ≤ held state tx.from) :
    supply (charged tx result state) + feeOf tx result = supply state := by
  have shift : ∀ addr, held (charged tx result state) addr + onlyAt tx.from addr (feeOf tx result) =
      held state addr + onlyAt tx.from addr 0 := by
    intro addr
    rw [held_charged covered, onlyAt_zero, Nat.add_zero]
  exact supply_shift shift

private theorem supply_kept {result : EvmcResult} :
    supply (finished tx (withHost (logged tx block txIndex (charged tx result state))
      (charged tx result state).evmHost.commit.commitCode)) = supply (charged tx result state) := by
  rw [supply_finished]
  refine supply_congr fun addr => ?_
  simp only [held, State.balanceOf, EVMHost.balanceOf, withHost_evmHost, commitCode_balance, commit_balance]

/-- The machine's branch conserves the supply exactly if value and fee can be paid. -/
theorem conserves_machine (evm : isEvmTransaction tx state = true) : Conserves env tx block txIndex state ↔
    Transferable env tx state ∧ MachineAffordable env tx block state := by
  by_cases transferable : Transferable env tx state
  · obtain ⟨moved, entry, shift⟩ := enterMachine_ok (transferable_entered.mpr transferable)
    have whole : supply moved = supply state := by rw [supply_moved shift, supply_entered]
    rw [affordable_iff shift, and_iff_right transferable]
    rcases seen : machine env tx block moved with ⟨what | result, host⟩
    · have fee : feeDue env tx block state = 0 := by rw [feeDue_machine evm entry, seen]
      have same := held_refused seen
      have returnable := returnable_of_moved (transferable_entered.mpr transferable) shift (fun addr _ => same addr)
        (same tx.from).le
      rw [conserves_caught evm entry (evmBody_refused seen), supply_congr same, whole, fee]
      exact ⟨fun _ => Nat.zero_le _, fun _ => ⟨returnable, rfl⟩⟩
    · have fee : feeDue env tx block state = feeOf tx result := by rw [feeDue_machine evm entry, seen]
      have same := held_ran seen
      have wholeRan : supply (withHost moved host) = supply state := by rw [supply_congr same, whole]
      rcases Nat.lt_or_ge (feeOf tx result) (2 ^ 256) with fits | wide
      · rcases Nat.lt_or_ge (held moved tx.from) (feeOf tx result) with short | covered
        · rw [conserves_caught evm entry (evmBody_unpaid seen fits (by rwa [same])), fee]
          have wrecked := supply_setHeld (withHost moved host) tx.from
            (env.underflowed ((withHost moved host).balanceOf tx.from) (BitVec.ofNat 256 (feeOf tx result)))
          rw [same, wholeRan] at wrecked
          constructor
          · rintro ⟨_, balance⟩
            omega
          · intro affordable
            omega
        · have coveredRan : feeOf tx result ≤ held (withHost moved host) tx.from := by rwa [same]
          rw [fee, iff_true_right covered]
          by_cases failed : Failed result host
          · rw [conserves_caught evm entry (evmBody_failed seen coveredRan failed), fee, supply_charged coveredRan]
            exact ⟨returnable_of_charged (transferable_entered.mpr transferable) shift seen coveredRan, wholeRan⟩
          · refine ⟨_, process_succeeded evm entry (evmBody_succeeded seen coveredRan failed), ?_, feeDue_le ..⟩
            rw [supply_kept, fee, supply_charged coveredRan, wholeRan]
      · rw [conserves_caught evm entry (evmBody_overcharged seen wide), wholeRan, fee]
        have bound := held_lt moved tx.from
        constructor
        · rintro ⟨_, balance⟩
          omega
        · intro affordable
          omega
  · have escaped : ∃ error after, (processTransaction env tx block txIndex).eval state = (.error (.exception error), after) :=
      process_stuck evm transferable
    obtain ⟨error, after, escapes⟩ := escaped
    constructor
    · rintro ⟨final, seen, _⟩
      rw [escapes] at seen
      cases seen
    · exact fun both => absurd both.1 transferable

/-- The handler mints the value, whether it believes the call to be payable or not. -/
theorem supply_refunded {before after : State World} (shift : Refunded tx before after) :
    supply after = supply before + tx.value.toNat := by
  cases payable : before.processingPayable with
  | false =>
    have moved : ∀ addr, held after addr + onlyAt tx.to addr 0 = held before addr + onlyAt tx.from addr tx.value.toNat := by
      intro addr
      have here := shift.held addr
      simp only [payable, Bool.false_eq_true, if_false, Nat.one_mul] at here
      rw [onlyAt_zero, here]
    exact supply_shift moved
  | true =>
    have moved : ∀ addr, held after addr + onlyAt tx.to addr tx.value.toNat =
        held before addr + onlyAt tx.from addr (2 * tx.value.toNat) := by
      intro addr
      have here := shift.held addr
      simpa only [payable, if_true] using here
    have total := supply_shift moved
    omega

private theorem feeDue_plain (classic : isEvmTransaction tx state = false) :
    feeDue env tx block state = feeLimit tx := by
  rw [feeDue, classic, if_neg Bool.false_ne_true]

private theorem conserves_refunded {later : State World} {what : Exception} (classic : isEvmTransaction tx state = false)
    (throws : (classicBody env tx txIndex).eval (entered tx state) = (.error (.exception what), later)) :
    Conserves env tx block txIndex state ↔
      Refundable tx later ∧ supply later + tx.value.toNat + feeLimit tx = supply state := by
  by_cases refundable : Refundable tx later
  · have completed : ∃ after, (processTransaction env tx block txIndex).eval state = (.ok (), finished tx after) ∧
        Refunded tx later after := process_refunded classic throws refundable
    obtain ⟨after, completes, refunded⟩ := completed
    constructor
    · rintro ⟨final, seen, balance, _⟩
      rw [completes] at seen
      cases seen
      rw [supply_finished, supply_refunded refunded, feeDue_plain classic] at balance
      exact ⟨refundable, balance⟩
    · rintro ⟨_, balance⟩
      refine ⟨_, completes, ?_, feeDue_le ..⟩
      rw [supply_finished, supply_refunded refunded, feeDue_plain classic, balance]
  · have escaped : ∃ error after, (processTransaction env tx block txIndex).eval state = (.error (.exception error), after) :=
      process_unrefunded classic throws refundable
    obtain ⟨error, after, escapes⟩ := escaped
    constructor
    · rintro ⟨final, seen, _⟩
      rw [escapes] at seen
      cases seen
    · exact fun both => absurd both.1 refundable

theorem supply_delivered {before after : State World} (shift : Delivered tx before after) :
    supply after + feeLimit tx = supply before := by
  have total := supply_shift shift.held
  omega

/-- A transfer that does not reach the contract conserves nothing, unless a wrecked
credit happens to leave the balance it found. -/
def Unharmed (env : Env World) (tx : TxBlock) (state : State World) : Prop :=
  env.overflowed (state.balanceOf tx.to) tx.value = state.balanceOf tx.to ∧
    (state.processingPayable = true → tx.value.toNat ≤ held state tx.to ∧
      held state tx.from - feeLimit tx + tx.value.toNat < 2 ^ 256)

private theorem conserves_short (classic : isEvmTransaction tx state = false) (short : ¬ Covered tx state) :
    ¬ Conserves env tx block txIndex state := by
  have shortEntered := mt covered_entered.mp short
  by_cases fits : tx.value.toNat + feeLimit tx < 2 ^ 256
  · rw [conserves_refunded classic (classicBody_stuck (classicTransfer_short fits shortEntered))]
    rintro ⟨_, balance⟩
    have wrecked := supply_setHeld (entered tx state) tx.from
      (env.underflowed ((entered tx state).balanceOf tx.from) (BitVec.ofNat 256 (tx.value.toNat + feeLimit tx)))
    rw [held_entered, supply_entered] at wrecked
    unfold Covered at short
    omega
  · have thrown : ∃ what, (classicTransfer env tx).eval (entered tx state) = (.error (.exception what), entered tx state) :=
      classicTransfer_wide fits
    obtain ⟨what, throws⟩ := thrown
    rw [conserves_refunded classic (classicBody_stuck throws), supply_entered]
    rintro ⟨_, balance⟩
    omega

/-- What the refused credit leaves: the sender has paid and the receiver is wrecked. -/
private theorem wrecked_facts (covered : Covered tx state) (apart : tx.from ≠ tx.to) {later : State World}
    (wrecked : later = setHeld (spent tx (entered tx state)) tx.to
      (env.overflowed ((spent tx (entered tx state)).balanceOf tx.to) tx.value)) :
    later.processingPayable = state.processingPayable ∧
    held later tx.to = (env.overflowed (state.balanceOf tx.to) tx.value).toNat ∧
    held later tx.from + (tx.value.toNat + feeLimit tx) = held state tx.from ∧
    supply later + held state tx.to + (tx.value.toNat + feeLimit tx) = supply state + held later tx.to := by
  have coveredEntered := covered_entered.mpr covered
  have untouched : (spent tx (entered tx state)).balanceOf tx.to = state.balanceOf tx.to :=
    BitVec.eq_of_toNat_eq ((held_spent_receiver coveredEntered apart).trans (held_entered tx state tx.to))
  rw [untouched] at wrecked
  have atReceiver : held later tx.to = (env.overflowed (state.balanceOf tx.to) tx.value).toNat := by
    rw [wrecked, held_setHeld, if_pos rfl]
  have atSender : held later tx.from + (tx.value.toNat + feeLimit tx) = held state tx.from := by
    rw [wrecked, held_setHeld, if_neg apart, ← held_entered tx state, ← held_spent coveredEntered tx.from, onlyAt_self]
  have shift : ∀ addr, held (spent tx (entered tx state)) addr + onlyAt tx.from addr (tx.value.toNat + feeLimit tx) =
      held (entered tx state) addr + onlyAt tx.from addr 0 := by
    intro addr
    rw [onlyAt_zero, held_spent coveredEntered, Nat.add_zero]
  have total := (supply_shift shift).trans (congrArg (· + 0) (supply_entered tx state))
  have credit := supply_setHeld (spent tx (entered tx state)) tx.to (env.overflowed (state.balanceOf tx.to) tx.value)
  rw [← wrecked, ← atReceiver, show held (spent tx (entered tx state)) tx.to = held state tx.to from
    congrArg BitVec.toNat untouched] at credit
  exact ⟨by rw [wrecked]; rfl, atReceiver, atSender, by omega⟩

private theorem conserves_full (classic : isEvmTransaction tx state = false) (covered : Covered tx state)
    (full : ¬ Receivable tx state) : Conserves env tx block txIndex state ↔ Unharmed env tx state := by
  have apart : tx.from ≠ tx.to := fun same => full (.inl same)
  rw [conserves_refunded classic
    (classicBody_stuck (classicTransfer_full (covered_entered.mpr covered) (mt receivable_entered.mp full)))]
  generalize wrecked : setHeld (spent tx (entered tx state)) tx.to
    (env.overflowed ((spent tx (entered tx state)).balanceOf tx.to) tx.value) = later
  obtain ⟨flag, atReceiver, atSender, total⟩ := wrecked_facts covered apart wrecked.symm
  have bound := held_lt state tx.from
  have same : env.overflowed (state.balanceOf tx.to) tx.value = state.balanceOf tx.to ↔ held later tx.to = held state tx.to := by
    rw [← BitVec.toNat_inj, ← atReceiver]
    rfl
  unfold Refundable Unharmed
  rw [flag, same]
  simp only [apart, false_or]
  constructor
  · rintro ⟨⟨_, payable⟩, balance⟩
    refine ⟨by omega, fun flagged => ?_⟩
    obtain ⟨enough, room⟩ := payable flagged
    omega
  · rintro ⟨kept, payable⟩
    refine ⟨⟨by omega, fun flagged => ?_⟩, by omega⟩
    obtain ⟨enough, room⟩ := payable flagged
    omega

private theorem conserves_delivered (classic : isEvmTransaction tx state = false) (covered : Covered tx state)
    (receivable : Receivable tx state) :
    Conserves env tx block txIndex state ↔ tx.value = 0 ∨ ¬ ContractFails env tx state := by
  have transferred : ∃ after, (classicTransfer env tx).eval (entered tx state) = (.ok (), after) ∧
      Delivered tx (entered tx state) after :=
    classicTransfer_ok (covered_entered.mpr covered) (receivable_entered.mpr receivable)
  obtain ⟨delivered, transfer, shift⟩ := transferred
  have total : supply delivered + feeLimit tx = supply state := by rw [supply_delivered shift, supply_entered]
  have completes : ∀ {later}, (contractPart env tx txIndex).eval delivered = (.ok (), later) →
      supply later = supply delivered → Conserves env tx block txIndex state := by
    intro later done same
    refine ⟨_, process_concluded classic transfer done, ?_, feeDue_le ..⟩
    rw [supply_finished, supply_congr (held_concluded tx later), same, feeDue_plain classic, total]
  unfold ContractFails
  rw [atContract_eq transfer]
  cases call : isCall env tx delivered with
  | false => exact iff_of_true (completes (contractPart_none call) rfl) (.inr fun fails => by cases fails.1)
  | true =>
    cases outcome : callOutcome env tx delivered with
    | ok returned =>
      rcases returned with ⟨world, logger⟩
      refine iff_of_true (completes (contractPart_returns call outcome) ?_) (.inr fun fails => by cases fails.2.choose_spec)
      split
      · exact supply_settled outcome
      · rfl
    | error what =>
      rw [conserves_refunded classic (classicBody_fails transfer (contractPart_fails call outcome))]
      have same : supply (aborted env tx delivered) = supply delivered := rfl
      rw [same]
      constructor
      · rintro ⟨_, balance⟩
        exact .inl (BitVec.eq_of_toNat_eq (show tx.value.toNat = 0 by omega))
      · rintro (none | unfailing)
        · have zero : tx.value.toNat = 0 := by
            rw [none]
            rfl
          have bound := held_lt (aborted env tx delivered) tx.from
          refine ⟨⟨by omega, fun _ => .inr ⟨by omega, by omega⟩⟩, by omega⟩
        · exact absurd ⟨rfl, what, rfl⟩ unfailing

/-- When a transaction outside of the machine conserves the supply. -/
def PlainConserving (env : Env World) (tx : TxBlock) (state : State World) : Prop :=
  Covered tx state ∧ ((Receivable tx state ∧ (tx.value = 0 ∨ ¬ ContractFails env tx state)) ∨
    (¬ Receivable tx state ∧ Unharmed env tx state))

theorem conserves_plain (classic : isEvmTransaction tx state = false) :
    Conserves env tx block txIndex state ↔ PlainConserving env tx state := by
  unfold PlainConserving
  by_cases covered : Covered tx state
  · by_cases receivable : Receivable tx state
    · simp only [covered, receivable, true_and, not_true, false_and, or_false]
      exact conserves_delivered classic covered receivable
    · simp only [covered, receivable, true_and, not_false_eq_true, false_and, false_or]
      exact conserves_full classic covered receivable
  · exact iff_of_false (conserves_short classic covered) fun both => covered both.1

/-- A transaction conserves the supply exactly if value and fee are covered in the
moment it runs, the receiver can take the value, and no built-in contract throws on
a call that carries value. -/
theorem transaction_conserves_supply_iff (env : Env World) (tx : TxBlock) (block : BlockContext) (txIndex : UInt64)
    (state : State World) : Conserves env tx block txIndex state ↔
      if isEvmTransaction tx state then Transferable env tx state ∧ MachineAffordable env tx block state
      else PlainConserving env tx state := by
  split
  case isTrue evm => exact conserves_machine evm
  case isFalse classic => exact conserves_plain (Bool.not_eq_true _ ▸ classic)

/-- Surroundings in which only the behaviour of the machine is left open. -/
def bareEnv (evmcExecute : EvmcMessage → Bytes → Program) : Env Unit where
  vm :=
    { sha3 := fun _ => 0
      evmcExecute
      verifySig := fun _ _ _ => false
      recover := fun _ _ _ _ => .error "invalid signature"
      pastInput := fun _ => []
      statusCodeToString := fun _ => "" }
  contracts :=
    { isDeployed := fun _ _ => false
      isPayableFunction := fun _ _ _ => false
      createContractFunc := fun _ _ _ => none
      ethCall := fun _ _ _ => .throw ""
      ethCallView := fun _ _ _ => .error "" }
  chainOwner := 0
  chainID := 8080
  rdposValidateBlock := fun _ _ => true
  overflowed := fun left right => left + right
  underflowed := fun left right => right - left

/-- A machine that stops at once. -/
abbrev stoppingEnv : Env Unit := bareEnv fun _ _ => .done .success 0 []

def genesis : Block where
  validatorSig := []
  prevBlockHash := 0
  blockRandomness := 0
  validatorMerkleRoot := 0
  txMerkleRoot := 0
  timestamp := 1656356645000000
  nHeight := 0
  txValidators := []
  txs := []
  validator := 0
  finalized := true
  hash := 1

/-- A fresh chain on which one account holds a thousand coins. -/
def freshState : State Unit :=
  construct { nativeAccounts := [(7, 1000000000000000000000, 0)] } () [] 0 ⟨[], genesis⟩

def donation : TxBlock where
  «to» := rdPoSAddress
  «from» := 7
  data := []
  chainId := 8080
  nonce := 0
  value := 100000
  maxPriorityFeePerGas := 0
  maxFeePerGas := 1
  gasLimit := 21000
  v := 27
  r := 1
  s := 1
  hash := 2

def firstBlock : BlockContext := ⟨3, 1, 0, 1656356646000000, 100000000, 8080⟩

/-- The value stays with the contract and is refunded: the supply grows. -/
theorem failing_call_mints :
    freshState.validateTransactionInternal donation = .ok .notInvalid ∧
    supply freshState < supply ((processTransaction stoppingEnv donation firstBlock 0).eval
      freshState).2 ∧
    ¬ Conserves stoppingEnv donation firstBlock 0 freshState := by
  have grows : supply freshState < supply ((processTransaction stoppingEnv donation firstBlock
      0).eval freshState).2 := by decide
  refine ⟨by decide, grows, ?_⟩
  rintro ⟨after, seen, balance, _⟩
  rw [seen] at grows
  have more : supply freshState < supply after := grows
  omega

end OrbiterSDK.Proofs.Conservation
