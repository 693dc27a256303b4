import OrbiterSDK.ContractCalls
import OrbiterSDK.Proofs.Conservation

/-! The transfers that contracts make during a call. They are made in balances of the call's own,
which become those of the state only if the called function is payable. -/

namespace OrbiterSDK.Proofs.TokenTransfers
open Lib State Statements Transaction Classic Paths Supply

variable {World : Type}

variable (env : Env World) (tx : TxBlock) (block : BlockContext) (txIndex : UInt64) (state : State World)

/-- A transaction to a contract, in the state after the transfer of its value. If the call goes
through, every account ends with what it received less what it sent exactly if the called function
is payable or the transfers cancel each other out. If the call fails, the handler of the
exception starts from the balances before the call. -/
theorem transfers_applied_iff {delivered : State World} (classic : isEvmTransaction tx state = false)
    (transfer : (classicTransfer env tx).eval (entered tx state) = (.ok (), delivered)) (call : isCall env tx delivered = true) :
    (∀ returned, callOutcome env tx delivered = .ok returned →
      ∃ final, (processTransaction env tx block txIndex).eval state = (.ok (), final) ∧
        ((∀ addr, held final addr + sent (callTransfers env tx delivered) addr = held delivered addr + received (callTransfers env tx delivered) addr) ↔
          settles env tx delivered = true ∨ ∀ addr, sent (callTransfers env tx delivered) addr = received (callTransfers env tx delivered) addr)) ∧
    ∀ what, callOutcome env tx delivered = .error what →
      ∃ failed, (∀ addr, held failed addr = held delivered addr) ∧
        (processTransaction env tx block txIndex).eval state =
          match (classicRollback env tx).eval failed with
          | (.ok _, after) => (.ok (), finished tx after)
          | (.error stop, after) => (.error stop, after) := by
  constructor
  · rintro ⟨world, logger⟩ returns
    refine ⟨_, process_concluded classic transfer (contractPart_returns call returns), ?_⟩
    have final (addr : Address) : held (finished tx (concluded tx (kept tx txIndex world logger
        (if settles env tx delivered then withHost delivered (settledHost logger.balances delivered.evmHost) else delivered)))) addr =
        held (if settles env tx delivered then withHost delivered (settledHost logger.balances delivered.evmHost) else delivered) addr :=
      (held_finished tx _ addr).trans (held_concluded tx _ addr)
    simp only [final]
    cases paid : settles env tx delivered with
    | true =>
      simp only [if_true, true_or, iff_true]
      exact held_after_call returns
    | false =>
      simp only [Bool.false_eq_true, if_false, false_or]
      exact forall_congr' fun addr => Nat.add_left_cancel_iff
  · intro what fails
    refine ⟨aborted env tx delivered, fun _ => rfl, ?_⟩
    have thrown : (classicBody env tx txIndex).eval (entered tx state) = (.error (.exception what), aborted env tx delivered) :=
      classicBody_fails transfer (contractPart_fails call fails)
    have caught := classicTransaction_caught thrown
    cases rolled : (classicRollback env tx).eval (aborted env tx delivered) with
    | mk outcome after =>
      rw [rolled] at caught
      cases outcome with
      | ok => simp only [processTransaction_eq, dispatch_classic classic, caught]
      | error => simp only [processTransaction_eq, dispatch_classic classic, caught]

/-- Two contracts, the first of them with a payable function. Each sends 40 to the other. -/
def sendingEnv : Env Unit :=
  { Conservation.bareEnv fun _ _ => .done .success 0 [] with
    contracts :=
      { isDeployed := fun _ address => address = 1 ∨ address = 2
        isPayableFunction := fun _ address _ => address = 1
        createContractFunc := fun _ _ _ => none
        ethCall := fun _ _ callInfo =>
          .callContractFunction (fun address => address = 1 ∨ address = 2) callInfo.to (3 - callInfo.to) 40 (.done ())
        ethCallView := fun _ _ _ => .error "" } }

def paymentTo (receiver : Address) : TxBlock := { Conservation.donation with «to» := receiver }

open Conservation

theorem payable_transfers_applied : ∃ final, (processTransaction sendingEnv (paymentTo 1) firstBlock 0).eval freshState = (.ok (), final) ∧
    ∀ addr, held final addr + sent (callTransfers sendingEnv (paymentTo 1) (atContract sendingEnv (paymentTo 1) freshState)) addr =
      held (atContract sendingEnv (paymentTo 1) freshState) addr +
        received (callTransfers sendingEnv (paymentTo 1) (atContract sendingEnv (paymentTo 1) freshState)) addr := by
  have transfer : (classicTransfer sendingEnv (paymentTo 1)).eval (entered (paymentTo 1) freshState) =
      (.ok (), atContract sendingEnv (paymentTo 1) freshState) := by
    obtain ⟨delivered, done, _⟩ := @classicTransfer_ok _ sendingEnv (paymentTo 1) (entered (paymentTo 1) freshState)
      (by unfold Covered; decide) (by unfold Receivable; decide)
    rw [atContract_eq done]
    exact done
  have results := transfers_applied_iff sendingEnv (paymentTo 1) firstBlock 0 freshState (by decide) transfer (by decide)
  cases outcome : callOutcome sendingEnv (paymentTo 1) (atContract sendingEnv (paymentTo 1) freshState) with
  | ok returned =>
    obtain ⟨final, done, applied⟩ := results.1 returned outcome
    exact ⟨final, done, applied.mpr (.inl (by decide))⟩
  | error what =>
    have returns : (callOutcome sendingEnv (paymentTo 1) (atContract sendingEnv (paymentTo 1) freshState)).isOk = true := by decide
    rw [outcome] at returns
    cases returns

/-- The second contract's transfer goes through in its call and is lost at the end of it. -/
theorem unpayable_transfers_lost :
    let delivered := atContract sendingEnv (paymentTo 2) freshState
    let outcome := (processTransaction sendingEnv (paymentTo 2) firstBlock 0).eval freshState
    (callOutcome sendingEnv (paymentTo 2) delivered).isOk = true ∧ outcome.1 = .ok () ∧
      sent (callTransfers sendingEnv (paymentTo 2) delivered) 2 = 40 ∧ received (callTransfers sendingEnv (paymentTo 2) delivered) 1 = 40 ∧
      held delivered 2 = 100000 ∧ held outcome.2 2 = 100000 ∧ held delivered 1 = 0 ∧ held outcome.2 1 = 0 := by
  decide

end OrbiterSDK.Proofs.TokenTransfers
