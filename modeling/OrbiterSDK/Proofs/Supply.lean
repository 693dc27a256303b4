import OrbiterSDK.Proofs.Paths

/-! The sum of all current balances across one transaction. Every way through the
code moves a known amount between two accounts, and a finished payable call moves
amounts between accounts without changing their sum. -/

namespace OrbiterSDK
open Lib

structure Transfer where
  «from» : Address
  «to» : Address
  amount : Uint256

namespace ContractProgram
variable {World : Type}

/-- The transfers that a run of contract code makes, in their order. -/
def transfers (accounts : Table Address EVMAccount) : ContractProgram World → ContractCallLogger → List Transfer
  | done _, _ => []
  | throw _, _ => []
  | write _ next, logger => next.transfers accounts logger
  | getBalance address next, logger =>
    let logger := logger.populateBalance accounts address
    (next (logger.balances.value address)).transfers accounts logger
  | sendTokens «from» «to» amount next, logger =>
    match logger.sendTokens accounts «from» «to» amount with
    | .error _ => []
    | .ok logger => ⟨«from», «to», amount⟩ :: next.transfers accounts logger
  | emitEvent event next, logger => next.transfers accounts { logger with tempEvents := logger.tempEvents ++ [event] }

end ContractProgram
end OrbiterSDK

namespace OrbiterSDK.Proofs.Supply
open Lib State Statements Transaction Classic Paths

variable {World : Type}

def weight (acc : EVMAccount) : Nat := acc.balance.second.toNat

/-- The sum of the current balances of all accounts. -/
def supply (state : State World) : Nat := state.evmHost.accounts.total weight

theorem supply_shift {before after : State World} {left right : Address} {lost won : Nat}
    (shift : ∀ addr, held after addr + onlyAt left addr lost = held before addr + onlyAt right addr won) :
    supply after + lost = supply before + won :=
  Table.total_shift rfl shift

theorem supply_congr {before after : State World} (same : ∀ addr, held after addr = held before addr) :
    supply after = supply before :=
  Table.total_congr rfl same

theorem supply_setHeld (state : State World) (addr : Address) (balance : Uint256) :
    supply (setHeld state addr balance) + held state addr = supply state + balance.toNat := by
  have shift : ∀ other, held (setHeld state addr balance) other + onlyAt addr other (held state addr) =
      held state other + onlyAt addr other balance.toNat := by
    intro other
    rw [held_setHeld, onlyAt, onlyAt]
    split
    case isTrue same => rw [same, Nat.add_comm]
    case isFalse => rfl
  exact supply_shift shift

theorem supply_finished (tx : TxBlock) (state : State World) : supply (finished tx state) = supply state :=
  supply_congr (held_finished tx state)

theorem supply_entered (tx : TxBlock) (state : State World) : supply (entered tx state) = supply state :=
  supply_congr (held_entered tx state)

def sent (transfers : List Transfer) (addr : Address) : Nat :=
  (transfers.map fun transfer => onlyAt transfer.from addr transfer.amount.toNat).sum

def received (transfers : List Transfer) (addr : Address) : Nat :=
  (transfers.map fun transfer => onlyAt transfer.to addr transfer.amount.toNat).sum

variable {accounts : Table Address EVMAccount} {logger after : ContractCallLogger} {«from» «to» : Address} {amount : Uint256}

theorem stateBalance_toNat (accounts : Table Address EVMAccount) (addr : Address) :
    (ContractCallLogger.stateBalance accounts addr).toNat = weight (accounts.value addr) := by
  unfold ContractCallLogger.stateBalance Table.find
  split
  case h_1 acc found =>
    split at found
    · cases found
      rfl
    · cases found
  case h_2 missing =>
    split at missing
    · cases missing
    case isFalse outside =>
      rw [accounts.absent addr outside]
      rfl

theorem mem_populateBalance (accounts : Table Address EVMAccount) (logger : ContractCallLogger) (addr : Address) :
    addr ∈ (logger.populateBalance accounts addr).balances.keys := by
  unfold ContractCallLogger.populateBalance
  split
  case isTrue present => simpa [Table.contains] using present
  case isFalse => exact Finset.mem_insert_self _ _

theorem populateBalance_keys (accounts : Table Address EVMAccount) (logger : ContractCallLogger) (addr : Address) :
    logger.balances.keys ⊆ (logger.populateBalance accounts addr).balances.keys := by
  unfold ContractCallLogger.populateBalance
  split
  case isTrue => exact Finset.Subset.refl _
  case isFalse => exact Finset.subset_insert _ _

/-- What an address has during a call. -/
def balanceIn (accounts : Table Address EVMAccount) (logger : ContractCallLogger) (addr : Address) : Nat :=
  if addr ∈ logger.balances.keys then (logger.balances.value addr).toNat else weight (accounts.value addr)

theorem balanceIn_populate (address addr : Address) : balanceIn accounts (logger.populateBalance accounts address) addr = balanceIn accounts logger addr := by
  unfold ContractCallLogger.populateBalance
  split
  case isTrue => rfl
  case isFalse absent =>
    have outside : address ∉ logger.balances.keys := fun inside => absent (decide_eq_true inside)
    unfold balanceIn
    by_cases same : addr = address
    · have inside : address ∈ (logger.balances.modify address fun _ => ContractCallLogger.stateBalance accounts address).keys :=
        Finset.mem_insert_self _ _
      rw [same, if_pos inside, if_neg outside, Table.modify_value_self, stateBalance_toNat]
    · have keys : addr ∈ insert address logger.balances.keys ↔ addr ∈ logger.balances.keys := by
        rw [Finset.mem_insert, or_iff_right same]
      simp only [Table.modify_keys, keys, Table.modify_value_of_ne _ _ same]

/-- A transfer takes from one address what it gives to the other. -/
theorem balanceIn_sendTokens (done : logger.sendTokens accounts «from» «to» amount = .ok after) (addr : Address) :
    balanceIn accounts after addr + onlyAt «from» addr amount.toNat = balanceIn accounts logger addr + onlyAt «to» addr amount.toNat := by
  have populated : balanceIn accounts ((logger.populateBalance accounts «from»).populateBalance accounts «to») addr = balanceIn accounts logger addr :=
    (balanceIn_populate «to» addr).trans (balanceIn_populate «from» addr)
  have fromIn := populateBalance_keys accounts _ «to» (mem_populateBalance accounts logger «from»)
  have toIn := mem_populateBalance accounts (logger.populateBalance accounts «from») «to»
  unfold ContractCallLogger.sendTokens at done
  rw [← populated]
  generalize (logger.populateBalance accounts «from»).populateBalance accounts «to» = ready at done fromIn toIn ⊢
  dsimp only at done
  split at done
  · cases done
  · cases paid : Uint256.sub (ready.balances.value «from») amount with
    | error what =>
      rw [paid] at done
      cases done
    | ok rest =>
      cases credited : Uint256.add ((ready.balances.modify «from» fun _ => rest).value «to») amount with
      | error what =>
        simp only [paid, credited, bind, Except.bind] at done
        cases done
      | ok sum =>
        simp only [paid, credited, bind, Except.bind, pure, Except.pure] at done
        cases done
        have restNat := Uint256.sub_eq_ok.mp paid
        have sumNat := Uint256.add_eq_ok.mp credited
        have keys : ((ready.balances.modify «from» fun _ => rest).modify «to» fun _ => sum).keys = ready.balances.keys := by
          rw [Table.modify_keys, Table.modify_keys, Finset.insert_eq_of_mem fromIn, Finset.insert_eq_of_mem toIn]
        unfold balanceIn
        dsimp only
        rw [keys]
        by_cases inside : addr ∈ ready.balances.keys
        · rw [if_pos inside, if_pos inside]
          rw [Table.modify_value] at sumNat
          rw [Table.modify_value, Table.modify_value]
          by_cases toHere : addr = «to»
          · by_cases fromHere : addr = «from»
            · rw [if_pos (toHere.symm.trans fromHere)] at sumNat
              rw [if_pos toHere, ← toHere, ← fromHere, onlyAt_self]
              rw [← fromHere] at restNat
              omega
            · rw [if_neg fun same => fromHere (toHere.trans same)] at sumNat
              rw [if_pos toHere, toHere, onlyAt_self, onlyAt_of_ne fun same => fromHere (toHere.trans same)]
              omega
          · rw [if_neg toHere, onlyAt_of_ne toHere]
            by_cases fromHere : addr = «from»
            · rw [if_pos fromHere, fromHere, onlyAt_self]
              omega
            · rw [if_neg fromHere, onlyAt_of_ne fromHere]
        · have fromApart : addr ≠ «from» := fun same => inside (same ▸ fromIn)
          have toApart : addr ≠ «to» := fun same => inside (same ▸ toIn)
          rw [if_neg inside, if_neg inside, onlyAt_of_ne fromApart, onlyAt_of_ne toApart]

/-- After a run each address has what it had, and what it received without what it sent. -/
theorem balanceIn_run (program : ContractProgram World) : ∀ {logger after : ContractCallLogger} {world : World},
    program.run accounts logger = .ok (world, after) → ∀ addr,
    balanceIn accounts after addr + sent (program.transfers accounts logger) addr =
      balanceIn accounts logger addr + received (program.transfers accounts logger) addr := by
  induction program with
  | done world =>
    intro logger after final returns addr
    cases returns
    rfl
  | throw what =>
    intro logger after final returns
    cases returns
  | write world next ih =>
    intro logger after final returns addr
    exact ih returns addr
  | getBalance address next ih =>
    intro logger after final returns addr
    have rest := ih _ returns addr
    rw [balanceIn_populate] at rest
    exact rest
  | sendTokens source target amount next ih =>
    intro logger after final returns addr
    unfold ContractProgram.run at returns
    unfold ContractProgram.transfers
    cases moved : logger.sendTokens accounts source target amount with
    | error what =>
      rw [moved] at returns
      cases returns
    | ok between =>
      rw [moved] at returns
      have here := balanceIn_sendTokens moved addr
      have rest := ih returns addr
      simp only [sent, received, List.map_cons, List.sum_cons] at rest ⊢
      omega
  | emitEvent event next ih =>
    intro logger after final returns addr
    exact ih returns addr

variable {env : Env World} {tx : TxBlock} {state : State World}

theorem held_settled (balances : Table Address Uint256) (addr : Address) :
    held (withHost state (settledHost balances state.evmHost)) addr =
      if addr ∈ balances.keys then (balances.value addr).toNat else held state addr := by
  have entry : (settledHost balances state.evmHost).accounts.value addr =
      if addr ∈ balances.keys then
        { state.evmHost.accounts.value addr with balance := (state.evmHost.accounts.value addr).balance.write (balances.value addr) }
      else state.evmHost.accounts.value addr := rfl
  unfold held State.balanceOf EVMHost.balanceOf EVMHost.account
  rw [withHost_evmHost, entry]
  by_cases inside : addr ∈ balances.keys
  · rw [if_pos inside, if_pos inside]
    rfl
  · rw [if_neg inside, if_neg inside]

/-- What the called contract transfers. -/
def callTransfers (env : Env World) (tx : TxBlock) (state : State World) : List Transfer :=
  (state.contractManager.called env.contracts env.chainOwner tx.txToCallInfo).transfers state.evmHost.accounts {}

/-- The balances of a payable call are those after its transfers, of all accounts. -/
theorem held_after_call {world : World} {logger : ContractCallLogger} (returns : callOutcome env tx state = .ok (world, logger)) (addr : Address) :
    held (withHost state (settledHost logger.balances state.evmHost)) addr + sent (callTransfers env tx state) addr =
      held state addr + received (callTransfers env tx state) addr := by
  have settled : held (withHost state (settledHost logger.balances state.evmHost)) addr = balanceIn state.evmHost.accounts logger addr :=
    held_settled logger.balances addr
  have start : balanceIn state.evmHost.accounts {} addr = held state addr := if_neg (Finset.notMem_empty addr)
  have run := balanceIn_run _ returns addr
  rw [start] at run
  rw [settled]
  exact run

/-- Handing the balances of a finished call back to the accounts keeps the supply. -/
theorem supply_settled {world : World} {logger : ContractCallLogger} (returns : callOutcome env tx state = .ok (world, logger)) :
    supply (withHost state (settledHost logger.balances state.evmHost)) = supply state :=
  Table.total_transfers rfl _ (held_after_call returns)

end OrbiterSDK.Proofs.Supply
