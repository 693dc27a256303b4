import OrbiterSDK.ContractCalls
import OrbiterSDK.Lib.Reader

/-! What a contract reads about its call after it has called others. Nothing is put back when
a call returns, so the last entry into a contract decides. -/

namespace OrbiterSDK.ContractManagerInterface

mutual

/-- The caller and the value of the last entry into a contract during a call that `self` makes. -/
def lastEntry (contract self : Address) : ContractCall → Option (Address × Uint256)
  | .call target value inner _ =>
    (lastEntryOf contract target inner).or (if target = contract then some (self, value) else none)

def lastEntryOf (contract self : Address) : List ContractCall → Option (Address × Uint256)
  | [] => none
  | call :: rest => (lastEntryOf contract self rest).or (lastEntry contract self call)

end

/-- Whether a call of a contract that was entered with a context leaves it with this one. -/
def leaves (self caller : Address) (value : Uint256) (call : ContractCall) : Bool :=
  (lastEntry self self call).all fun entry => entry = (caller, value)

mutual

/-- A call by `self` in which every contract is left with its own context by the calls that it makes. -/
def nested (self : Address) : ContractCall → Bool
  | .call target value inner _ => nestedAll target self value inner

/-- The same for the calls of a contract that was entered by a caller with a value. -/
def nestedAll (self caller : Address) (value : Uint256) : List ContractCall → Bool
  | [] => true
  | call :: rest => leaves self caller value call && nested self call && nestedAll self caller value rest

end

end OrbiterSDK.ContractManagerInterface

namespace OrbiterSDK.Proofs.CallContexts
open Lib ContractManagerInterface

/-- The getters say the same before and after an inner call. -/
def Same (record : Return) : Prop := record.before = record.after

instance (record : Return) : Decidable (Same record) := inferInstanceAs (Decidable (_ = _))

section Runs
variable {around : Surroundings} {self origin caller : Address} {value : Uint256} {state : CallState}

/-- What is in the place of a contract after the entries of a run. -/
def lastLocals (origin : Address) (entry : Option (Address × Uint256)) (before : ContractLocals) : ContractLocals :=
  match entry with
  | some (caller, value) => ⟨origin, caller, value⟩
  | none => before

theorem lastLocals_or (second first : Option (Address × Uint256)) (before : ContractLocals) :
    lastLocals origin (second.or first) before = lastLocals origin second (lastLocals origin first before) := by
  cases second with
  | none => rfl
  | some entry => rfl

theorem lastLocals_origin {entry : Option (Address × Uint256)} {before : ContractLocals} (same : before.origin = origin) :
    (lastLocals origin entry before).origin = origin := by
  cases entry with
  | none => exact same
  | some entry => rfl

theorem enter_locals {target : Address} {entered : CallState} (done : enter around origin self target value state = .ok entered)
    (contract : Address) : entered.locals contract =
      lastLocals origin (if target = contract then some (self, value) else none) (state.locals contract) := by
  have locals : entered.locals = ContractCallLogger.setContractVars state.locals target origin self value := by
    obtain ⟨logger, _, done⟩ := bind_ok.mp done
    split at done
    · cases done
    · cases done
      rfl
  rw [locals]
  unfold ContractCallLogger.setContractVars
  by_cases same : target = contract
  · rw [if_pos same, ← same, Function.update_self]
    rfl
  · rw [if_neg same, Function.update_of_ne (Ne.symm same)]
    rfl

private theorem finish_returns (thrown : Option Exception) (outcome : CallOutcome) : (finish thrown outcome).returns = outcome.returns := by
  unfold finish
  split
  · rfl
  · rfl

theorem finish_state (thrown : Option Exception) (outcome : CallOutcome) : (finish thrown outcome).state = outcome.state := by
  unfold finish
  split
  · rfl
  · rfl

private theorem finish_ok {thrown : Option Exception} {outcome : CallOutcome} (done : (finish thrown outcome).result = .ok ()) : outcome.result = .ok () := by
  unfold finish at done
  split at done
  · cases done
  · exact done

variable {target : Address} {inner rest : List ContractCall} {thrown : Option Exception} {call : ContractCall} {what : Exception}

private theorem call_refused (refused : enter around (state.locals self).origin self target value state = .error what) :
    callContractFunction around self (.call target value inner thrown) state = ⟨.error what, [], state⟩ := by
  rw [callContractFunction, refused]

private theorem call_entered {entered : CallState} (entering : enter around (state.locals self).origin self target value state = .ok entered) :
    callContractFunction around self (.call target value inner thrown) state = finish thrown (callAll around target inner entered) := by
  rw [callContractFunction, entering]

theorem callAll_failed {first : CallOutcome} (ran : callContractFunction around self call state = first) (failed : first.result = .error what) :
    callAll around self (call :: rest) state = ⟨.error what, first.returns, first.state⟩ := by
  rw [callAll, ran]
  dsimp only
  rw [failed]

theorem callAll_returned {first : CallOutcome} (ran : callContractFunction around self call state = first) (returned : first.result = .ok ()) :
    callAll around self (call :: rest) state = { callAll around self rest first.state with
      returns := first.returns ++ ⟨self, state.locals self, first.state.locals self⟩ :: (callAll around self rest first.state).returns } := by
  rw [callAll, ran]
  dsimp only
  rw [returned]

mutual

/-- A call is refused, or the target is entered with what the call says and finishes. -/
theorem call_cases {target : Address} {value : Uint256} {inner : List ContractCall} {thrown : Option Exception} {self : Address}
    {state : CallState} {outcome : CallOutcome} (known : (state.locals self).origin = origin)
    (ran : callContractFunction around self (.call target value inner thrown) state = outcome) :
    (∃ what, outcome = ⟨.error what, [], state⟩) ∨
    ∃ entered, (∀ contract, entered.locals contract =
        lastLocals origin (if target = contract then some (self, value) else none) (state.locals contract)) ∧
      entered.locals target = ⟨origin, self, value⟩ ∧ outcome = finish thrown (callAll around target inner entered) := by
  cases entering : enter around (state.locals self).origin self target value state with
  | error what => exact .inl ⟨what, ran.symm.trans (call_refused entering)⟩
  | ok entered =>
    rw [call_entered entering] at ran
    rw [known] at entering
    have own := enter_locals entering target
    rw [if_pos rfl] at own
    exact .inr ⟨entered, enter_locals entering, own, ran.symm⟩

/-- A call that returns has written the last entry into each contract, and nothing else. -/
theorem call_locals (call : ContractCall) {self : Address} {state : CallState} {outcome : CallOutcome}
    (known : (state.locals self).origin = origin) (ran : callContractFunction around self call state = outcome)
    (returned : outcome.result = .ok ()) (contract : Address) :
    outcome.state.locals contract = lastLocals origin (lastEntry contract self call) (state.locals contract) := by
  cases call with
  | call target value inner thrown =>
    rcases call_cases known ran with ⟨what, rfl⟩ | ⟨entered, locals, own, rfl⟩
    · cases returned
    · rw [finish_state, callAll_locals inner (congrArg ContractLocals.origin own) rfl (finish_ok returned) contract, lastEntry, lastLocals_or,
        ← locals]

theorem callAll_locals (calls : List ContractCall) {self : Address} {state : CallState} {outcome : CallOutcome}
    (known : (state.locals self).origin = origin) (ran : callAll around self calls state = outcome)
    (returned : outcome.result = .ok ()) (contract : Address) :
    outcome.state.locals contract = lastLocals origin (lastEntryOf contract self calls) (state.locals contract) := by
  cases calls with
  | nil =>
    rw [← ran]
    rfl
  | cons call rest =>
    cases first : (callContractFunction around self call state).result with
    | error what =>
      rw [← ran, callAll_failed rfl first] at returned
      cases returned
    | ok _ =>
      rw [callAll_returned rfl first] at ran
      have locals := call_locals call known rfl first
      have own : ((callContractFunction around self call state).state.locals self).origin = origin := by
        rw [locals]
        exact lastLocals_origin known
      rw [← ran] at returned ⊢
      rw [callAll_locals rest own rfl returned contract, lastEntryOf, lastLocals_or, ← locals]

end

theorem leaves_iff (origin : Address) (call : ContractCall) : leaves self caller value call = true ↔
    lastLocals origin (lastEntry self self call) ⟨origin, caller, value⟩ = ⟨origin, caller, value⟩ := by
  unfold leaves lastLocals
  cases lastEntry self self call with
  | none => exact iff_of_true rfl rfl
  | some entry =>
    obtain ⟨another, amount⟩ := entry
    rw [Option.all_some, decide_eq_true_iff, Prod.mk.injEq, ContractLocals.mk.injEq, and_iff_right rfl]

mutual

theorem nested_same (call : ContractCall) {self : Address} {state : CallState} {outcome : CallOutcome}
    (known : (state.locals self).origin = origin) (ran : callContractFunction around self call state = outcome)
    (kept : nested self call = true) : ∀ record ∈ outcome.returns, Same record := by
  cases call with
  | call target value inner thrown =>
    rcases call_cases known ran with ⟨what, rfl⟩ | ⟨entered, _, own, rfl⟩
    · exact fun record member => absurd member List.not_mem_nil
    · rw [finish_returns]
      exact nestedAll_same inner own rfl kept

/-- As long as each contract is left with its own context, it reads the same after every call. -/
theorem nestedAll_same (calls : List ContractCall) {self caller : Address} {value : Uint256} {state : CallState} {outcome : CallOutcome}
    (own : state.locals self = ⟨origin, caller, value⟩) (ran : callAll around self calls state = outcome)
    (kept : nestedAll self caller value calls = true) : ∀ record ∈ outcome.returns, Same record := by
  cases calls with
  | nil =>
    rw [← ran]
    exact fun record member => absurd member List.not_mem_nil
  | cons call rest =>
    have known : (state.locals self).origin = origin := by rw [own]
    obtain ⟨here, later⟩ := Bool.and_eq_true_iff.mp kept
    obtain ⟨left, inside⟩ := Bool.and_eq_true_iff.mp here
    have inner := nested_same call known rfl inside
    cases first : (callContractFunction around self call state).result with
    | error what =>
      rw [← ran, callAll_failed rfl first]
      exact inner
    | ok _ =>
      have back : (callContractFunction around self call state).state.locals self = ⟨origin, caller, value⟩ := by
        rw [call_locals call known rfl first, own]
        exact (leaves_iff origin call).mp left
      rw [← ran, callAll_returned rfl first]
      intro record member
      cases List.mem_append.mp member with
      | inl early => exact inner record early
      | inr late =>
        cases List.mem_cons.mp late with
        | inl this =>
          rw [this]
          exact own.trans back.symm
        | inr after => exact nestedAll_same rest back rfl later record after

end

mutual

theorem same_nested (call : ContractCall) {self : Address} {state : CallState} {outcome : CallOutcome}
    (known : (state.locals self).origin = origin) (ran : callContractFunction around self call state = outcome)
    (returned : outcome.result = .ok ()) (same : ∀ record ∈ outcome.returns, Same record) : nested self call = true := by
  cases call with
  | call target value inner thrown =>
    rcases call_cases known ran with ⟨what, rfl⟩ | ⟨entered, _, own, rfl⟩
    · cases returned
    · rw [finish_returns] at same
      exact same_nestedAll inner own rfl (finish_ok returned) same

/-- A contract that always reads the same was always left with its own context. -/
theorem same_nestedAll (calls : List ContractCall) {self caller : Address} {value : Uint256} {state : CallState} {outcome : CallOutcome}
    (own : state.locals self = ⟨origin, caller, value⟩) (ran : callAll around self calls state = outcome)
    (returned : outcome.result = .ok ()) (same : ∀ record ∈ outcome.returns, Same record) :
    nestedAll self caller value calls = true := by
  cases calls with
  | nil => rfl
  | cons call rest =>
    have known : (state.locals self).origin = origin := by rw [own]
    cases first : (callContractFunction around self call state).result with
    | error what =>
      rw [← ran, callAll_failed rfl first] at returned
      cases returned
    | ok _ =>
      rw [← ran, callAll_returned rfl first] at returned same
      have back : (callContractFunction around self call state).state.locals self = ⟨origin, caller, value⟩ := by
        have here := same _ (List.mem_append_right _ List.mem_cons_self)
        exact here.symm.trans own
      have left : leaves self caller value call = true := by
        apply (leaves_iff origin call).mpr
        rw [← own, ← call_locals call known rfl first, back, own]
      have inside := same_nested call known rfl first fun record early => same record (List.mem_append_left _ early)
      have later := same_nestedAll rest back rfl returned fun record late =>
        same record (List.mem_append_right _ (List.mem_cons_of_mem _ late))
      exact Bool.and_eq_true_iff.mpr ⟨Bool.and_eq_true_iff.mpr ⟨left, inside⟩, later⟩

end

end Runs

/-- In a transaction in which every contract that is entered again during one of its calls is
entered last by its own caller with its own value, every contract reads the same after each
call as before. If the transaction goes through, it has to be like that. -/
theorem contexts_kept_iff (around : Surroundings) (tx : TxBlock) (inner : List ContractCall) (thrown : Option Exception)
    (locals : Address → ContractLocals) :
    (nestedAll tx.to tx.from tx.value inner = true → ∀ record ∈ (callContract around tx inner thrown locals).returns, Same record) ∧
      ((callContract around tx inner thrown locals).result = .ok () →
        ((∀ record ∈ (callContract around tx inner thrown locals).returns, Same record) ↔ nestedAll tx.to tx.from tx.value inner = true)) := by
  have own : CallState.locals { locals := ContractCallLogger.setContractVars locals tx.to tx.from tx.from tx.value } tx.to =
      ⟨tx.from, tx.from, tx.value⟩ := Function.update_self _ _ _
  unfold callContract
  cases around.contracts tx.to with
  | false =>
    constructor
    · exact fun _ record member => absurd member List.not_mem_nil
    · intro returned
      cases returned
  | true =>
    simp only [Bool.not_true, Bool.false_eq_true, if_false, finish_returns]
    have forward := @nestedAll_same around tx.from inner tx.to tx.from tx.value _ _ own rfl
    constructor
    · exact forward
    · intro returned
      constructor
      · exact same_nestedAll inner own rfl (finish_ok returned)
      · exact forward

/-- A user, two contracts, and a transaction to the first of them with a value. -/
abbrev around : Surroundings := { accounts := default, contracts := fun address => address = 1 ∨ address = 2 }

abbrev payment : TxBlock :=
  { «to» := 1, «from» := 7, data := [], chainId := 0, nonce := 0, value := 5, maxPriorityFeePerGas := 0, maxFeePerGas := 0,
    gasLimit := 0, v := 0, r := 0, s := 0, hash := 0 }

/-- The first contract calls the second one twice. If that calls nobody, both read what they read before; if it calls back, they do not. -/
theorem plain_calls_keep_context :
    (∀ record ∈ (callContract around payment [.call 2 0 [] none, .call 2 0 [] none] none fun _ => ⟨0, 0, 0⟩).returns, Same record) ∧
      ¬ ∀ record ∈ (callContract around payment [.call 2 0 [] none, .call 2 0 [.call 1 0 [] none] none] none fun _ => ⟨0, 0, 0⟩).returns,
        Same record := by
  constructor
  · exact (contexts_kept_iff around payment [.call 2 0 [] none, .call 2 0 [] none] none fun _ => ⟨0, 0, 0⟩).1 (by decide)
  · rw [(contexts_kept_iff around payment [.call 2 0 [] none, .call 2 0 [.call 1 0 [] none] none] none fun _ => ⟨0, 0, 0⟩).2 rfl]
    decide

/-- The second contract calls the first one back, which then takes it for its own caller. -/
theorem callback_changes_context :
    let outcome := callContract around payment [.call 2 0 [.call 1 0 [] none] none] none fun _ => ⟨0, 0, 0⟩
    outcome.result.isOk = true ∧ outcome.returns = [⟨2, ⟨7, 1, 0⟩, ⟨7, 1, 0⟩⟩, ⟨1, ⟨7, 7, 5⟩, ⟨7, 2, 0⟩⟩] ∧
      ¬ ∀ record ∈ outcome.returns, Same record := by
  decide

end OrbiterSDK.Proofs.CallContexts
