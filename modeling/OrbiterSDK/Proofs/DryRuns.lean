import OrbiterSDK.Proofs.Locks
import OrbiterSDK.Proofs.Versions

/-! The dry run of `eth_call` and `eth_estimateGas`: the ways through the section that
works on the live accounts under the exclusive lock. -/

namespace OrbiterSDK.Proofs.DryRuns
open Lib State HostCommit Statements Transaction Locks

variable {World : Type} {env : Env World} {callInfo : EthCallInfo} {state : State World}

/-- The generator starts over from the latest block. -/
def reseeded (state : State World) : State World :=
  withHost state { state.evmHost with randomGen := state.latest.blockRandomness }

theorem eval_resetRandomGen : (resetRandomGen : Act World Unit).eval state = (.ok (), reseeded state) := rfl

/-- The sender holds the value and the receiver can take it. -/
def DryTransferable (callInfo : EthCallInfo) (state : State World) : Prop :=
  callInfo.value = 0 ∨ (callInfo.to ≠ 0 ∧ callInfo.value.toNat ≤ held state callInfo.from ∧
    (callInfo.from = callInfo.to ∨ held state callInfo.to + callInfo.value.toNat < 2 ^ 256))

/-- The host after a transfer of the value that goes through. -/
def transferred (callInfo : EthCallInfo) (host : EVMHost) : EVMHost :=
  if callInfo.value = 0 then host
  else
    let debited := host.setBalance callInfo.from
      (BitVec.ofNat 256 ((host.balanceOf callInfo.from).toNat - callInfo.value.toNat))
    let credited := debited.setBalance callInfo.to
      (BitVec.ofNat 256 ((debited.balanceOf callInfo.to).toNat + callInfo.value.toNat))
    { credited with accessedAccountsBalances := host.accessedAccountsBalances ++ [callInfo.from] ++ [callInfo.to] }

/-- The value has moved and both accounts are noted. -/
structure DryMoved (callInfo : EthCallInfo) (before after : State World) : Prop where
  paid : Paid before after
  held : ∀ addr, held after addr + onlyAt callInfo.from addr callInfo.value.toNat =
    held before addr + onlyAt callInfo.to addr callInfo.value.toNat
  accessed : after.evmHost.accessedAccountsBalances =
    before.evmHost.accessedAccountsBalances ++ if callInfo.value = 0 then [] else [callInfo.from, callInfo.to]
  moved : after = withHost before (transferred callInfo before.evmHost)
  keys : ∀ addr, addr ∈ after.evmHost.accounts.keys ↔
    addr ∈ before.evmHost.accounts.keys ∨ (callInfo.value ≠ 0 ∧ (addr = callInfo.from ∨ addr = callInfo.to))

private theorem eval_dryTransfer (some : callInfo.value ≠ 0) (call : callInfo.to ≠ 0) :
    (dryTransfer env callInfo).eval state = (debit env callInfo.from callInfo.value >>= fun _ => do
      credit env callInfo.to callInfo.value
      pushBalance callInfo.from
      pushBalance callInfo.to).eval state := by
  unfold dryTransfer dryRealTo
  rw [if_neg some, if_neg call]
  rfl

theorem dryTransfer_ok (transferable : DryTransferable callInfo state) :
    ∃ after, (dryTransfer env callInfo).eval state = (.ok (), after) ∧ DryMoved callInfo state after := by
  by_cases none : callInfo.value = 0
  · refine ⟨state, ?_, Paid.refl _, fun addr => ?_, ?_, ?_, fun addr => ?_⟩
    · unfold dryTransfer
      rw [if_pos none]
      rfl
    · simp [none]
    · simp [none]
    · unfold transferred
      rw [if_pos none]
      rfl
    · simp [none]
  · obtain ⟨call, covered, room⟩ := transferable.resolve_left none
    obtain ⟨debited, debitEval, debitState, debitHeld⟩ := debit_ok env covered
    have fits : held debited callInfo.to + callInfo.value.toNat < 2 ^ 256 := by
      have bound := held_lt state callInfo.from
      rw [debitHeld]
      split
      case isTrue => omega
      case isFalse apart => exact room.resolve_left fun same => apart same.symm
    obtain ⟨credited, creditEval, creditState, creditHeld⟩ := credit_ok env fits
    refine ⟨noted (noted credited callInfo.from) callInfo.to, ?_, ?_, fun addr => ?_, ?_, ?_, fun addr => ?_⟩
    · rw [eval_dryTransfer none call, eval_seq_ok debitEval, eval_seq_ok creditEval, eval_seq_ok (eval_pushBalance _ _),
        eval_pushBalance]
    · rw [creditState, debitState]
      exact ((paid_setHeld _ _ _).trans (paid_setHeld _ _ _)).trans ((paid_noted _ _).trans (paid_noted _ _))
    · rw [held_noted, held_noted, creditHeld]
      simp only [debitHeld, onlyAt]
      by_cases receiver : addr = callInfo.to <;> by_cases sender : addr = callInfo.from <;> simp_all
    · rw [if_neg none, creditState, debitState]
      simp [noted, setHeld, EVMHost.setBalance]
    · unfold transferred
      rw [if_neg none, creditState, debitState]
      rfl
    · rw [creditState, debitState]
      simp only [noted, setHeld, withHost_evmHost, EVMHost.setBalance, Table.modify_keys, Finset.mem_insert, ne_eq, none,
        not_false_eq_true, true_and]
      exact ⟨fun member => by tauto, fun member => by tauto⟩

/-- The sender does not hold the value: a failed debit is all that happens. -/
theorem dryTransfer_short (some : callInfo.value ≠ 0) (call : callInfo.to ≠ 0)
    (short : ¬ callInfo.value.toNat ≤ held state callInfo.from) :
    (dryTransfer env callInfo).eval state = (.error (.exception Uint256.negative),
      setHeld state callInfo.from (env.underflowed (state.balanceOf callInfo.from) callInfo.value)) := by
  rw [eval_dryTransfer some call, eval_seq_error (debit_error env short)]

/-- The receiver cannot take the value, which the sender has paid already. -/
theorem dryTransfer_full (some : callInfo.value ≠ 0) (call : callInfo.to ≠ 0)
    (covered : callInfo.value.toNat ≤ held state callInfo.from) (apart : callInfo.from ≠ callInfo.to)
    (full : ¬ held state callInfo.to + callInfo.value.toNat < 2 ^ 256) :
    ∃ after, (dryTransfer env callInfo).eval state = (.error (.exception Uint256.overflow), after) ∧ Paid state after ∧
      held after callInfo.from + callInfo.value.toNat = held state callInfo.from := by
  obtain ⟨debited, debitEval, debitState, debitHeld⟩ := debit_ok env covered
  have wide : ¬ held debited callInfo.to + callInfo.value.toNat < 2 ^ 256 := by
    rwa [debitHeld, if_neg (Ne.symm apart)]
  refine ⟨_, by rw [eval_dryTransfer some call, eval_seq_ok debitEval, eval_seq_error (credit_error env wide)], ?_, ?_⟩
  · rw [debitState]
    exact (paid_setHeld _ _ _).trans (paid_setHeld _ _ _)
  · rw [held_setHeld, if_neg apart, debitHeld, if_pos rfl]
    omega

/-- A creation with value asks for the mutex that its own thread holds. -/
theorem dryTransfer_waits (some : callInfo.value ≠ 0) (create : callInfo.to = 0) (taken : state.stateMutex ≠ .free) :
    (dryTransfer env callInfo).eval state = (.error .deadlock, state) := by
  unfold dryTransfer dryRealTo getNativeNonce
  rw [if_neg some, if_pos create]
  exact eval_seq_error (eval_seq_error (eval_holding_held taken))

/-- The host in which the machine starts the dry run. -/
def dryPrepared (env : Env World) (callInfo : EthCallInfo) (state : State World) : EVMHost :=
  state.evmHost.setTxContext (cappedCall callInfo) state.latest.nHeight state.latest.validator state.latest.timestamp
    100000000 env.chainID

private theorem executed_of_setTxContext {before after : EVMHost} {tx : EthCallInfo} {blockHeight : UInt64} {blockCoinbase : Address}
    {blockTimestamp blockGasLimit : UInt64} {chainId : Uint256}
    (executed : Executed (before.setTxContext tx blockHeight blockCoinbase blockTimestamp blockGasLimit chainId) after) :
    Executed before after := { executed with }

theorem gasFits_cappedCall (callInfo : EthCallInfo) : gasFits (cappedCall callInfo) := by
  have bound : gasCap.toNat = 2 ^ 63 - 11 := by decide +kernel
  have atMost : (cappedCall callInfo).gasLimit.toNat ≤ gasCap.toNat := by
    unfold cappedCall
    split
    case isTrue => exact Nat.le_refl _
    case isFalse small =>
      rw [BitVec.lt_def] at small
      exact Nat.not_lt.mp small
  unfold gasFits
  split
  · omega
  · omega

private theorem hostExecute_returns {before : EVMHost} {result : EvmcResult} {host : EVMHost}
    (ran : before.execute env.vm callInfo = (.ok result, host)) :
    (hostExecute env callInfo).eval (withHost state before) = (.ok result, withHost state host) := by
  rw [eval_hostExecute, withHost_evmHost, ran]
  rfl

/-- What the dry run puts back. -/
def restored (host : EVMHost) : EVMHost := host.revert.revertCode.revertBalance

theorem dryExecute_ok {moved : State World} (entry : (dryTransfer env callInfo).eval (reseeded state) = (.ok (), moved)) :
    ∃ result host, (dryPrepared env callInfo moved).execute env.vm (cappedCall callInfo) = (.ok result, host) ∧
      Executed moved.evmHost host ∧ (dryExecute env callInfo).eval state = (.ok result, withHost moved (restored host)) := by
  obtain ⟨result, host, _, ran, executed, _⟩ :=
    execute_returns env.vm (gasFits_cappedCall callInfo) (dryPrepared env callInfo moved)
  refine ⟨result, host, ran, executed_of_setTxContext executed, ?_⟩
  have machine : (hostExecute env (cappedCall callInfo)).eval (withHost moved (dryPrepared env callInfo moved)) =
      (.ok result, withHost moved host) := hostExecute_returns ran
  have prepare : (onHost (EVMHost.setTxContext (cappedCall callInfo) moved.latest.nHeight moved.latest.validator
      moved.latest.timestamp 100000000 env.chainID)).eval moved = (.ok (), withHost moved (dryPrepared env callInfo moved)) :=
    eval_onHost _ _
  unfold dryExecute
  rw [eval_seq_ok eval_resetRandomGen, eval_seq_ok entry, Action.eval_bind, Action.eval_get]
  simp only
  rw [eval_seq_ok prepare, eval_seq_ok machine]
  rfl

theorem dryExecute_stops {stop : Stop} {after : State World}
    (entry : (dryTransfer env callInfo).eval (reseeded state) = (.error stop, after)) :
    (dryExecute env callInfo).eval state = (.error stop, after) := by
  unfold dryExecute
  rw [eval_seq_ok eval_resetRandomGen, eval_seq_error entry]

variable {α β : Type}

theorem returned_ended (value : α) : (.ok value : Except Stop α) ≠ .error .deadlock := fun same => by cases same

theorem thrown_ended (what : Exception) : (.error (.exception what) : Except Stop α) ≠ .error .deadlock :=
  fun same => by cases same

/-- Code that computes an answer or throws, and changes nothing. -/
def Answers (action : Act World α) : Prop := ∀ state, ∃ result, action.eval state = (result, state) ∧ result ≠ .error .deadlock

theorem answers_pure (value : α) : Answers (pure value : Act World α) := fun _ => ⟨_, rfl, returned_ended _⟩

theorem answers_raise (what : Exception) : Answers (raise what : Act World α) :=
  fun _ => ⟨_, rfl, thrown_ended _⟩

theorem answers_checked (value : Except Exception α) : Answers (checked value : Act World α) := by
  cases value with
  | ok value => exact answers_pure value
  | error what => exact answers_raise what

theorem answers_bind {first : Act World α} {next : α → Act World β} (early : Answers first)
    (late : ∀ value, Answers (next value)) : Answers (first >>= next) := by
  intro state
  obtain ⟨result, seen, ended⟩ := early state
  cases result with
  | ok value =>
    obtain ⟨final, later, endedToo⟩ := late value state
    exact ⟨final, by rw [eval_seq_ok seen, later], endedToo⟩
  | error stop => exact ⟨.error stop, eval_seq_error seen, fun same => ended (by cases same; rfl)⟩

theorem answers_ite {condition : Prop} [Decidable condition] {first second : Act World α} (positive : Answers first)
    (negative : Answers second) : Answers (if condition then first else second) := by
  split
  · exact positive
  · exact negative

/-- A dry run under the exclusive lock, with an answer computed from its result. -/
theorem holding_dryExecute {next : EvmcResult → Act World α} (answers : ∀ result, Answers (next result))
    (free : state.stateMutex = .free) {stop : Except Stop EvmcResult} {after : State World}
    (run : (dryExecute env callInfo).eval (withMutex state .unique) = (stop, after)) :
    (stop = .error .deadlock ∧
      (holding .unique (dryExecute env callInfo >>= next)).eval state = (.error .deadlock, after)) ∨
    (stop ≠ .error .deadlock ∧ ∃ result, result ≠ .error .deadlock ∧
      (holding .unique (dryExecute env callInfo >>= next)).eval state = (result, withMutex after .free)) := by
  rw [eval_holding free, Action.eval_bind, run]
  rcases stop with (what | _) | result
  · exact .inr ⟨thrown_ended _, _, thrown_ended _, rfl⟩
  · exact .inl ⟨rfl, rfl⟩
  · refine .inr ⟨returned_ended _, ?_⟩
    obtain ⟨answer, seen, ended⟩ := answers result after
    simp only [seen]
    rcases answer with (what | _) | value
    · exact ⟨_, thrown_ended _, rfl⟩
    · exact absurd rfl ended
    · exact ⟨_, returned_ended _, rfl⟩

/-- Whether `eth_call` starts the machine. -/
def ethCallRuns (env : Env World) (callInfo : EthCallInfo) (state : State World) : Bool :=
  !state.contractManager.isContractAddress env.contracts callInfo.to &&
    (state.evmHost.isEvmContract callInfo.to || callInfo.to = 0)

/-- Otherwise it answers and at most starts the generator over. -/
theorem ethCall_answers (free : state.stateMutex = .free) (quiet : ethCallRuns env callInfo state = false) :
    ∃ result, result ≠ .error .deadlock ∧ ((ethCall env callInfo).eval state = (result, state) ∨
      (ethCall env callInfo).eval state = (result, reseeded state)) := by
  have back : withMutex (withMutex state .shared) .free = state := withMutex_free free
  have backToo : withMutex (reseeded (withMutex state .shared)) .free = reseeded state := congrArg reseeded back
  unfold ethCall
  rw [Action.eval_bind, eval_holding free]
  unfold ethCallPath
  rw [Action.eval_bind, Action.eval_get]
  unfold ethCallRuns at quiet
  have manager : (withMutex state .shared).contractManager = state.contractManager := rfl
  have host : (withMutex state .shared).evmHost = state.evmHost := rfl
  simp only [manager, host]
  cases contract : state.contractManager.isContractAddress env.contracts callInfo.to with
  | true =>
    simp only [if_true]
    rw [eval_seq_ok eval_resetRandomGen]
    cases state.contractManager.callContractView env.contracts callInfo with
    | ok bytes => exact ⟨.ok bytes, returned_ended _, .inr (congrArg (Prod.mk _) backToo)⟩
    | error what => exact ⟨.error (.exception what), thrown_ended _, .inr (congrArg (Prod.mk _) backToo)⟩
  | false =>
    rw [contract, Bool.not_false, Bool.true_and] at quiet
    simp only [quiet, Bool.false_eq_true, if_false]
    exact ⟨.ok [], returned_ended _, .inl (congrArg (Prod.mk _) back)⟩

private theorem ethCall_evaluates (free : state.stateMutex = .free) (runs : ethCallRuns env callInfo state = true) :
    (ethCall env callInfo).eval state = (holding .unique (ethCallEvm env callInfo)).eval state := by
  have back : withMutex (withMutex state .shared) .free = state := withMutex_free free
  unfold ethCallRuns at runs
  rw [Bool.and_eq_true, Bool.not_eq_true'] at runs
  have path : (holding .shared (ethCallPath env callInfo)).eval state = (.ok .evm, state) := by
    have manager : (withMutex state .shared).contractManager = state.contractManager := rfl
    have host : (withMutex state .shared).evmHost = state.evmHost := rfl
    rw [eval_holding free]
    unfold ethCallPath
    rw [Action.eval_bind, Action.eval_get]
    simp only [manager, host, runs.1, runs.2, Bool.false_eq_true, if_false, if_true]
    exact congrArg (Prod.mk _) back
  unfold ethCall
  rw [eval_seq_ok path]

/-- Whether `eth_estimateGas` starts the machine. -/
def EstimateRuns (env : Env World) (callInfo : EthCallInfo) (state : State World) : Prop :=
  state.cannotPay callInfo = .ok false ∧
    (state.contractManager.isContractAddress env.contracts callInfo.to = true → ∃ valid,
      (state.contractManager.validateCallContractWithTx env.contracts env.chainOwner state.evmHost.accounts callInfo).1 =
        .ok valid) ∧
    (state.evmHost.isEvmContract callInfo.to || callInfo.to = 0) = true

/-- Whether `eth_estimateGas` tries a built-in contract. -/
def surveys (env : Env World) (callInfo : EthCallInfo) (state : State World) : Bool :=
  state.cannotPay callInfo = .ok false && state.contractManager.isContractAddress env.contracts callInfo.to

/-- What is left behind by the attempt. -/
def surveyed (env : Env World) (callInfo : EthCallInfo) (state : State World) : State World :=
  if surveys env callInfo state then { reseeded state with contractManager :=
    (state.contractManager.validateCallContractWithTx env.contracts env.chainOwner state.evmHost.accounts callInfo).2 }
  else state

theorem accounts_surveyed : (surveyed env callInfo state).evmHost.accounts = state.evmHost.accounts := by
  unfold surveyed
  split
  · rfl
  · rfl

private theorem surveyed_unable (unable : state.cannotPay callInfo ≠ .ok false) : surveyed env callInfo state = state := by
  unfold surveyed surveys
  rw [decide_eq_false unable]
  rfl

private theorem eval_dryCallContract (env : Env World) (able : state.cannotPay callInfo = .ok false) :
    ∃ result, (dryCallContract env callInfo).eval state =
    (result, surveyed env callInfo state) ∧ result ≠ .error .deadlock ∧ (result = .ok () ↔
      (state.contractManager.isContractAddress env.contracts callInfo.to = true → ∃ valid,
        (state.contractManager.validateCallContractWithTx env.contracts env.chainOwner state.evmHost.accounts callInfo).1 =
          .ok valid)) := by
  unfold dryCallContract surveyed surveys
  rw [Action.eval_bind, Action.eval_get, decide_eq_true able, Bool.true_and]
  cases contract : state.contractManager.isContractAddress env.contracts callInfo.to with
  | false =>
    simp only [contract, Bool.false_eq_true, if_false]
    exact ⟨.ok (), rfl, returned_ended _, fun _ holds => absurd holds (by simp), fun _ => rfl⟩
  | true =>
    simp only [contract, if_true]
    rw [eval_seq_ok eval_resetRandomGen]
    rcases state.contractManager.validateCallContractWithTx env.contracts env.chainOwner state.evmHost.accounts
      callInfo with ⟨outcome, manager⟩
    cases outcome with
    | error what =>
      refine ⟨.error (.exception what), rfl, thrown_ended _, fun same => (by cases same), fun valid => ?_⟩
      obtain ⟨_, same⟩ := valid trivial
      cases same
    | ok valid => exact ⟨.ok (), rfl, returned_ended _, fun _ _ => ⟨valid, rfl⟩, fun _ => rfl⟩

private theorem estimateGasPath_able (able : state.cannotPay callInfo = .ok false) :
    (estimateGasPath env callInfo).eval state = (dryCallContract env callInfo >>= fun _ => do
      if (← get).evmHost.isEvmContract callInfo.to || callInfo.to = 0 then pure none
      else pure (some 21000)).eval state := by
  unfold estimateGasPath
  rw [Action.eval_bind, Action.eval_get]
  simp only [able]
  rw [eval_seq_ok (eval_checked_ok _ _)]
  rfl

/-- Before it starts the machine, an estimate at most surveys a contract. -/
private theorem eval_estimateGasPath (env : Env World) (callInfo : EthCallInfo) (state : State World) :
    ∃ result, (estimateGasPath env callInfo).eval state = (result, surveyed env callInfo state) ∧ result ≠ .error .deadlock ∧
    (result = .ok none ↔ EstimateRuns env callInfo state) := by
  unfold EstimateRuns
  cases pays : state.cannotPay callInfo with
  | error what =>
    have unable : state.cannotPay callInfo ≠ .ok false := fun same => by cases pays.symm.trans same
    rw [surveyed_unable unable]
    refine ⟨.error (.exception what), ?_, thrown_ended _, fun same => (by cases same), fun runs => ?_⟩
    · unfold estimateGasPath
      rw [Action.eval_bind, Action.eval_get]
      simp only [pays]
      rfl
    · cases runs.1
  | ok poor =>
    cases poor with
    | true =>
      have unable : state.cannotPay callInfo ≠ .ok false := fun same => by cases pays.symm.trans same
      rw [surveyed_unable unable]
      refine ⟨.ok (some 0), ?_, returned_ended _, fun same => (by cases same), fun runs => ?_⟩
      · unfold estimateGasPath
        rw [Action.eval_bind, Action.eval_get]
        simp only [pays]
        rfl
      · cases runs.1
    | false =>
      rw [estimateGasPath_able pays]
      obtain ⟨tried, survey, ended, valid⟩ := eval_dryCallContract env pays
      rcases tried with stop | _
      · refine ⟨.error stop, eval_seq_error survey, fun same => ended (by cases same; rfl), fun same => (by cases same), fun runs => ?_⟩
        cases valid.mpr runs.2.1
      · rw [eval_seq_ok survey, Action.eval_bind, Action.eval_get]
        have machine : (surveyed env callInfo state).evmHost.isEvmContract callInfo.to = state.evmHost.isEvmContract callInfo.to := by
          unfold EVMHost.isEvmContract
          rw [accounts_surveyed]
        simp only [machine]
        cases starts : state.evmHost.isEvmContract callInfo.to || callInfo.to = 0 with
        | true =>
          simp only [if_true]
          exact ⟨.ok none, rfl, returned_ended _, fun _ => ⟨trivial, valid.mp rfl, trivial⟩, fun _ => rfl⟩
        | false =>
          simp only [Bool.false_eq_true, if_false]
          exact ⟨.ok (some 21000), rfl, returned_ended _, fun same => (by cases same), fun runs => (by simp at runs)⟩

/-- Both calls: they answer without the machine and leave the accounts alone, or they
make a dry run in a state that only a survey has changed. -/
structure DryCall (env : Env World) (callInfo : EthCallInfo) (state : State World) (runs : Prop) (start : State World)
    {α : Type} (action : Act World α) : Prop where
  answers : ¬ runs → ∃ result after, action.eval state = (result, after) ∧ result ≠ .error .deadlock ∧
    (after = start ∨ after = reseeded start)
  executes : runs → ∀ {stop after}, (dryExecute env callInfo).eval (withMutex start .unique) = (stop, after) →
    (stop = .error .deadlock ∧ action.eval state = (.error .deadlock, after)) ∨
    (stop ≠ .error .deadlock ∧ ∃ result, result ≠ .error .deadlock ∧ action.eval state = (result, withMutex after .free))

theorem dryCall_ethCall (free : state.stateMutex = .free) :
    DryCall env callInfo state (ethCallRuns env callInfo state = true) state (ethCall env callInfo) where
  answers quiet := by
    obtain ⟨result, ended, same | seeded⟩ := ethCall_answers free (Bool.not_eq_true _ ▸ quiet)
    · exact ⟨result, _, same, ended, .inl rfl⟩
    · exact ⟨result, _, seeded, ended, .inr rfl⟩
  executes runs stop after run := by
    rw [ethCall_evaluates free runs]
    refine holding_dryExecute (fun result => ?_) free run
    exact answers_ite (answers_raise _) (answers_pure _)

theorem dryCall_estimateGas (free : state.stateMutex = .free) :
    DryCall env callInfo state (EstimateRuns env callInfo state) (surveyed env callInfo state)
      (estimateGas env callInfo) := by
  have locked : ∀ mutex, surveyed env callInfo (withMutex state mutex) = withMutex (surveyed env callInfo state) mutex := by
    intro mutex
    unfold surveyed
    rw [show surveys env callInfo (withMutex state mutex) = surveys env callInfo state from rfl]
    split
    · rfl
    · rfl
  have freeThen : (surveyed env callInfo state).stateMutex = .free := by
    unfold surveyed
    split
    · exact free
    · exact free
  obtain ⟨result, path, ended, starts⟩ := eval_estimateGasPath env callInfo (withMutex state .shared)
  rw [locked] at path
  have back : withMutex (withMutex (surveyed env callInfo state) .shared) .free = surveyed env callInfo state := withMutex_free freeThen
  have sameRuns : EstimateRuns env callInfo (withMutex state .shared) ↔ EstimateRuns env callInfo state := Iff.rfl
  rw [sameRuns] at starts
  constructor
  · intro quiet
    unfold estimateGas
    rw [Action.eval_bind, eval_holding free, path]
    rcases result with (what | _) | answer
    · exact ⟨_, _, rfl, thrown_ended _, .inl back⟩
    · exact absurd rfl ended
    · cases answer with
      | some value => exact ⟨_, _, rfl, returned_ended _, .inl back⟩
      | none => exact absurd (starts.mp rfl) quiet
  · intro runs stop final run
    obtain rfl := starts.mpr runs
    have entry : (holding .shared (estimateGasPath env callInfo)).eval state = (.ok none, surveyed env callInfo state) := by
      rw [eval_holding free, path]
      exact congrArg (Prod.mk _) back
    unfold estimateGas
    rw [eval_seq_ok entry]
    refine holding_dryExecute (fun result => ?_) freeThen run
    exact answers_ite (answers_raise _) (answers_ite (answers_raise _)
      (answers_bind (answers_checked _) fun _ => answers_checked _))

end OrbiterSDK.Proofs.DryRuns
