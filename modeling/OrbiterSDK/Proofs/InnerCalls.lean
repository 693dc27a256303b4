import OrbiterSDK.Lib.Writes
import OrbiterSDK.Proofs.Conservation

/-! Messages from one contract to another. The host keeps one current value for every
slot and one list of events, so what an inner call has written stays written however
the call ends. -/

namespace OrbiterSDK.Proofs.InnerCalls
open Lib HostRun HostCommit Transaction Conservation

/-- What a callback writes. -/
inductive Effect where
  | store (addr : Address) (key value : Hash)
  | transient (addr : Address) (key value : Hash)
  | log (event : EVMEvent)

def stores (effects : List Effect) : List ((Address × Hash) × Hash) :=
  effects.filterMap fun
    | .store addr key value => some ((addr, key), value)
    | _ => none

def transients (effects : List Effect) : List ((Address × Hash) × Hash) :=
  effects.filterMap fun
    | .transient addr key value => some ((addr, key), value)
    | _ => none

def logs (effects : List Effect) : List EVMEvent :=
  effects.filterMap fun
    | .log event => some event
    | _ => none

theorem stores_append (first second : List Effect) : stores (first ++ second) = stores first ++ stores second :=
  List.filterMap_append

private theorem transients_append (first second : List Effect) : transients (first ++ second) = transients first ++ transients second :=
  List.filterMap_append

private theorem logs_append (first second : List Effect) : logs (first ++ second) = logs first ++ logs second :=
  List.filterMap_append

/-- The writes that one callback asks for. -/
def requested : HostRequest → List Effect
  | .setStorage addr key value => [.store addr key value]
  | .setTransientStorage addr key value => [.transient addr key value]
  | .emitLog addr data topics => [.log ⟨addr, data, topics⟩]
  | _ => []

def isPrecompile (addr : Address) : Bool := addr = ECRECOVER_ADDRESS || addr = RANDOM || addr = ABI_PACK

/-- The writes of a run, those of its inner calls included, in the order in which they are made. -/
def effects (vm : Vm) : Program → EVMHost → List Effect
  | .done _ _ _, _ => []
  | .callback request next, host => requested request ++ effects vm (next (host.answer request).1) (host.answer request).2
  | .call msg execute next, host =>
    (if isPrecompile msg.recipient then []
      else effects vm (execute (host.account msg.recipient).code.second) (host.touch msg.recipient)) ++
    effects vm (next (host.call vm msg fun code host => EVMHost.run vm (execute code) msg.gas host).1)
      (host.call vm msg fun code host => EVMHost.run vm (execute code) msg.gas host).2

/-- The current storage of all accounts. -/
def storageOf (host : EVMHost) (slot : Address × Hash) : Hash := host.getStorage slot.1 slot.2

/-- The transient storage of all accounts. -/
def transientOf (host : EVMHost) (slot : Address × Hash) : Hash := host.getTransientStorage slot.1 slot.2

/-- A host differs from an earlier one by some writes. -/
structure Effected (before : EVMHost) (effects : List Effect) (after : EVMHost) : Prop where
  storage : storageOf after = overlay (stores effects) (storageOf before)
  transient : transientOf after = overlay (transients effects) (transientOf before)
  events : after.emittedEvents = before.emittedEvents ++ logs effects

theorem Effected.nothing {before after : EVMHost} (accounts : ∀ addr, after.account addr = before.account addr)
    (events : after.emittedEvents = before.emittedEvents) : Effected before [] after where
  storage := by
    funext slot
    simp only [storageOf, EVMHost.getStorage, accounts]
    rfl
  transient := by
    funext slot
    simp only [transientOf, EVMHost.getTransientStorage, accounts]
    rfl
  events := by rw [events]; exact (List.append_nil _).symm

theorem Effected.trans {first second third : EVMHost} {early late : List Effect} (before : Effected first early second)
    (after : Effected second late third) : Effected first (early ++ late) third where
  storage := by rw [after.storage, before.storage, ← overlay_append, stores_append]
  transient := by rw [after.transient, before.transient, ← overlay_append, transients_append]
  events := by rw [after.events, before.events, List.append_assoc, logs_append]

section Callbacks
variable (host : EVMHost)

private theorem storageOf_modify (addr : Address) (key : Hash) (update : Versioned Hash → Versioned Hash)
    (slot : Address × Hash) :
    storageOf { host with accounts := host.accounts.modify addr fun acc =>
      { acc with storage := acc.storage.modify key update } } slot =
      if slot = (addr, key) then (update ((host.account addr).storage.value key)).second else storageOf host slot := by
  rcases slot with ⟨other, place⟩
  simp only [storageOf, EVMHost.getStorage, EVMHost.account, Table.modify_value, Prod.mk.injEq]
  by_cases here : other = addr
  · subst here
    simp only [if_true, Table.modify_value, true_and]
    split
    · rfl
    · rfl
  · simp only [here, if_false, false_and]

theorem effected_setStorage (addr : Address) (key value : Hash) :
    Effected host [.store addr key value] (host.setStorage addr key value).2 := by
  let opened : EVMHost := { host with
    accounts := host.accounts.modify addr fun acc => { acc with storage := acc.storage.modify key id }
    accessedStorages := host.accessedStorages ++ [(addr, key)] }
  have same : ∀ slot, storageOf opened slot = storageOf host slot := by
    intro slot
    refine (storageOf_modify host addr key id slot).trans ?_
    split
    case isTrue here => rw [here]; rfl
    case isFalse => rfl
  have write : storageOf (host.setStorage addr key value).2 = Function.update (storageOf host) (addr, key) value := by
    funext slot
    rw [Function.update_apply]
    have shape : (host.setStorage addr key value).2 =
        if storageOf opened (addr, key) = value then opened
        else { opened with accounts := opened.accounts.modify addr fun acc =>
          { acc with storage := acc.storage.modify key (·.write value) } } := by
      unfold EVMHost.setStorage
      simp only
      split
      case isTrue already => exact (if_pos already).symm
      case isFalse fresh => exact (if_neg fresh).symm
    rw [shape]
    split
    case isTrue already =>
      rw [same]
      split
      case isTrue here => rw [here, ← same, already]
      case isFalse => rfl
    case isFalse =>
      refine (storageOf_modify opened addr key (·.write value) slot).trans ?_
      rw [same]
      rfl
  have others : ∀ {β : Type} (project : EVMAccount → β),
      (∀ (acc : EVMAccount) storage, project { acc with storage := storage } = project acc) → ∀ other,
      project ((host.setStorage addr key value).2.account other) = project (host.account other) := by
    intro β project kept other
    have first : project (opened.account other) = project (host.account other) :=
      Table.modify_project project _ _ _ fun acc => kept acc _
    unfold EVMHost.setStorage
    simp only
    split
    · exact first
    · exact (Table.modify_project project _ _ _ fun acc => kept acc _).trans first
  refine ⟨write, ?_, ?_⟩
  · funext slot
    simp only [transientOf, EVMHost.getTransientStorage, others EVMAccount.transientStorage fun _ _ => rfl]
    rfl
  · unfold EVMHost.setStorage
    simp only
    split
    · exact (List.append_nil _).symm
    · exact (List.append_nil _).symm

theorem effected_setTransientStorage (addr : Address) (key value : Hash) :
    Effected host [.transient addr key value] (host.setTransientStorage addr key value) := by
  refine ⟨?_, ?_, (List.append_nil _).symm⟩
  · funext slot
    have kept : ((host.setTransientStorage addr key value).account slot.1).storage = (host.account slot.1).storage :=
      Table.modify_project EVMAccount.storage host.accounts addr slot.1 fun acc =>
        show ({ acc with transientStorage := acc.transientStorage.modify key fun _ => value } : EVMAccount).storage =
          acc.storage from rfl
    simp only [storageOf, EVMHost.getStorage, kept]
    rfl
  · funext slot
    rcases slot with ⟨other, place⟩
    show transientOf _ (other, place) = Function.update (transientOf host) (addr, key) value (other, place)
    rw [Function.update_apply]
    simp only [transientOf, EVMHost.getTransientStorage, EVMHost.account, EVMHost.setTransientStorage, Table.modify_value,
      Prod.mk.injEq]
    by_cases here : other = addr
    · subst here
      simp only [if_true, Table.modify_value, true_and]
    · simp only [here, if_false, false_and]

/-- A callback writes what it is asked to, and nothing else. -/
theorem effected_answer (request : HostRequest) : Effected host (requested request) (host.answer request).2 := by
  cases request with
  | setStorage addr key value => exact effected_setStorage host addr key value
  | setTransientStorage addr key value => exact effected_setTransientStorage host addr key value
  | emitLog addr data topics => exact ⟨rfl, rfl, rfl⟩
  | getBlockHash number =>
    simp only [EVMHost.answer, EVMHost.getBlockHash]
    split
    · exact .nothing (fun _ => rfl) rfl
    · exact .nothing (fun _ => rfl) rfl
  | _ => exact .nothing (fun _ => rfl) rfl

end Callbacks

section Calls
variable {vm : Vm} {msg : EvmcMessage} {evmcExecute : Bytes → EVMHost → EvmcResult × EVMHost} {host : EVMHost}

/-- A message to anything but a precompile is executed on the code of its recipient. -/
theorem call_executes (ordinary : isPrecompile msg.recipient = false) : host.call vm msg evmcExecute =
    evmcExecute (host.account msg.recipient).code.second (host.touch msg.recipient) := by
  unfold isPrecompile at ordinary
  simp only [Bool.or_eq_false_iff, decide_eq_false_iff_not] at ordinary
  obtain ⟨⟨notEcrecover, notRandom⟩, notPack⟩ := ordinary
  unfold EVMHost.call
  simp only [notEcrecover, notRandom, notPack, if_false, account_touch]

/-- A precompile leaves the accounts and the events alone. -/
theorem call_precompile (precompile : isPrecompile msg.recipient = true) :
    Effected host [] (host.call vm msg evmcExecute).2 := by
  unfold isPrecompile at precompile
  simp only [Bool.or_eq_true, decide_eq_true_eq] at precompile
  unfold EVMHost.call
  simp only
  split_ifs
  all_goals first
    | exact .nothing (fun _ => rfl) rfl
    | simp_all

theorem run_effected (program : Program) : ∀ gas host, Effected host (effects vm program host) (EVMHost.run vm program gas host).2 := by
  induction program with
  | done statusCode consumed outputData => exact fun _ host => .nothing (fun _ => rfl) rfl
  | callback request next ih => exact fun gas host => (effected_answer host request).trans (ih _ gas _)
  | call msg execute next executeIh nextIh =>
    intro gas host
    refine Effected.trans ?_ (nextIh _ gas _)
    split
    case isTrue precompile => exact call_precompile precompile
    case isFalse ordinary =>
      rw [call_executes (Bool.not_eq_true _ ▸ ordinary)]
      have touched : Effected host [] (host.touch msg.recipient) := .nothing (account_touch host msg.recipient) rfl
      exact touched.trans (executeIh _ msg.gas _)

end Calls

/-- A frame that fails has no effect on storage, transient storage and events. -/
structure Untouched (before after : EVMHost) : Prop where
  storage : ∀ addr key, after.getStorage addr key = before.getStorage addr key
  transientStorage : ∀ addr key, after.getTransientStorage addr key = before.getTransientStorage addr key
  emittedEvents : after.emittedEvents = before.emittedEvents

/-- The writes undo themselves: no event, and the last write to each slot restores its value. -/
structure Undone (before : EVMHost) (effects : List Effect) : Prop where
  stores : ∀ slot value, lastWrite (stores effects) slot = some value → value = storageOf before slot
  transients : ∀ slot value, lastWrite (transients effects) slot = some value → value = transientOf before slot
  logs : logs effects = []

theorem untouched_iff {before after : EVMHost} {effects : List Effect} (effected : Effected before effects after) :
    Untouched before after ↔ Undone before effects := by
  constructor
  · intro untouched
    refine ⟨?_, ?_, ?_⟩
    · refine (overlay_eq_self_iff _ _).mp (effected.storage.symm.trans ?_)
      exact funext fun slot => untouched.storage slot.1 slot.2
    · refine (overlay_eq_self_iff _ _).mp (effected.transient.symm.trans ?_)
      exact funext fun slot => untouched.transientStorage slot.1 slot.2
    · have events := effected.events
      rw [untouched.emittedEvents] at events
      exact List.append_right_eq_self.mp events.symm
  · intro undone
    refine ⟨fun addr key => ?_, fun addr key => ?_, ?_⟩
    · have same := effected.storage.trans ((overlay_eq_self_iff _ _).mpr undone.stores)
      exact congrFun same (addr, key)
    · have same := effected.transient.trans ((overlay_eq_self_iff _ _).mpr undone.transients)
      exact congrFun same (addr, key)
    · rw [effected.events, undone.logs, List.append_nil]

variable (vm : Vm) (msg : EvmcMessage) (execute : Bytes → Program) (host : EVMHost)

/-- A message that the machine executes as a program of its own. -/
def handled : EvmcResult × EVMHost :=
  host.call vm msg fun code host => EVMHost.run vm (execute code) msg.gas host

/-- The writes of a message. -/
def messageEffects : List Effect :=
  if isPrecompile msg.recipient then []
  else effects vm (execute (host.account msg.recipient).code.second) (host.touch msg.recipient)

theorem handled_effected : Effected host (messageEffects vm msg execute host) (handled vm msg execute host).2 := by
  unfold handled messageEffects
  split
  case isTrue precompile => exact call_precompile precompile
  case isFalse ordinary =>
    rw [call_executes (Bool.not_eq_true _ ▸ ordinary)]
    have touched : Effected host [] (host.touch msg.recipient) := .nothing (account_touch host msg.recipient) rfl
    exact touched.trans (run_effected _ msg.gas _)

/-- However a message ends, and in particular if it fails, it leaves storage, transient
storage and events untouched exactly if its own writes undo themselves. -/
theorem call_untouched_iff :
    Untouched host (handled vm msg execute host).2 ↔ Undone host (messageEffects vm msg execute host) :=
  untouched_iff (handled_effected vm msg execute host)

def message (kind : CallKind) (value : Uint256) («sender» recipient codeAddress : Address) : EvmcMessage where
  kind
  flags := 0
  depth := 2
  gas := 1000
  recipient
  «sender»
  inputData := []
  value
  create2Salt := 0
  codeAddress

def scribble : Program := .callback (.setStorage 6 1 7) fun _ => .done .revert 0 []

theorem reverted_call_keeps_write :
    (handled (bareEnv fun _ _ => scribble).vm (message .call 0 5 6 6) (fun _ => scribble) {}).1.statusCode = .revert ∧
    (handled (bareEnv fun _ _ => scribble).vm (message .call 0 5 6 6) (fun _ => scribble) {}).2.getStorage 6 1 = 7 ∧
    ¬ Untouched {} (handled (bareEnv fun _ _ => scribble).vm (message .call 0 5 6 6) (fun _ => scribble) {}).2 := by
  have written : (handled (bareEnv fun _ _ => scribble).vm (message .call 0 5 6 6) (fun _ => scribble) {}).2.getStorage 6 1 = 7 := by
    decide
  refine ⟨by decide, written, fun untouched => ?_⟩
  have same := untouched.storage 6 1
  rw [written] at same
  exact absurd same (by decide)

/-- A message that asks for a creation. -/
def Creates : Prop := msg.kind = .create ∨ msg.kind = .create2

/-- The code of the code address runs on behalf of the recipient, a call moves its value
or fails, and a creation stores the returned code at an address without code. -/
structure EvmMeaning : Prop where
  code : ∀ evmcExecute : Bytes → EVMHost → EvmcResult × EVMHost, host.call vm msg evmcExecute =
    evmcExecute (host.account msg.codeAddress).code.second (host.touch msg.recipient)
  transfer : msg.kind = .call → (handled vm msg execute host).1.statusCode = .success → ∀ addr,
    ((handled vm msg execute host).2.balanceOf addr).toNat + onlyAt msg.sender addr msg.value.toNat =
      (host.balanceOf addr).toNat + onlyAt msg.recipient addr msg.value.toNat
  short : msg.kind = .call → (host.balanceOf msg.sender).toNat < msg.value.toNat →
    (handled vm msg execute host).1.statusCode ≠ .success ∧
      ∀ addr, (handled vm msg execute host).2.balanceOf addr = host.balanceOf addr
  creation : Creates msg → (handled vm msg execute host).1.statusCode = .success → ∃ addr,
    (host.account addr).code.second = [] ∧
      ((handled vm msg execute host).2.account addr).code.second = (handled vm msg execute host).1.outputData

variable {vm msg execute host}

private theorem ran_handled : Ran host (handled vm msg execute host).2 :=
  ran_call vm msg (fun code host => ran_run vm (execute code) msg.gas host) host

/-- Moving a value is doing nothing exactly if there is none or nowhere to move it. -/
private theorem onlyAt_eq_iff («from» «to» : Address) (amount : Nat) :
    (∀ addr, onlyAt «from» addr amount = onlyAt «to» addr amount) ↔ amount = 0 ∨ «from» = «to» := by
  constructor
  · intro same
    by_cases equal : «from» = «to»
    · exact .inr equal
    · have here := same «from»
      rw [onlyAt_self, onlyAt_of_ne equal] at here
      exact .inl here
  · rintro (rfl | rfl) addr
    · rw [onlyAt_zero, onlyAt_zero]
    · rfl

/-- An ordinary message has the meaning of the EVM exactly if its recipient has the code
of its code address, it moves no value between two accounts (and a call that succeeds
claims no more than its sender holds), and a creation that succeeds returns no code. -/
theorem message_has_evm_meaning_iff (ordinary : isPrecompile msg.recipient = false) :
    EvmMeaning vm msg execute host ↔
      (host.account msg.recipient).code.second = (host.account msg.codeAddress).code.second ∧
      (msg.kind = .call → (handled vm msg execute host).1.statusCode = .success →
        msg.value = 0 ∨ (msg.sender = msg.recipient ∧ msg.value.toNat ≤ (host.balanceOf msg.sender).toNat)) ∧
      (Creates msg → (handled vm msg execute host).1.statusCode = .success →
        (handled vm msg execute host).1.outputData = [] ∧ ∃ addr, (host.account addr).code.second = []) := by
  have ran : Ran host (handled vm msg execute host).2 := ran_handled
  have balance : ∀ addr, (handled vm msg execute host).2.balanceOf addr = host.balanceOf addr :=
    fun addr => congrArg Versioned.second (ran.balance addr)
  constructor
  · intro meaning
    refine ⟨?_, fun call success => ?_, fun create success => ?_⟩
    · -- A machine that returns its code tells which one it was given.
      have shown := meaning.code fun code host => (⟨.success, 0, code⟩, host)
      rw [call_executes ordinary] at shown
      exact congrArg (fun ended => ended.1.outputData) shown
    · have same : ∀ addr, onlyAt msg.sender addr msg.value.toNat = onlyAt msg.recipient addr msg.value.toNat := by
        intro addr
        have moved := meaning.transfer call success addr
        rw [balance] at moved
        exact Nat.add_left_cancel moved
      have covered : msg.value.toNat ≤ (host.balanceOf msg.sender).toNat := by
        by_contra short
        exact (meaning.short call (Nat.not_le.mp short)).1 success
      exact ((onlyAt_eq_iff _ _ _).mp same).imp (fun none => BitVec.eq_of_toNat_eq none) fun self => ⟨self, covered⟩
    · obtain ⟨addr, empty, stored⟩ := meaning.creation create success
      rw [ran.code] at stored
      exact ⟨stored.symm.trans empty, addr, empty⟩
  · rintro ⟨sameCode, value, creation⟩
    refine ⟨fun evmcExecute => ?_, fun call success addr => ?_, fun call short => ⟨fun success => ?_, balance⟩,
      fun create success => ?_⟩
    · rw [call_executes ordinary, sameCode]
    · rw [balance]
      congr 1
      refine (onlyAt_eq_iff _ _ _).mpr ?_ addr
      exact (value call success).imp (fun none => by rw [none]; rfl) And.left
    · rcases value call success with none | ⟨_, covered⟩
      · rw [none] at short
        exact absurd short (Nat.not_lt_zero _)
      · omega
    · obtain ⟨nothing, addr, empty⟩ := creation create success
      refine ⟨addr, empty, ?_⟩
      rw [ran.code, nothing, empty]

/-- A host with a proxy at 5, a library at 6 and a holder of coins at 7. -/
def library : EVMHost :=
  { accounts := ((Table.empty.modify 5 fun acc => { acc with code := ⟨[1], [1]⟩ }).modify 6 fun acc =>
      { acc with code := ⟨[2], [2]⟩ }).modify 7 fun acc => { acc with balance := ⟨100, 100⟩ } }

theorem plain_call_has_evm_meaning :
    EvmMeaning (bareEnv fun _ _ => scribble).vm (message .call 0 7 6 6) (fun _ => scribble) library :=
  (message_has_evm_meaning_iff (by decide)).mpr
    ⟨rfl, fun _ _ => .inl rfl, fun create => absurd create (by simp [Creates, message])⟩

/-- A delegated call runs the code of the proxy itself, and a call with value moves nothing. -/
theorem proxy_runs_own_code :
    ((library.call (bareEnv fun _ _ => scribble).vm (message .delegateCall 0 7 5 6) fun code host =>
      (⟨.success, 0, code⟩, host)).1.outputData = [1]) ∧
    (library.account 6).code.second = [2] ∧
    ¬ EvmMeaning (bareEnv fun _ _ => scribble).vm (message .delegateCall 0 7 5 6) (fun _ => scribble) library ∧
    (handled (bareEnv fun _ _ => scribble).vm (message .call 100 7 6 6) (fun _ => .done .success 0 []) library).1.statusCode =
      .success ∧
    (handled (bareEnv fun _ _ => scribble).vm (message .call 100 7 6 6) (fun _ => .done .success 0 []) library).2.balanceOf 6 =
      0 := by
  have own : (library.call (bareEnv fun _ _ => scribble).vm (message .delegateCall 0 7 5 6) fun code host =>
      (⟨.success, 0, code⟩, host)).1.outputData = [1] := by decide
  refine ⟨own, by decide, fun meaning => ?_, by decide, by decide⟩
  rw [meaning.code] at own
  exact absurd own (by decide)

end OrbiterSDK.Proofs.InnerCalls
