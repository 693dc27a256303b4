import OrbiterSDK.Lib.HashTree
import OrbiterSDK.Proofs.ByteStrings
import OrbiterSDK.Proofs.Completed
import OrbiterSDK.Proofs.HostRuns
import OrbiterSDK.Proofs.InnerCalls
import OrbiterSDK.Proofs.NonceOrder

/-! Addresses of new contracts. The bytes that are hashed hold the sender and a nonce
below 0x80, but of a greater nonce only its number of bytes. -/

namespace OrbiterSDK.Proofs.ContractAddresses
open Lib State HostRun HostCommit Statements Transaction Versions Completed NonceOrder InnerCalls HostRuns Conservation ByteStrings

variable {World : Type}

/-- The bytes from which an address is derived. -/
def addressBytes (nonce : Nat) (address : Address) : Bytes :=
  UInt8.ofNat (0xc0 + 20 + (if nonce < 0x80 then 1 else 1 + Utils.bytesRequired nonce)) :: (address.get ++
    [UInt8.ofNat (if nonce < 0x80 then nonce else 0x80 + Utils.bytesRequired nonce)])

/-- The low 20 bytes of a hash. -/
def lowBytes (sha3 : Bytes → Hash) (bytes : Bytes) : Address := (sha3 bytes).setWidth 160

theorem deriveContractAddress_eq (sha3 : Bytes → Hash) (nonce : Nat) (address : Address) :
    EVMHost.deriveContractAddress sha3 nonce address = lowBytes sha3 (addressBytes nonce address) := rfl

/-- Two nonces of which only the number of bytes is written, and it is the same. -/
def Confused (first second : Nat) : Prop :=
  0x80 ≤ first ∧ 0x80 ≤ second ∧ Utils.bytesRequired first = Utils.bytesRequired second

instance (first second : Nat) : Decidable (Confused first second) := inferInstanceAs (Decidable (_ ∧ _ ∧ _))

private theorem address_get_injective {left right : Address} (same : left.get = right.get) : left = right := by
  have bound : (2 : Nat) ^ 160 = 256 ^ 20 := by norm_num
  exact BitVec.eq_of_toNat_eq (Utils.uintToBytes_injective (bound ▸ left.isLt) (bound ▸ right.isLt) same)

private theorem few_bytes {nonce : Nat} (small : nonce < 2 ^ 64) : Utils.bytesRequired nonce ≤ 8 :=
  bytesRequired_le_iff.mpr small

private theorem byte_inj {left right : Nat} (leftFits : left < 256) (rightFits : right < 256) :
    UInt8.ofNat left = UInt8.ofNat right ↔ left = right := by
  rw [← UInt8.toNat_inj, UInt8.toNat_ofNat', UInt8.toNat_ofNat']
  omega

/-- The bytes tell senders apart, and nonces up to confusion. -/
theorem addressBytes_inj {first second : Nat} {sender other : Address} (firstSmall : first < 2 ^ 64)
    (secondSmall : second < 2 ^ 64) :
    addressBytes first sender = addressBytes second other ↔ sender = other ∧ (first = second ∨ Confused first second) := by
  have firstFew := few_bytes firstSmall
  have secondFew := few_bytes secondSmall
  unfold addressBytes Confused
  rw [List.cons.injEq]
  constructor
  · rintro ⟨_, same⟩
    obtain ⟨address, last⟩ := List.append_inj' same rfl
    rw [List.singleton_inj, byte_inj (by split <;> omega) (by split <;> omega)] at last
    refine ⟨address_get_injective address, ?_⟩
    split at last <;> split at last <;> omega
  · rintro ⟨rfl, rfl | ⟨firstLarge, secondLarge, same⟩⟩
    · exact ⟨rfl, rfl⟩
    · rw [if_neg (by omega), if_neg (by omega), if_neg (by omega), if_neg (by omega), same]
      exact ⟨rfl, rfl⟩

/-- The arguments of one call. -/
structure Call where
  tx : TxBlock
  context : BlockContext
  txIndex : UInt64

/-- The run of the machine that creates a contract. -/
def creationProgram (vm : Vm) (tx : EthCallInfo) (contractAddress : Address) : Program :=
  vm.evmcExecute (EVMHost.creationMessage tx contractAddress tx.gasLimit.toNat) tx.fullData

/-- Every frame of a run writes the storage of its recipient only. -/
def OwnStorage (recipient : Address) : Program → Prop
  | .done _ _ _ => True
  | .callback request next =>
    (∀ addr key value, request = .setStorage addr key value → addr = recipient) ∧ ∀ reply, OwnStorage recipient (next reply)
  | .call msg execute next => (∀ code, OwnStorage msg.recipient (execute code)) ∧ ∀ result, OwnStorage recipient (next result)

/-- A run calls an account nowhere. -/
def Avoids (addr : Address) : Program → Prop
  | .done _ _ _ => True
  | .callback _ next => ∀ reply, Avoids addr (next reply)
  | .call msg execute next => msg.recipient ≠ addr ∧ (∀ code, Avoids addr (execute code)) ∧ ∀ result, Avoids addr (next result)

/-- A contract that a transaction has created, and the states around the transaction. -/
structure Creation (World : Type) where
  sender : Address
  nonce : UInt64
  address : Address
  program : Program
  before : State World
  after : State World

/-- The address that a creation is given, as it stands under the hash of the transaction
when the machine's branch ends; none if the transaction fails or is no creation. -/
def created (env : Env World) (call : Call) (state : State World) : Option Address :=
  if call.tx.to ≠ 0 then none
  else
    match (enterMachine env call.tx).eval (entered call.tx state) with
    | (.error _, _) => none
    | (.ok _, moved) =>
      match (evmBody env call.tx call.context call.txIndex).eval moved with
      | (.error _, _) => none
      | (.ok _, after) => after.evmHost.contractAddresses.find call.tx.hash

/-- The call goes through. -/
abbrev Call.Passes (env : Env World) (call : Call) (before after : State World) : Prop :=
  (processTransaction env call.tx call.context call.txIndex).eval before = (.ok (), after)

/-- The contracts that a run creates. A call that throws ends the run. -/
def creations (env : Env World) : List Call → State World → List (Creation World)
  | [], _ => []
  | call :: rest, state =>
    match (processTransaction env call.tx call.context call.txIndex).eval state with
    | (.error _, _) => []
    | (.ok _, after) =>
      ((created env call state).toList.map fun address =>
        ⟨call.tx.from, state.nonceOf call.tx.from, address, creationProgram env.vm call.tx.txToCallInfo address, state, after⟩) ++ creations env rest after

/-- Contracts that exist are elsewhere and keep their code, and their storage unless they are called. -/
def Intact (creation : Creation World) : Prop :=
  ∀ addr, creation.before.evmHost.isEvmContract addr = true →
    addr ≠ creation.address ∧ SameCode creation.before creation.after addr ∧
    (Avoids addr creation.program → ∀ key, creation.after.evmHost.getStorage addr key = creation.before.evmHost.getStorage addr key)

/-- The calls of a run that are from an account. -/
def callsFrom (addr : Address) (calls : List Call) : Nat := calls.countP fun call => call.tx.from = addr

section Storage
variable {vm : Vm} {addr : Address}

private theorem requested_stores {request : HostRequest} {slot : (Address × Hash) × Hash}
    (stored : slot ∈ stores (requested request)) : request = .setStorage slot.1.1 slot.1.2 slot.2 := by
  cases request with
  | setStorage other key value =>
    obtain rfl : slot = ((other, key), value) := by simpa [requested, stores] using stored
    rfl
  | _ => simp [requested, stores] at stored

theorem effects_elsewhere (program : Program) : ∀ {recipient : Address}, addr ≠ recipient → OwnStorage recipient program →
    Avoids addr program → ∀ host, ∀ slot ∈ stores (effects vm program host), slot.1.1 ≠ addr := by
  induction program with
  | done statusCode consumed outputData =>
    intro recipient apart own avoids host slot stored
    cases stored
  | callback request next ih =>
    intro recipient apart own avoids host slot stored
    rw [effects, stores_append, List.mem_append] at stored
    rcases stored with here | later
    · exact fun same => apart (same ▸ own.1 _ _ _ (requested_stores here))
    · exact ih _ apart (own.2 _) (avoids _) _ slot later
  | call msg execute next executeIh nextIh =>
    intro recipient apart own avoids host slot stored
    rw [effects, stores_append, List.mem_append] at stored
    rcases stored with inner | later
    · split at inner
      · cases inner
      · exact executeIh _ avoids.1.symm (own.1 _) (avoids.2.1 _) _ slot inner
    · exact nextIh _ apart (own.2 _) (avoids.2.2 _) _ slot later

private theorem overlay_elsewhere {writes : List ((Address × Hash) × Hash)} (elsewhere : ∀ slot ∈ writes, slot.1.1 ≠ addr)
    (before : Address × Hash → Hash) (key : Hash) : overlay writes before (addr, key) = before (addr, key) := by
  induction writes generalizing before with
  | nil => rfl
  | cons write rest ih =>
    have apart : (addr, key) ≠ write.1 := fun same => elsewhere write (by simp) (congrArg Prod.fst same).symm
    refine (ih (fun slot inside => elsewhere slot (by simp [inside])) _).trans ?_
    exact Function.update_of_ne apart _ _

/-- A creation writes the storage of the new contract, and of no account that it does not call. -/
theorem execute_storage {tx : EthCallInfo} {before after : EVMHost} {result : EvmcResult} {contractAddress : Address}
    (address : contractAddress = EVMHost.deriveContractAddress vm.sha3 (before.account tx.from).nonce.second.toNat tx.from)
    (create : tx.to = 0) (ran : before.execute vm tx = (.ok result, after)) (apart : addr ≠ contractAddress)
    (own : OwnStorage contractAddress (creationProgram vm tx contractAddress))
    (avoids : Avoids addr (creationProgram vm tx contractAddress)) (key : Hash) :
    after.getStorage addr key = before.getStorage addr key := by
  have touched : storageOf (before.touch tx.from) = storageOf before := by
    funext slot
    simp only [storageOf, EVMHost.getStorage, account_touch]
  have written : ∀ gas, storageOf (EVMHost.run vm (creationProgram vm tx contractAddress) gas (before.touch tx.from)).2 (addr, key) =
      storageOf before (addr, key) := by
    intro gas
    rw [(run_effected (creationProgram vm tx contractAddress) gas (before.touch tx.from)).storage,
      overlay_elsewhere (effects_elsewhere _ apart own avoids _), touched]
  unfold EVMHost.execute at ran
  rw [if_pos create] at ran
  unfold EVMHost.createContract Uint256.narrow at ran
  simp only [account_touch, ← address] at ran
  split at ran
  · cases ran
  case _ gas narrowed =>
    obtain rfl : tx.gasLimit.toNat = gas := by
      split at narrowed
      · exact Except.ok.inj narrowed
      · cases narrowed
    split at ran
    · cases ran
      exact written _
    · cases ran
      refine Eq.trans ?_ (written (EVMHost.creationMessage tx contractAddress tx.gasLimit.toNat).gas)
      have kept : ∀ host : EVMHost, ∀ code codeHash,
          ((host.storeContract contractAddress code codeHash).account addr).storage = (host.account addr).storage := by
        intro host code codeHash
        simp only [EVMHost.account, EVMHost.storeContract, Table.modify_value_of_ne _ _ apart]
      show (((EVMHost.storeContract _ _ _ _).account addr).storage.value key).second = _
      rw [kept]
      rfl

end Storage

section Step
variable {env : Env World} {call : Call} {state after : State World}

theorem isEvmContract_iff (host : EVMHost) (addr : Address) :
    host.isEvmContract addr = true ↔ (host.account addr).code.second ≠ [] := by
  unfold EVMHost.isEvmContract Table.find
  by_cases inside : addr ∈ host.accounts.keys
  · simp only [if_pos inside, decide_eq_true_eq, List.length_pos_iff]
    rfl
  · have absent : host.account addr = default := host.accounts.absent addr inside
    simp only [if_neg inside, absent]
    simp [default]

private theorem levelCode_of_same (level : LevelCode state) (same : ∀ addr, SameCode state after addr) : LevelCode after := by
  intro addr
  rw [(same addr).1, (same addr).2]
  exact level addr

/-- A creation that is kept: its code is committed and its address stands under the hash of the transaction. -/
private theorem store_kept {tx : TxBlock} {context : BlockContext} {txIndex : UInt64} {moved : State World} {result : EvmcResult}
    {before : EVMHost} {address : Address} {code : Bytes} {codeHash : Hash} (level : LevelCode state)
    (shift : Moved env tx (entered tx state) moved) (run : Ran (prepared tx context moved) before) :
    LevelCode (finished tx (kept tx context txIndex moved result (before.storeContract address code codeHash))) ∧
    (∀ addr, addr ≠ address →
      SameCode state (finished tx (kept tx context txIndex moved result (before.storeContract address code codeHash))) addr) ∧
    (kept tx context txIndex moved result (before.storeContract address code codeHash)).evmHost.contractAddresses.find tx.hash =
      some address := by
  have others : ∀ addr, addr ≠ address →
      SameCode state (finished tx (kept tx context txIndex moved result (before.storeContract address code codeHash))) addr := by
    intro addr apart
    have untouched : (before.storeContract address code codeHash).account addr = before.account addr := by
      simp only [EVMHost.account, EVMHost.storeContract, Table.modify_value_of_ne _ _ apart]
    refine sameCode_kept level shift ?_ ?_
    · rw [untouched, run.code]
    · rw [untouched, run.codeHash]
  refine ⟨fun addr => ?_, others, ?_⟩
  · by_cases here : addr = address
    · have noted : addr ∈ (charged tx result (withHost moved
          (before.storeContract address code codeHash))).evmHost.commit.accessedAccountsCode := by
        show addr ∈ before.accessedAccountsCode ++ [address]
        simp [here]
      obtain ⟨sameCode, sameHash⟩ := sameCode_finished tx
        (kept tx context txIndex moved result (before.storeContract address code codeHash)) addr
      rw [sameCode, sameHash, kept, withHost_evmHost, commitCode_code, commitCode_codeHash, if_pos noted, if_pos noted]
      exact ⟨rfl, rfl⟩
    · rw [(others addr here).1, (others addr here).2]
      exact level addr
  · have hash : before.currentTxHash = tx.hash := run.currentTxHash
    show (before.contractAddresses.modify before.currentTxHash fun _ => address).find tx.hash = some address
    simp [hash, Table.find]

/-- The end of a transaction leaves the current values of storage. -/
private theorem storage_kept {tx : TxBlock} {context : BlockContext} {txIndex : UInt64} {moved : State World}
    {result : EvmcResult} {host : EVMHost} (addr : Address) (key : Hash) :
    (finished tx (kept tx context txIndex moved result host)).evmHost.getStorage addr key = host.getStorage addr key := by
  have ends : ((finished tx (kept tx context txIndex moved result host)).evmHost.account addr).storage =
      ((kept tx context txIndex moved result host).evmHost.account addr).storage :=
    finished_project EVMAccount.storage (fun _ _ => rfl) (fun _ _ => rfl) tx _ addr
  have paid : Paid (withHost moved host) (charged tx result (withHost moved host)) := paid_setHeld _ _ _
  rw [EVMHost.getStorage, ends, kept, withHost_evmHost, commitCode_storage, commit_storage, paid.account]
  split
  · rfl
  · rfl

/-- One transaction changes the code of the contract it creates and no other; the contract
gets the address that belongs to the nonce of the sender, and its constructor the storage there. -/
theorem code_processed (level : LevelCode state)
    (done : call.Passes env state after) :
    LevelCode after ∧ (∀ addr, created env call state ≠ some addr → SameCode state after addr) ∧
    ∀ addr, created env call state = some addr →
      addr = EVMHost.deriveContractAddress env.vm.sha3 (state.nonceOf call.tx.from).toNat call.tx.from ∧
      (OwnStorage addr (creationProgram env.vm call.tx.txToCallInfo addr) → ∀ other, other ≠ addr →
        Avoids other (creationProgram env.vm call.tx.txToCallInfo addr) →
        ∀ key, after.evmHost.getStorage other key = state.evmHost.getStorage other key) := by
  rcases call with ⟨tx, context, txIndex⟩
  cases evm : isEvmTransaction tx state with
  | false =>
    have same := sameCode_classic evm done
    have call : tx.to ≠ 0 := by
      intro create
      simp [isEvmTransaction, create] at evm
    refine ⟨levelCode_of_same level same, fun addr _ => same addr, fun addr made => ?_⟩
    rw [created, if_pos call] at made
    cases made
  | true =>
    obtain ⟨moved, entry, shift, ⟨result, host, ran, passed, body, rfl⟩ | ⟨what, later, returned, body, written, rfl⟩⟩ :=
      process_machine evm done
    · have success : result.statusCode = .success := not_not.mp fun fails => passed (.inl fails)
      rcases execute_ends ran with ⟨(create : tx.to = 0), _, before, run, rfl⟩ | ⟨other, run⟩
      · let address := EVMHost.deriveContractAddress env.vm.sha3
          ((prepared tx context moved).account tx.from).nonce.second.toNat tx.from
        obtain ⟨levelAfter, others, found⟩ := @store_kept _ env state tx context txIndex moved result before address
          result.outputData (env.vm.sha3 result.outputData) level shift run
        have made : created env ⟨tx, context, txIndex⟩ state = some address := by
          rw [created, if_neg (not_not.mpr create)]
          simp only [entry, body]
          exact found
        refine ⟨levelAfter, fun addr other => others addr fun same => other (same ▸ made), fun addr given => ?_⟩
        rw [made] at given
        obtain rfl := Option.some.inj given
        refine ⟨?_, fun own other apart avoids key => ?_⟩
        · show EVMHost.deriveContractAddress _ _ _ = _
          rw [account_prepared shift]
          rfl
        · rw [storage_kept, execute_storage rfl create ran apart own avoids, EVMHost.getStorage, account_prepared shift]
          rfl
      · have call : tx.to ≠ 0 := fun create => other ⟨create, success⟩
        have same : ∀ addr, SameCode state (finished tx (kept tx context txIndex moved result host)) addr :=
          fun addr => sameCode_kept level shift (run.code addr) (run.codeHash addr)
        refine ⟨levelCode_of_same level same, fun addr _ => same addr, fun addr made => ?_⟩
        rw [created, if_pos call] at made
        cases made
    · have same := sameCode_reverted level shift written
      refine ⟨levelCode_of_same level same, fun addr _ => same addr, fun addr made => ?_⟩
      rw [created] at made
      split at made
      · cases made
      · simp only [entry, body] at made
        cases made

end Step

/-- The calls of a run do not take any nonce past its width. -/
def Bounded (calls : List Call) (state : State World) : Prop :=
  ∀ addr, (state.nonceOf addr).toNat + callsFrom addr calls ≤ 2 ^ 64

section Run
variable {env : Env World} {call : Call} {rest calls : List Call} {state after : State World} {creation : Creation World}

theorem callsFrom_cons (addr : Address) :
    callsFrom addr (call :: rest) = callsFrom addr rest + if call.tx.from = addr then 1 else 0 := by
  simp only [callsFrom, List.countP_cons, decide_eq_true_eq]

theorem creations_cons (done : call.Passes env state after) :
    creation ∈ creations env (call :: rest) state ↔
      (∃ address, created env call state = some address ∧ creation = ⟨call.tx.from, state.nonceOf call.tx.from, address,
        creationProgram env.vm call.tx.txToCallInfo address, state, after⟩) ∨ creation ∈ creations env rest after := by
  rw [creations, done, List.mem_append, List.mem_map]
  simp only [Option.mem_toList, eq_comm (b := creation)]

/-- A call that throws creates nothing and ends the run. -/
theorem creations_stopped {stop : Stop} (escapes : (processTransaction env call.tx call.context call.txIndex).eval state =
    (.error stop, after)) : creations env (call :: rest) state = [] := by
  rw [creations, escapes]

/-- A property of a creation and of what it starts from, by induction over the run. -/
theorem creations_induction {inv : List Call → State World → Prop} {property : State World → Creation World → Prop}
    (next : ∀ {call rest state after}, inv (call :: rest) state →
      call.Passes env state after → inv rest after)
    (first : ∀ {call rest state after address}, inv (call :: rest) state →
      call.Passes env state after →
      created env call state = some address → property state ⟨call.tx.from, state.nonceOf call.tx.from, address,
        creationProgram env.vm call.tx.txToCallInfo address, state, after⟩)
    (later : ∀ {call rest state after creation}, inv (call :: rest) state →
      call.Passes env state after →
      creation ∈ creations env rest after → property after creation → property state creation) :
    ∀ {calls state creation}, inv calls state → creation ∈ creations env calls state → property state creation := by
  intro calls
  induction calls with
  | nil =>
    intro state creation _ inside
    cases inside
  | cons call rest ih =>
    intro state creation held inside
    rcases seen : (processTransaction env call.tx call.context call.txIndex).eval state with ⟨stop | value, after⟩
    · rw [creations_stopped seen] at inside
      cases inside
    · rcases (creations_cons seen).mp inside with ⟨address, made, rfl⟩ | inside
      · exact first held seen made
      · exact later held seen inside (ih (next held seen) inside)

theorem callsFrom_pos (inside : creation ∈ creations env calls state) : 0 < callsFrom creation.sender calls := by
  induction calls generalizing state with
  | nil => cases inside
  | cons call rest ih =>
    rw [callsFrom_cons]
    rcases seen : (processTransaction env call.tx call.context call.txIndex).eval state with ⟨stop | value, after⟩
    · rw [creations_stopped seen] at inside
      cases inside
    · rcases (creations_cons seen).mp inside with ⟨address, made, rfl⟩ | inside
      · simp
      · exact Nat.add_pos_left (ih inside) _

private theorem toNat_add_one {nonce : UInt64} (below : nonce.toNat + 1 < 2 ^ 64) : (nonce + 1).toNat = nonce.toNat + 1 := by
  rw [UInt64.toNat_add]
  exact Nat.mod_eq_of_lt below

/-- The nonce after a call, as long as the account makes another one. -/
private theorem nonce_next (bounded : Bounded (call :: rest) state)
    (done : call.Passes env state after) {addr : Address}
    (again : 0 < callsFrom addr rest) :
    (after.nonceOf addr).toNat = (state.nonceOf addr).toNat + if call.tx.from = addr then 1 else 0 := by
  have bound := bounded addr
  rw [callsFrom_cons] at bound
  rw [nonceOf_processed done]
  by_cases own : call.tx.from = addr
  · rw [if_pos own] at bound
    rw [if_pos own.symm, if_pos own, toNat_add_one (by omega)]
  · rw [if_neg fun same => own same.symm, if_neg own, Nat.add_zero]

theorem Bounded.next (bounded : Bounded (call :: rest) state)
    (done : call.Passes env state after) : Bounded rest after := by
  intro addr
  have bound := bounded addr
  rw [callsFrom_cons] at bound
  by_cases again : 0 < callsFrom addr rest
  · rw [nonce_next bounded done again]
    omega
  · have fits := (after.nonceOf addr).toNat_lt
    omega

theorem nonce_of_creation (bounded : Bounded calls state) (inside : creation ∈ creations env calls state) :
    (state.nonceOf creation.sender).toNat ≤ creation.nonce.toNat := by
  refine @creations_induction _ env Bounded (fun state creation => (state.nonceOf creation.sender).toNat ≤ creation.nonce.toNat)
    Bounded.next (fun _ _ _ => Nat.le_refl _) (fun bounded done inside atMost => ?_) _ _ _ bounded inside
  have grows := nonce_next bounded done (callsFrom_pos inside)
  omega

theorem address_of_creation (level : LevelCode state) (inside : creation ∈ creations env calls state) :
    creation.address = EVMHost.deriveContractAddress env.vm.sha3 creation.nonce.toNat creation.sender := by
  refine @creations_induction _ env (fun _ => LevelCode)
    (fun _ creation => creation.address = EVMHost.deriveContractAddress env.vm.sha3 creation.nonce.toNat creation.sender)
    (fun level done => (code_processed level done).1) (fun level done made => ?_) (fun _ _ _ => id) _ _ _ level inside
  exact ((code_processed level done).2.2 _ made).1

/-- Of two creations of one sender the later one has the greater nonce. -/
theorem creations_ordered (bounded : Bounded calls state) : (creations env calls state).Pairwise fun first second =>
    first.sender = second.sender → first.nonce.toNat < second.nonce.toNat := by
  induction calls generalizing state with
  | nil => exact List.Pairwise.nil
  | cons call rest ih =>
    rcases seen : (processTransaction env call.tx call.context call.txIndex).eval state with ⟨stop | value, after⟩
    · rw [creations_stopped seen]
      exact List.Pairwise.nil
    · rw [creations, seen]
      refine List.pairwise_append.mpr ⟨?_, ih (bounded.next seen), ?_⟩
      · cases created env call state with
        | none => exact List.Pairwise.nil
        | some address => exact List.pairwise_singleton _ _
      · intro first firstIn second secondIn same
        obtain ⟨address, _, rfl⟩ := List.mem_map.mp firstIn
        have grows := nonce_next bounded seen (callsFrom_pos secondIn)
        have later := nonce_of_creation (bounded.next seen) secondIn
        have own : call.tx.from = second.sender := same
        rw [if_pos own, ← own] at grows
        rw [← own, grows] at later
        exact later

private theorem contract_of_same {first second : State World} {addr : Address} (same : SameCode first second addr)
    (contract : second.evmHost.isEvmContract addr = true) : first.evmHost.isEvmContract addr = true := by
  rw [isEvmContract_iff, ← same.1]
  exact (isEvmContract_iff _ _).mp contract

/-- As long as no address comes up twice, every creation leaves all contracts alone. -/
theorem intact_of_distinct (ownStorage : ∀ msg code, OwnStorage msg.recipient (env.vm.evmcExecute msg code))
    {made : List Address} (level : LevelCode state) (known : ∀ addr, state.evmHost.isEvmContract addr = true → addr ∈ made)
    (distinct : (made ++ (creations env calls state).map Creation.address).Nodup) :
    ∀ creation ∈ creations env calls state, Intact creation := by
  induction calls generalizing state made with
  | nil => exact fun _ inside => nomatch inside
  | cons call rest ih =>
    intro creation inside
    rcases seen : (processTransaction env call.tx call.context call.txIndex).eval state with ⟨stop | value, after⟩
    · rw [creations_stopped seen] at inside
      cases inside
    · obtain ⟨levelAfter, others, own⟩ := code_processed level seen
      have now : ∀ address, created env call state = some address → address ∉ made := by
        intro address given before
        rw [creations, seen, given] at distinct
        exact (List.nodup_append.mp distinct).2.2 address before address (by simp) rfl
      rcases (creations_cons seen).mp inside with ⟨address, given, rfl⟩ | inside
      · intro addr contract
        have apart : addr ≠ address := fun same => now address given (same ▸ known addr contract)
        refine ⟨apart, others addr fun same => apart (Option.some.inj (given.symm.trans same)).symm, fun avoids key => ?_⟩
        have confined := ownStorage (EVMHost.creationMessage call.tx.txToCallInfo address call.tx.txToCallInfo.gasLimit.toNat)
          call.tx.txToCallInfo.fullData
        exact (own address given).2 confined addr apart avoids key
      · have knownAfter : ∀ addr, after.evmHost.isEvmContract addr = true → addr ∈ made ++ (created env call state).toList := by
          intro addr contract
          rw [List.mem_append, Option.mem_toList]
          by_cases given : created env call state = some addr
          · exact .inr given
          · exact .inl (known addr (contract_of_same (others addr given) contract))
        have unused : ((made ++ (created env call state).toList) ++ (creations env rest after).map Creation.address).Nodup := by
          rw [creations, seen, List.map_append, List.map_map, ← List.append_assoc] at distinct
          rwa [show Creation.address ∘ _ = id from rfl, List.map_id] at distinct
        exact ih levelAfter knownAfter unused creation inside

end Run

/-- The bytes that are hashed for the contracts of a run. -/
def hashed (creations : List (Creation World)) : List Bytes :=
  creations.map fun creation => addressBytes creation.nonce.toNat creation.sender

/-- No two contracts of one sender share an address. -/
def Unshared (creations : List (Creation World)) : Prop :=
  creations.Pairwise fun first second => first.sender = second.sender → first.address ≠ second.address

/-- No two creations of one sender have nonces of which only the same length is written. -/
def Unconfused (creations : List (Creation World)) : Prop :=
  creations.Pairwise fun first second => first.sender = second.sender → ¬ Confused first.nonce.toNat second.nonce.toNat

section Collisions
variable {env : Env World} {calls : List Call} {state : State World}

/-- Without confusion all addresses of a run differ, also between senders. -/
theorem distinct_of_unconfused (level : LevelCode state) (bounded : Bounded calls state)
    (safe : HashTree.Collisionless (lowBytes env.vm.sha3) (hashed (creations env calls state)))
    (unconfused : Unconfused (creations env calls state)) : ((creations env calls state).map Creation.address).Nodup := by
  refine List.pairwise_map.mpr (List.Pairwise.imp_of_mem ?_ (unconfused.and (creations_ordered bounded)))
  intro first second firstIn secondIn apart same
  rw [address_of_creation level firstIn, address_of_creation level secondIn, deriveContractAddress_eq,
    deriveContractAddress_eq] at same
  have bytes := safe _ (List.mem_map_of_mem firstIn) _ (List.mem_map_of_mem secondIn) same
  obtain ⟨sender, nonce | confused⟩ := (addressBytes_inj first.nonce.toNat_lt second.nonce.toNat_lt).mp bytes
  · exact Nat.ne_of_lt (apart.2 sender) nonce
  · exact apart.1 sender confused

theorem unconfused_of_unshared (level : LevelCode state) (unshared : Unshared (creations env calls state)) :
    Unconfused (creations env calls state) := by
  refine List.Pairwise.imp_of_mem ?_ unshared
  intro first second firstIn secondIn apart sender confused
  refine apart sender ?_
  rw [address_of_creation level firstIn, address_of_creation level secondIn, deriveContractAddress_eq, deriveContractAddress_eq]
  exact congrArg _ ((addressBytes_inj first.nonce.toNat_lt second.nonce.toNat_lt).mpr ⟨sender, .inr confused⟩)

theorem addresses_iff (blank : ∀ addr, (state.evmHost.account addr).code = default ∧ (state.evmHost.account addr).codeHash = default)
    (ownStorage : ∀ msg code, OwnStorage msg.recipient (env.vm.evmcExecute msg code)) (bounded : Bounded calls state)
    (safe : HashTree.Collisionless (lowBytes env.vm.sha3) (hashed (creations env calls state))) :
    (Unshared (creations env calls state) ∧ ∀ creation ∈ creations env calls state, Intact creation) ↔
      Unconfused (creations env calls state) := by
  have level : LevelCode state := by
    intro addr
    rw [(blank addr).1, (blank addr).2]
    exact ⟨rfl, rfl⟩
  constructor
  · exact fun both => unconfused_of_unshared level both.1
  · intro unconfused
    have distinct := distinct_of_unconfused level bounded safe unconfused
    have apart : (creations env calls state).Pairwise fun first second => first.address ≠ second.address :=
      List.pairwise_map.mp distinct
    refine ⟨?_, ?_⟩
    · unfold Unshared
      exact apart.imp (by intro first second differ _; exact differ)
    refine @intact_of_distinct _ env calls state ownStorage [] level (fun addr contract => ?_) distinct
    exact absurd (congrArg Versioned.second (blank addr).1) ((isEvmContract_iff _ _).mp contract)

end Collisions

/-- The contracts of the manager after some creations, with their callers. A call that is
reverted erases the contracts it created, which are the latest. -/
inductive Deployed (sha3 : Bytes → Hash) (contractCreator : Address) : List Address → List Address → Prop where
  | start : Deployed sha3 contractCreator [] []
  | create {callers contracts after : List Address} {origin caller : Address} {construct : Address → Except Exception Unit}
      (deployed : Deployed sha3 contractCreator callers contracts)
      (done : ContractFactory.createNewContract sha3 contractCreator origin caller construct contracts = .ok after) :
      Deployed sha3 contractCreator (callers ++ [caller]) after
  | erase {callers contracts : List Address} (deployed : Deployed sha3 contractCreator callers contracts) (count : Nat) :
      Deployed sha3 contractCreator (callers.take count) (contracts.take count)

section Manager
variable {sha3 : Bytes → Hash} {contractCreator : Address} {callers contracts : List Address}

/-- Where the contracts are is determined by who created them. -/
theorem deployed_eq (deployed : Deployed sha3 contractCreator callers contracts) :
    contracts = callers.mapIdx fun index caller => lowBytes sha3 (addressBytes index caller) := by
  induction deployed with
  | start => rfl
  | @create callers contracts after origin caller construct _ done ih =>
    have added : after = contracts ++ [ContractManager.deriveContractAddress sha3 caller contracts] := by
      unfold ContractFactory.createNewContract ContractFactory.setupNewContract at done
      split at done
      · cases done
      · simp only at done
        split at done
        · cases done
        · split at done
          · cases done
          · simp only [bind, Except.bind, pure, Except.pure] at done
            split at done
            · cases done
            · exact (Except.ok.inj done).symm
    rw [added, List.mapIdx_append, ← ih]
    have size : contracts.length = callers.length := by rw [ih, List.length_mapIdx]
    rw [List.mapIdx_cons, List.mapIdx_nil, Nat.zero_add, ContractManager.deriveContractAddress, deriveContractAddress_eq, size]
  | erase _ count ih =>
    refine List.ext_getElem? fun index => ?_
    rw [ih, List.getElem?_take, List.getElem?_mapIdx, List.getElem?_mapIdx, List.getElem?_take]
    split
    · rfl
    · rfl

/-- The next address is fresh unless the caller created an earlier contract at a confused size. -/
theorem fresh_iff (deployed : Deployed sha3 contractCreator callers contracts) (caller : Address)
    (bounded : contracts.length < 2 ^ 64)
    (safe : HashTree.Collisionless (lowBytes sha3) (addressBytes contracts.length caller :: callers.mapIdx addressBytes)) :
    ContractManager.deriveContractAddress sha3 caller contracts ∉ contracts ↔
      ∀ index, callers[index]? = some caller → ¬ Confused index contracts.length := by
  have size : contracts.length = callers.length := by rw [deployed_eq deployed, List.length_mapIdx]
  have located : ∀ address, address ∈ contracts ↔ ∃ (index : Nat) (inside : index < callers.length),
      lowBytes sha3 (addressBytes index callers[index]) = address := by
    intro address
    nth_rewrite 1 [deployed_eq deployed]
    exact List.mem_mapIdx
  have hashedLast : addressBytes contracts.length caller ∈ addressBytes contracts.length caller :: callers.mapIdx addressBytes :=
    List.mem_cons_self
  rw [ContractManager.deriveContractAddress, deriveContractAddress_eq, located]
  constructor
  · intro fresh index created confused
    obtain ⟨inside, here⟩ := List.getElem?_eq_some_iff.mp created
    refine fresh ⟨index, inside, congrArg _ ((addressBytes_inj (by omega) bounded).mpr ⟨here, .inr confused⟩)⟩
  · rintro unconfused ⟨index, inside, same⟩
    have earlier : addressBytes index callers[index] ∈ callers.mapIdx addressBytes := List.mem_mapIdx.mpr ⟨index, inside, rfl⟩
    have bytes := safe _ (List.mem_cons_of_mem _ earlier) _ hashedLast same
    obtain ⟨sender, nonce | confused⟩ := (addressBytes_inj (by omega) bounded).mp bytes
    · omega
    · exact unconfused index (sender ▸ List.getElem?_eq_getElem inside) confused

end Manager

/-- Addresses collide exactly for two creations of one sender at nonces from 0x80 on that
take the same number of bytes, and in the manager at two such sizes. -/
theorem addresses_collide_iff :
    (∀ (sha3 : Bytes → Hash) (sender other : Address) (first second : UInt64),
      HashTree.Collisionless (lowBytes sha3) [addressBytes first.toNat sender, addressBytes second.toNat other] →
      ((EVMHost.deriveContractAddress sha3 first.toNat sender = EVMHost.deriveContractAddress sha3 second.toNat other →
          sender = other ∧ first = second) ↔
        ¬ (sender = other ∧ first ≠ second ∧ Confused first.toNat second.toNat))) ∧
    (∀ (env : Env World) (calls : List Call) (state : State World),
      (∀ addr, (state.evmHost.account addr).code = default ∧ (state.evmHost.account addr).codeHash = default) →
      (∀ msg code, OwnStorage msg.recipient (env.vm.evmcExecute msg code)) → Bounded calls state →
      HashTree.Collisionless (lowBytes env.vm.sha3) (hashed (creations env calls state)) →
      ((Unshared (creations env calls state) ∧ ∀ creation ∈ creations env calls state, Intact creation) ↔
        Unconfused (creations env calls state))) ∧
    ∀ (sha3 : Bytes → Hash) (contractCreator caller : Address) (callers contracts : List Address),
      Deployed sha3 contractCreator callers contracts → contracts.length < 2 ^ 64 →
      HashTree.Collisionless (lowBytes sha3) (addressBytes contracts.length caller :: callers.mapIdx addressBytes) →
      (ContractManager.deriveContractAddress sha3 caller contracts ∉ contracts ↔
        ∀ index, callers[index]? = some caller → ¬ Confused index contracts.length) := by
  refine ⟨fun sha3 sender other first second safe => ?_, fun _ _ _ => addresses_iff,
    fun _ _ caller _ _ deployed => fresh_iff deployed caller⟩
  have bytes := @addressBytes_inj _ _ sender other first.toNat_lt second.toNat_lt
  rw [deriveContractAddress_eq, deriveContractAddress_eq]
  constructor
  · rintro injective ⟨rfl, differ, confused⟩
    exact differ (injective (congrArg _ (bytes.mpr ⟨rfl, .inr confused⟩))).2
  · intro unconfused same
    obtain ⟨sender, nonce | confused⟩ := bytes.mp (safe _ (by simp) _ (by simp) same)
    · exact ⟨sender, UInt64.toNat_inj.mp nonce⟩
    · by_contra differ
      exact unconfused ⟨sender, fun nonce => differ ⟨sender, nonce⟩, confused⟩

/-- Surroundings in which every run ends at once with the same code, and bytes hash to their last 32. -/
def creatorEnv : Env Unit :=
  { bareEnv fun _ _ => .done .success 0 [0xfe] with
    vm := { (bareEnv fun _ _ => .done .success 0 [0xfe]).vm with sha3 := Hash.ofBytes } }

def creatorState (nonce : UInt64) : State Unit :=
  construct { nativeAccounts := [(7, 1000000000000000000000, nonce)] } () [] 0 ⟨[], genesis⟩

def deployment (nonce : Uint256) (hash : Hash) : Call where
  tx :=
    { donation with
      «to» := 0
      value := 0
      nonce
      hash }
  context := firstBlock
  txIndex := 0

theorem second_creation_overwrites :
    (∀ (sha3 : Bytes → Hash) (sender : Address),
      EVMHost.deriveContractAddress sha3 128 sender = EVMHost.deriveContractAddress sha3 129 sender) ∧
    ¬ Unshared (creations creatorEnv [deployment 128 4, deployment 129 5] (creatorState 128)) ∧
    ¬ (∀ creation ∈ creations creatorEnv [deployment 128 4, deployment 129 5] (creatorState 128), Intact creation) ∧
    ∀ (sha3 : Bytes → Hash) (caller : Address) (contracts : List Address), contracts.length = 128 →
      ContractManager.deriveContractAddress sha3 caller (contracts ++ [ContractManager.deriveContractAddress sha3 caller contracts]) ∈
        contracts ++ [ContractManager.deriveContractAddress sha3 caller contracts] := by
  have confused : ∀ (sha3 : Bytes → Hash) (sender : Address),
      EVMHost.deriveContractAddress sha3 128 sender = EVMHost.deriveContractAddress sha3 129 sender := by
    intro sha3 sender
    rw [deriveContractAddress_eq, deriveContractAddress_eq]
    exact congrArg _ ((addressBytes_inj (by norm_num) (by norm_num)).mpr ⟨rfl, .inr (by decide +kernel)⟩)
  refine ⟨confused, ?_, fun intact => ?_, fun sha3 caller contracts size => ?_⟩
  · unfold Unshared
    decide +kernel
  · have occupied : ∃ creation ∈ creations creatorEnv [deployment 128 4, deployment 129 5] (creatorState 128),
        creation.before.evmHost.isEvmContract creation.address = true := by decide +kernel
    obtain ⟨creation, inside, contract⟩ := occupied
    exact (intact creation inside creation.address contract).1 rfl
  · have same : ContractManager.deriveContractAddress sha3 caller
        (contracts ++ [ContractManager.deriveContractAddress sha3 caller contracts]) =
        ContractManager.deriveContractAddress sha3 caller contracts := by
      rw [ContractManager.deriveContractAddress, ContractManager.deriveContractAddress, List.length_append, size]
      exact (confused sha3 caller).symm
    rw [same]
    simp

/-- Where the manager puts the first contract of caller 7. -/
def firstContract : Address := ContractManager.deriveContractAddress Hash.ofBytes 7 []

theorem early_creations_differ :
    (EVMHost.deriveContractAddress Hash.ofBytes 0 7 = EVMHost.deriveContractAddress Hash.ofBytes 1 7 →
      (7 : Address) = 7 ∧ (0 : UInt64) = 1) ∧
    Unshared (creations creatorEnv [deployment 0 4, deployment 1 5] (creatorState 0)) ∧
    (∀ creation ∈ creations creatorEnv [deployment 0 4, deployment 1 5] (creatorState 0), Intact creation) ∧
    ContractManager.deriveContractAddress Hash.ofBytes 7 [firstContract] ∉ [firstContract] := by
  obtain ⟨pairs, runs, sizes⟩ := @addresses_collide_iff Unit
  refine ⟨(pairs Hash.ofBytes 7 7 0 1 ?_).mpr (by decide), ?_⟩
  · unfold HashTree.Collisionless
    decide
  have blank : ∀ addr, ((creatorState 0).evmHost.account addr).code = default ∧
      ((creatorState 0).evmHost.account addr).codeHash = default := by
    intro addr
    have loaded := beside_construct { nativeAccounts := [(7, 1000000000000000000000, 0)] } () [] 0 ⟨[], genesis⟩
    exact ⟨loaded.code addr, loaded.codeHash addr⟩
  have bounded : Bounded [deployment 0 4, deployment 1 5] (creatorState 0) := by
    intro addr
    by_cases own : addr = 7
    · subst own
      decide
    · have none : callsFrom addr [deployment 0 4, deployment 1 5] = 0 := by
        simp only [callsFrom, deployment, donation, List.countP_eq_zero]
        simpa using fun same => own (Eq.symm same)
      have fits := ((creatorState 0).nonceOf addr).toNat_lt
      omega
  have safe : HashTree.Collisionless (lowBytes creatorEnv.vm.sha3)
      (hashed (creations creatorEnv [deployment 0 4, deployment 1 5] (creatorState 0))) := by
    unfold HashTree.Collisionless
    decide
  have unconfused : Unconfused (creations creatorEnv [deployment 0 4, deployment 1 5] (creatorState 0)) := by
    unfold Unconfused
    decide
  obtain ⟨unshared, intact⟩ := (runs creatorEnv _ _ blank (fun _ _ => trivial) bounded safe).mpr unconfused
  have deployed := @Deployed.create Hash.ofBytes 0 [] [] [firstContract] 0 7 (fun _ => .ok ()) .start rfl
  refine ⟨unshared, intact, (sizes Hash.ofBytes 0 7 [7] [firstContract] deployed (by decide) ?_).mpr ?_⟩
  · unfold HashTree.Collisionless
    decide
  · intro index created
    obtain ⟨inside, _⟩ := List.getElem?_eq_some_iff.mp created
    rw [Nat.lt_one_iff.mp inside]
    decide

end OrbiterSDK.Proofs.ContractAddresses
