import OrbiterSDK.Proofs.Locks

/-! States that no block can tell apart. The generator is seeded at the start of every
block, and the context and the hash of a transaction are set before the machine reads
them, so these members need not agree; neither need the sets of slots that were ever
written. -/

namespace OrbiterSDK.Proofs.Alike
open Lib State Action Statements

variable {World : Type} {first second : EVMAccount}

/-- Accounts with the same contents, whichever slots are listed. -/
structure AccountAlike (left right : EVMAccount) : Prop where
  nonce : left.nonce = right.nonce
  code : left.code = right.code
  codeHash : left.codeHash = right.codeHash
  balance : left.balance = right.balance
  storage : ∀ key, left.storage.value key = right.storage.value key
  transientStorage : ∀ key, left.transientStorage.value key = right.transientStorage.value key

theorem AccountAlike.refl (acc : EVMAccount) : AccountAlike acc acc := ⟨rfl, rfl, rfl, rfl, fun _ => rfl, fun _ => rfl⟩

/-- The same accounts with the same contents. -/
structure AccountsAlike (left right : Table Address EVMAccount) : Prop where
  keys : left.keys = right.keys
  value : ∀ addr, AccountAlike (left.value addr) (right.value addr)

section Accounts
variable {left right : Table Address EVMAccount}

theorem AccountsAlike.modify (alike : AccountsAlike left right) (addr : Address) {update other : EVMAccount → EVMAccount}
    (kept : ∀ first second, AccountAlike first second → AccountAlike (update first) (other second)) :
    AccountsAlike (left.modify addr update) (right.modify addr other) where
  keys := by rw [Table.modify_keys, Table.modify_keys, alike.keys]
  value place := by
    rw [Table.modify_value, Table.modify_value]
    split
    · exact kept _ _ (alike.value addr)
    · exact alike.value place

theorem AccountsAlike.modifyAll (touched : List Address) {update : EVMAccount → EVMAccount}
    (kept : ∀ first second, AccountAlike first second → AccountAlike (update first) (update second)) :
    ∀ {left right}, AccountsAlike left right → AccountsAlike (left.modifyAll touched update) (right.modifyAll touched update) := by
  induction touched with
  | nil => exact fun alike => alike
  | cons addr rest ih => exact fun alike => ih (alike.modify addr kept)

theorem AccountsAlike.assign (alike : AccountsAlike left right) (targets : Finset Address) {update : Address → EVMAccount → EVMAccount}
    (kept : ∀ addr first second, AccountAlike first second → AccountAlike (update addr first) (update addr second)) :
    AccountsAlike (left.assign targets update) (right.assign targets update) where
  keys := congrArg (· ∪ targets) alike.keys
  value place := by
    simp only [Table.assign]
    split
    · exact kept _ _ _ (alike.value place)
    · exact alike.value place

theorem AccountAlike.store (alike : AccountAlike first second) (key : Hash)
    (update : Versioned Hash → Versioned Hash) :
    AccountAlike { first with storage := first.storage.modify key update }
      { second with storage := second.storage.modify key update } :=
  { alike with
    storage := fun place => by
      show (first.storage.modify key update).value place = (second.storage.modify key update).value place
      rw [Table.modify_value, Table.modify_value, alike.storage, alike.storage] }

theorem AccountAlike.storeTransient (alike : AccountAlike first second) (key value : Hash) :
    AccountAlike { first with transientStorage := first.transientStorage.modify key fun _ => value }
      { second with transientStorage := second.transientStorage.modify key fun _ => value } :=
  { alike with
    transientStorage := fun place => by
      show (first.transientStorage.modify key fun _ => value).value place =
        (second.transientStorage.modify key fun _ => value).value place
      rw [Table.modify_value, Table.modify_value, alike.transientStorage] }

theorem AccountAlike.clearTransient (alike : AccountAlike first second) :
    AccountAlike { first with transientStorage := default } { second with transientStorage := default } :=
  { alike with transientStorage := fun _ => rfl }

theorem AccountAlike.writeCode (alike : AccountAlike first second) (code : Bytes) (codeHash : Hash) :
    AccountAlike { first with codeHash := first.codeHash.write codeHash, code := first.code.write code }
      { second with codeHash := second.codeHash.write codeHash, code := second.code.write code } :=
  { alike with code := by rw [alike.code], codeHash := by rw [alike.codeHash] }

theorem AccountAlike.writeBalance (alike : AccountAlike first second) (balance : Uint256) :
    AccountAlike { first with balance := first.balance.write balance } { second with balance := second.balance.write balance } :=
  { alike with balance := by rw [alike.balance] }

theorem AccountsAlike.updateStorages (update : Versioned Hash → Versioned Hash) (accessed : List (Address × Hash)) :
    ∀ {left right}, AccountsAlike left right →
      AccountsAlike (EVMHost.updateStorages update accessed left) (EVMHost.updateStorages update accessed right) := by
  induction accessed with
  | nil => exact fun alike => alike
  | cons slot rest ih => exact fun alike => ih (alike.modify slot.1 fun _ _ same => same.store slot.2 update)

theorem AccountsAlike.clearTransients (alike : AccountsAlike left right) (accessed : List Address) :
    AccountsAlike (EVMHost.clearTransients accessed left) (EVMHost.clearTransients accessed right) := by
  unfold EVMHost.clearTransients
  exact .modifyAll accessed (fun _ _ same => same.clearTransient) alike

theorem AccountsAlike.find (alike : AccountsAlike left right) (addr : Address) : (left.find addr = none ∧ right.find addr = none) ∨
      ∃ first second, left.find addr = some first ∧ right.find addr = some second ∧ AccountAlike first second := by
  by_cases present : addr ∈ left.keys
  · refine .inr ⟨left.value addr, right.value addr, ?_, ?_, alike.value addr⟩
    · simp only [Table.find, if_pos present]
    · simp only [Table.find, if_pos (alike.keys ▸ present)]
  · refine .inl ⟨?_, ?_⟩
    · simp only [Table.find, if_neg present]
    · simp only [Table.find, if_neg (alike.keys ▸ present)]

theorem AccountsAlike.stateBalance (alike : AccountsAlike left right) :
    ContractCallLogger.stateBalance left = ContractCallLogger.stateBalance right := by
  funext addr
  unfold ContractCallLogger.stateBalance
  rcases alike.find addr with ⟨first, second⟩ | ⟨one, two, first, second, same⟩
  · rw [first, second]
  · simp only [first, second, same.balance]

theorem AccountsAlike.run (alike : AccountsAlike left right) (program : ContractProgram World) :
    ∀ logger, program.run left logger = program.run right logger ∧
      ∀ world, program.written left world logger = program.written right world logger := by
  have populate : ∀ (logger : ContractCallLogger) addr, logger.populateBalance left addr = logger.populateBalance right addr := by
    intro logger addr
    unfold ContractCallLogger.populateBalance
    rw [alike.stateBalance]
  induction program with
  | done world => exact fun _ => ⟨rfl, fun _ => rfl⟩
  | throw what => exact fun _ => ⟨rfl, fun _ => rfl⟩
  | write world next ih => exact fun logger => ⟨(ih logger).1, fun _ => (ih logger).2 world⟩
  | getBalance address next ih =>
    intro logger
    simp only [ContractProgram.run, ContractProgram.written, populate]
    exact ih _ _
  | sendTokens source target amount next ih =>
    intro logger
    have same : logger.sendTokens left source target amount = logger.sendTokens right source target amount := by
      unfold ContractCallLogger.sendTokens
      simp only [populate]
    simp only [ContractProgram.run, ContractProgram.written, same]
    split
    · exact ⟨rfl, fun _ => rfl⟩
    · exact ih _
  | emitEvent event next ih => exact fun logger => ih _

end Accounts

/-- Hosts that differ at most in what is set anew before it is read. Within a block the
generators agree as well. -/
structure HostAlike (seeded : Prop) (left right : EVMHost) : Prop where
  randomGen : seeded → left.randomGen = right.randomGen
  accounts : AccountsAlike left.accounts right.accounts
  accessedAccountsBalances : left.accessedAccountsBalances = right.accessedAccountsBalances
  accessedAccountsCode : left.accessedAccountsCode = right.accessedAccountsCode
  accessedAccountsNonces : left.accessedAccountsNonces = right.accessedAccountsNonces
  accessedStorages : left.accessedStorages = right.accessedStorages
  contractAddresses : left.contractAddresses = right.contractAddresses
  recentlyCreatedContracts : left.recentlyCreatedContracts = right.recentlyCreatedContracts
  accessedTransients : left.accessedTransients = right.accessedTransients
  emittedEvents : left.emittedEvents = right.emittedEvents
  shouldRevert : left.shouldRevert = right.shouldRevert

section Hosts
variable {seeded : Prop} {left right : EVMHost} (alike : HostAlike seeded left right)
include alike

theorem HostAlike.account (addr : Address) : AccountAlike (left.account addr) (right.account addr) := alike.accounts.value addr

theorem HostAlike.balanceOf (addr : Address) : left.balanceOf addr = right.balanceOf addr := congrArg _ (alike.account addr).balance

theorem HostAlike.isEvmContract (addr : Address) : left.isEvmContract addr = right.isEvmContract addr := by
  unfold EVMHost.isEvmContract
  rcases alike.accounts.find addr with ⟨first, second⟩ | ⟨one, two, first, second, same⟩
  · rw [first, second]
  · simp only [first, second, same.code]

theorem HostAlike.modify (addr : Address) {update other : EVMAccount → EVMAccount}
    (kept : ∀ first second, AccountAlike first second → AccountAlike (update first) (other second)) :
    HostAlike seeded { left with accounts := left.accounts.modify addr update }
      { right with accounts := right.accounts.modify addr other } :=
  { alike with accounts := alike.accounts.modify addr kept }

theorem HostAlike.touch (addr : Address) : HostAlike seeded (left.touch addr) (right.touch addr) := alike.modify addr fun _ _ same => same

theorem HostAlike.setBalance (addr : Address) (balance : Uint256) :
    HostAlike seeded (left.setBalance addr balance) (right.setBalance addr balance) :=
  alike.modify addr fun _ _ same => same.writeBalance balance

theorem HostAlike.commit : HostAlike seeded left.commit right.commit := by
  refine { alike with accounts := ?_, accessedStorages := rfl, accessedTransients := rfl, emittedEvents := rfl }
  show AccountsAlike (EVMHost.clearTransients left.accessedTransients _) (EVMHost.clearTransients right.accessedTransients _)
  rw [alike.accessedTransients, alike.accessedStorages]
  exact (alike.accounts.updateStorages .commit _).clearTransients _

theorem HostAlike.revert : HostAlike seeded left.revert right.revert := by
  refine { alike with
    accounts := ?_, contractAddresses := ?_, recentlyCreatedContracts := rfl, accessedStorages := rfl
    accessedTransients := rfl, emittedEvents := rfl }
  · show AccountsAlike (EVMHost.clearTransients left.accessedTransients _) (EVMHost.clearTransients right.accessedTransients _)
    rw [alike.accessedTransients, alike.accessedStorages]
    exact (alike.accounts.updateStorages .revert _).clearTransients _
  · show left.recentlyCreatedContracts.foldl _ left.contractAddresses = right.recentlyCreatedContracts.foldl _ right.contractAddresses
    rw [alike.recentlyCreatedContracts, alike.contractAddresses]

private theorem HostAlike.each {touched other : List Address} (same : touched = other) {update : EVMAccount → EVMAccount}
    (kept : ∀ first second, AccountAlike first second → AccountAlike (update first) (update second)) :
    AccountsAlike (left.accounts.modifyAll touched update) (right.accounts.modifyAll other update) :=
  same ▸ AccountsAlike.modifyAll touched kept alike.accounts

theorem HostAlike.commitCode : HostAlike seeded left.commitCode right.commitCode :=
  { alike with
    accounts := alike.each alike.accessedAccountsCode fun _ _ same =>
      { same with code := by rw [same.code], codeHash := by rw [same.codeHash] }
    recentlyCreatedContracts := rfl
    accessedAccountsCode := rfl }

theorem HostAlike.revertCode : HostAlike seeded left.revertCode right.revertCode :=
  { alike with
    accounts := alike.each alike.accessedAccountsCode fun _ _ same =>
      { same with code := by rw [same.code], codeHash := by rw [same.codeHash] }
    accessedAccountsCode := rfl }

theorem HostAlike.commitNonce : HostAlike seeded left.commitNonce right.commitNonce :=
  { alike with
    accounts := alike.each alike.accessedAccountsNonces fun _ _ same => { same with nonce := by rw [same.nonce] }
    accessedAccountsNonces := rfl }

theorem HostAlike.commitBalance : HostAlike seeded left.commitBalance right.commitBalance :=
  { alike with
    accounts := alike.each alike.accessedAccountsBalances fun _ _ same => { same with balance := by rw [same.balance] }
    accessedAccountsBalances := rfl }

end Hosts

structure Prepared (left right : EVMHost) : Prop extends HostAlike True left right where
  currentTxContext : left.currentTxContext = right.currentTxContext
  currentTxHash : left.currentTxHash = right.currentTxHash

section Machine
variable {left right : EVMHost}

theorem Prepared.setStorage (prepared : Prepared left right) (addr : Address) (key value : Hash) :
    (left.setStorage addr key value).1 = (right.setStorage addr key value).1 ∧
      Prepared (left.setStorage addr key value).2 (right.setStorage addr key value).2 := by
  have opened : Prepared
      { left with
        accounts := left.accounts.modify addr fun acc => { acc with storage := acc.storage.modify key id }
        accessedStorages := left.accessedStorages ++ [(addr, key)] }
      { right with
        accounts := right.accounts.modify addr fun acc => { acc with storage := acc.storage.modify key id }
        accessedStorages := right.accessedStorages ++ [(addr, key)] } :=
    { prepared with
      accounts := prepared.accounts.modify addr fun _ _ same => same.store key id
      accessedStorages := by rw [prepared.accessedStorages] }
  have old := (opened.account addr).storage key
  unfold EVMHost.setStorage
  simp only
  rw [old]
  split
  · exact ⟨rfl, opened⟩
  · exact ⟨rfl, { opened with accounts := opened.accounts.modify addr fun _ _ same => same.store key _ }⟩

theorem Prepared.setTransientStorage (prepared : Prepared left right) (addr : Address) (key value : Hash) :
    Prepared (left.setTransientStorage addr key value) (right.setTransientStorage addr key value) :=
  { prepared with
    accessedTransients := by
      show left.accessedTransients ++ [addr] = right.accessedTransients ++ [addr]
      rw [prepared.accessedTransients]
    accounts := prepared.accounts.modify addr fun _ _ same => same.storeTransient key value }

theorem Prepared.answer (prepared : Prepared left right) (request : HostRequest) :
    (left.answer request).1 = (right.answer request).1 ∧ Prepared (left.answer request).2 (right.answer request).2 := by
  have account := prepared.account
  cases request with
  | accountExists addr =>
    refine ⟨?_, prepared⟩
    show decide (addr ∈ left.accounts.keys) = decide (addr ∈ right.accounts.keys)
    rw [prepared.accounts.keys]
  | getStorage addr key => exact ⟨congrArg Versioned.second ((account addr).storage key), prepared⟩
  | setStorage addr key value => exact prepared.setStorage addr key value
  | getBalance addr => exact ⟨prepared.balanceOf addr, prepared⟩
  | getCodeSize addr => exact ⟨congrArg (·.second.length) (account addr).code, prepared⟩
  | getCodeHash addr => exact ⟨congrArg (·.second) (account addr).codeHash, prepared⟩
  | copyCode addr codeOffset bufferSize =>
    exact ⟨congrArg (fun code => (code.second.drop codeOffset).take bufferSize) (account addr).code, prepared⟩
  | selfdestruct addr beneficiary => exact ⟨rfl, { prepared with shouldRevert := rfl }⟩
  | getTxContext => exact ⟨prepared.currentTxContext, prepared⟩
  | getBlockHash number =>
    simp only [EVMHost.answer, EVMHost.getBlockHash]
    split
    · exact ⟨rfl, { prepared with shouldRevert := rfl }⟩
    · exact ⟨rfl, prepared⟩
  | emitLog addr data topics =>
    refine ⟨rfl, { prepared with emittedEvents := ?_ }⟩
    show left.emittedEvents ++ _ = right.emittedEvents ++ _
    rw [prepared.emittedEvents]
  | accessAccount addr => exact ⟨rfl, prepared⟩
  | accessStorage addr key => exact ⟨rfl, prepared⟩
  | getTransientStorage addr key => exact ⟨(account addr).transientStorage key, prepared⟩
  | setTransientStorage addr key value => exact ⟨rfl, prepared.setTransientStorage addr key value⟩

theorem Prepared.touch (prepared : Prepared left right) (addr : Address) : Prepared (left.touch addr) (right.touch addr) :=
  { prepared with toHostAlike := prepared.toHostAlike.touch addr }

theorem Prepared.call (prepared : Prepared left right) (vm : Vm) (msg : EvmcMessage)
    {evmcExecute : Bytes → EVMHost → EvmcResult × EVMHost}
    (inner : ∀ code left right, Prepared left right → (evmcExecute code left).1 = (evmcExecute code right).1 ∧
      Prepared (evmcExecute code left).2 (evmcExecute code right).2) :
    (left.call vm msg evmcExecute).1 = (right.call vm msg evmcExecute).1 ∧
      Prepared (left.call vm msg evmcExecute).2 (right.call vm msg evmcExecute).2 := by
  have code : ((right.touch msg.recipient).account msg.recipient).code = ((left.touch msg.recipient).account msg.recipient).code :=
    ((prepared.touch msg.recipient).account msg.recipient).code.symm
  unfold EVMHost.call
  simp only [prepared.randomGen trivial, code]
  split_ifs
  all_goals first
    | exact ⟨rfl, prepared⟩
    | exact ⟨rfl, { prepared with randomGen := fun _ => rfl }⟩
    | exact inner _ _ _ (prepared.touch msg.recipient)

theorem Prepared.run (vm : Vm) (program : Program) : ∀ gas {left right}, Prepared left right →
    (EVMHost.run vm program gas left).1 = (EVMHost.run vm program gas right).1 ∧
      Prepared (EVMHost.run vm program gas left).2 (EVMHost.run vm program gas right).2 := by
  induction program with
  | done statusCode consumed outputData => exact fun gas _ _ prepared => ⟨rfl, prepared⟩
  | callback request next ih =>
    intro gas left right prepared
    obtain ⟨reply, after⟩ := prepared.answer request
    simp only [EVMHost.run]
    rw [reply]
    exact ih _ gas after
  | call msg execute next executeIh nextIh =>
    intro gas left right prepared
    obtain ⟨result, after⟩ := prepared.call vm msg fun code _ _ same => executeIh code msg.gas same
    simp only [EVMHost.run]
    rw [result]
    exact nextIh _ gas after

theorem Prepared.storeContract (prepared : Prepared left right) (contractAddress : Address) (code : Bytes) (codeHash : Hash) :
    Prepared (left.storeContract contractAddress code codeHash) (right.storeContract contractAddress code codeHash) := by
  refine { prepared with
    accounts := prepared.accounts.modify contractAddress fun _ _ same => same.writeCode code codeHash
    recentlyCreatedContracts := ?created
    contractAddresses := ?addresses
    accessedAccountsCode := ?accessed }
  case created =>
    show left.recentlyCreatedContracts ++ [left.currentTxHash] = right.recentlyCreatedContracts ++ [right.currentTxHash]
    rw [prepared.recentlyCreatedContracts, prepared.currentTxHash]
  case addresses =>
    show left.contractAddresses.modify left.currentTxHash (fun _ => contractAddress) =
      right.contractAddresses.modify right.currentTxHash fun _ => contractAddress
    rw [prepared.contractAddresses, prepared.currentTxHash]
  case accessed =>
    show left.accessedAccountsCode ++ _ = right.accessedAccountsCode ++ _
    rw [prepared.accessedAccountsCode]

theorem Prepared.execute (prepared : Prepared left right) (vm : Vm) (tx : EthCallInfo) :
    (left.execute vm tx).1 = (right.execute vm tx).1 ∧ Prepared (left.execute vm tx).2 (right.execute vm tx).2 := by
  unfold EVMHost.execute EVMHost.createContract
  split
  case isTrue create =>
    have touched := prepared.touch tx.from
    simp only [(touched.account tx.from).nonce]
    cases Uint256.narrow (2 ^ 64) tx.gasLimit with
    | error what => exact ⟨rfl, touched⟩
    | ok gas =>
      simp only
      generalize EVMHost.creationMessage _ _ _ = creationMsg
      obtain ⟨result, after⟩ := Prepared.run vm (vm.evmcExecute creationMsg tx.fullData) creationMsg.gas touched
      rw [result]
      split
      · exact ⟨rfl, after⟩
      · exact ⟨rfl, after.storeContract _ _ _⟩
  case isFalse call =>
    have touched := prepared.touch tx.to
    simp only [(touched.account tx.to).code]
    cases Uint256.narrow (2 ^ 63) tx.gasLimit with
    | error what => exact ⟨rfl, prepared⟩
    | ok gas =>
      obtain ⟨result, after⟩ := Prepared.run vm (vm.evmcExecute (EVMHost.callMessage tx gas)
        ((right.touch tx.to).account tx.to).code.second) (EVMHost.callMessage tx gas).gas touched
      exact ⟨congrArg Except.ok result, after⟩

end Machine

/-- States that no block can tell apart. -/
structure StateAlike (seeded : Prop) (left right : State World) : Prop where
  host : HostAlike seeded left.evmHost right.evmHost
  contractManager : left.contractManager = right.contractManager
  rdposSeed : left.rdposSeed = right.rdposSeed
  mempool : left.mempool = right.mempool
  processingPayable : left.processingPayable = right.processingPayable
  storage : left.storage = right.storage
  stateMutex : left.stateMutex = right.stateMutex

variable {seeded : Prop} {left right : State World} {α : Type}

theorem StateAlike.balanceOf (alike : StateAlike seeded left right) (addr : Address) :
    left.balanceOf addr = right.balanceOf addr := alike.host.balanceOf addr

theorem StateAlike.latest (alike : StateAlike seeded left right) : left.latest = right.latest :=
  congrArg Chain.latest alike.storage

theorem StateAlike.validateAgainstAccounts (alike : StateAlike seeded left right) (tx : TxBlock) :
    left.validateAgainstAccounts tx = right.validateAgainstAccounts tx := by
  unfold State.validateAgainstAccounts
  rcases alike.host.accounts.find tx.from with ⟨first, second⟩ | ⟨one, two, first, second, same⟩
  · rw [first, second]
  · simp only [first, second, same.balance, same.nonce]

theorem StateAlike.validateTransactionInternal (alike : StateAlike seeded left right) (tx : TxBlock) :
    left.validateTransactionInternal tx = right.validateTransactionInternal tx := by
  unfold State.validateTransactionInternal State.inMempool
  rw [alike.mempool, alike.validateAgainstAccounts]

theorem StateAlike.validateTxs (alike : StateAlike seeded left right) (txs : List TxBlock) :
    left.validateTxs txs = right.validateTxs txs := by
  induction txs with
  | nil => rfl
  | cons tx rest ih => simp only [State.validateTxs, alike.validateTransactionInternal, ih]

section Transaction
variable (env : Env World) (tx : TxBlock) (context : BlockContext) (txIndex : UInt64)

end Transaction

section Blocks
variable (env : Env World) (block : Block)

end Blocks

end OrbiterSDK.Proofs.Alike
