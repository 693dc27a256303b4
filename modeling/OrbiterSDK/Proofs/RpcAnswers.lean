import OrbiterSDK.Proofs.RpcTexts
import OrbiterSDK.Proofs.Locks
import OrbiterSDK.Proofs.Conservation

/-! What requests are answered, and in which fields a number or bytes are not written as they should be. -/

namespace OrbiterSDK.Proofs.RpcAnswers
open Lib JsonRPC Encoding RpcTexts
variable {World : Type}

variable (services : Services World)

/-- A request is answered, and leaves a state and a storage. -/
def Gives {α : Type} (rpc : Rpc World α) (state : State World) (storage : Storage) (value : α) (after : State World) (next : Storage) : Prop :=
  (rpc storage).eval state = (.ok (value, next), after)

variable {services} {α β : Type} {state after last : State World} {storage next final : Storage}

theorem gives_bind {first : Rpc World α} {rest : α → Rpc World β} {value : α} {result : β} (done : Gives first state storage value after next)
    (later : Gives (rest value) after next result last final) : Gives (first >>= rest) state storage result last final := by
  unfold Gives at done later ⊢
  change ((first storage) >>= fun both => rest both.1 both.2).eval state = _
  rw [Statements.eval_seq_ok done]
  exact later

theorem gives_query {ask : Storage → Except Exception (α × Storage)} {value : α} (found : ask storage = .ok (value, next)) :
    Gives (query ask) state storage value state next := by
  unfold Gives query
  rw [found]
  rfl

theorem gives_lift {action : Act World α} {value : α} (done : action.eval state = (.ok value, after)) :
    Gives (StateT.lift action) state storage value after storage := by
  unfold Gives StateT.lift
  rw [Statements.eval_seq_ok done]
  rfl

theorem gives_pure (value : α) : Gives (pure value : Rpc World α) state storage value state storage := rfl

theorem gives_checked {encoder : Except Exception Value} {value : Value} (done : encoder = .ok value) :
    Gives (StateT.lift (State.checked encoder)) state storage value state storage := by
  apply gives_lift
  rw [done]
  rfl

theorem gives_encoded {encoder : Except Exception Value} {value : Value} (done : encoder = .ok value) :
    Gives (encoded encoder) state storage (answer value) state storage :=
  gives_bind (gives_checked done) (gives_pure _)

theorem eval_reading {body : Act World α} {value : α} (free : state.stateMutex = .free)
    (read : body.eval (Locks.withMutex state .shared) = (.ok value, after)) :
    (State.holding .shared body).eval state = (.ok value, Locks.withMutex after .free) := by
  rw [Locks.eval_holding free, read]

/-- What a request is about, if it is about something. The lock is free between two calls. -/
inductive Concerns (services : Services World) (state : State World) (storage : Storage) : Request → Subject → Prop where
  | version : Concerns services state storage .net_version (.number services.chainID.toNat)
  | peerCount : Concerns services state storage .net_peerCount (.number services.peerCount)
  | chainId : Concerns services state storage .eth_chainId (.number services.chainID.toNat)
  | gasPrice : Concerns services state storage .eth_gasPrice (.number 2500000000)
  | blockNumber {block : Block} (latest : storage.latest = .ok block) :
      Concerns services state storage .eth_blockNumber (.number block.nHeight.toNat)
  | blockByHash {blockHash : Hash} {block : Block} {next : Storage} (includeTransactions : Bool)
      (found : Storage.getBlock services.reader storage services.db blockHash = .ok (some block, next)) :
      Concerns services state storage (.eth_getBlockByHash blockHash includeTransactions) (.block block includeTransactions)
  | blockByNumber {blockNumber : UInt64} {block : Block} {next : Storage} (includeTransactions : Bool)
      (found : Storage.getBlockAt services.reader storage services.db blockNumber = .ok (some block, next)) :
      Concerns services state storage (.eth_getBlockByNumber blockNumber includeTransactions) (.block block includeTransactions)
  | countByHash {blockHash : Hash} {block : Block} {next : Storage}
      (found : Storage.getBlock services.reader storage services.db blockHash = .ok (some block, next)) :
      Concerns services state storage (.eth_getBlockTransactionCountByHash blockHash) (.number block.txs.length)
  | countByNumber {blockNumber : UInt64} {block : Block} {next : Storage}
      (found : Storage.getBlockAt services.reader storage services.db blockNumber = .ok (some block, next)) :
      Concerns services state storage (.eth_getBlockTransactionCountByNumber blockNumber) (.number block.txs.length)
  | output {callInfo : EthCallInfo} {bytes : Bytes} {after : State World}
      (returned : (State.ethCall services.env callInfo).eval state = (.ok bytes, after)) :
      Concerns services state storage (.eth_call callInfo) (.output bytes)
  | gas {callInfo : EthCallInfo} {gas : Uint256} {after : State World} (positive : gas ≠ 0)
      (estimated : (State.estimateGas services.env callInfo).eval state = (.ok gas, after)) :
      Concerns services state storage (.eth_estimateGas callInfo) (.number gas.toNat)
  | balance (address : Address) (free : state.stateMutex = .free) :
      Concerns services state storage (.eth_getBalance address) (.number (state.balanceOf address).toNat)
  | nonce (address : Address) (free : state.stateMutex = .free) :
      Concerns services state storage (.eth_getTransactionCount address) (.number (state.nonceOf address).toNat)
  | code (address : Address) (free : state.stateMutex = .free) :
      Concerns services state storage (.eth_getCode address) (.code (state.evmHost.account address).code.second)
  | pending {txHash : Hash} (entry : Hash × TxBlock) (free : state.stateMutex = .free)
      (found : state.mempool.find? (fun entry => entry.1 = txHash) = some entry) :
      Concerns services state storage (.eth_getTransactionByHash txHash) (.pending entry.2)
  | mined {txHash : Hash} {tx : TxBlock} {location : TxLocation} {next : Storage} (free : state.stateMutex = .free)
      (absent : state.mempool.find? (fun entry => entry.1 = txHash) = none)
      (found : Storage.getTx services.reader storage services.db txHash = .ok ((some tx, location), next)) :
      Concerns services state storage (.eth_getTransactionByHash txHash) (.mined tx location)
  | ofBlock {blockHash : Hash} {blockIndex : UInt64} {tx : TxBlock} {location : TxLocation} {next : Storage}
      (found : Storage.getTxByBlockHashAndIndex services.reader storage services.db blockHash blockIndex = .ok ((some tx, location), next)) :
      Concerns services state storage (.eth_getTransactionByBlockHashAndIndex blockHash blockIndex) (.mined tx location)
  | ofHeight {blockNumber blockIndex : UInt64} {tx : TxBlock} {location : TxLocation} {next : Storage}
      (found : Storage.getTxByBlockNumberAndIndex services.reader storage services.db blockNumber blockIndex = .ok ((some tx, location), next)) :
      Concerns services state storage (.eth_getTransactionByBlockNumberAndIndex blockNumber blockIndex) (.mined tx location)
  | receipt {txHash : Hash} {tx : TxBlock} {location : TxLocation} {next : Storage} {events : List Event} (free : state.stateMutex = .free)
      (found : Storage.getTx services.reader storage services.db txHash = .ok ((some tx, location), next))
      (logged : EventManager.getTxEvents services.json services.caps { events := state.contractManager.eventManager.events } services.db txHash
        location.blockHeight location.blockIndex = .ok events) :
      Concerns services state storage (.eth_getTransactionReceipt txHash) (.receipt tx location)

/-- The answer to a request that is about something. -/
def Served (services : Services World) (state : State World) (storage : Storage) (request : Request) (subject : Subject) : Prop :=
  ∃ value after next, Gives (handle services request) state storage value after next ∧ Answered subject value

theorem served_mined {tx : TxBlock} {location : TxLocation} :
    ∃ value, Gives (minedAnswer (some tx, location) : Rpc World Value) state storage value state storage ∧ Answered (.mined tx location) value := by
  obtain ⟨value, done, answered⟩ := answered_mined tx location
  exact ⟨answer value, gives_encoded done, answered⟩

theorem served_number (number : Nat) : Gives (encoded (uintForRPC number)) state storage (answer (.string (quantityText number))) state storage :=
  gives_encoded (uintForRPC_eq number)

variable {request : Request} {subject : Subject}

theorem eval_code (address : Address) (free : state.stateMutex = .free) : ∃ after, (State.getContractCode address).eval state =
    (.ok (state.evmHost.account address).code.second, after) := by
  constructor
  apply eval_reading free
  rw [Statements.eval_seq_ok (Statements.eval_onHost _ _), ← HostRun.account_touch state.evmHost address address]
  rfl

theorem eval_mempool (txHash : Hash) (entry : Option (Hash × TxBlock)) (free : state.stateMutex = .free)
    (found : state.mempool.find? (fun entry => entry.1 = txHash) = entry) :
    (State.getTxFromMempool txHash).eval state = (.ok (entry.map fun found => found.2), Locks.withMutex (Locks.withMutex state .shared) .free) := by
  apply eval_reading free
  rw [← found]
  rfl

theorem eval_created (txHash : Hash) (free : state.stateMutex = .free) : ∃ created after, (State.getEvmContractAddress txHash).eval state =
    (.ok created, after) ∧ after.stateMutex = .free ∧ after.contractManager = state.contractManager := by
  constructor
  constructor
  constructor
  · apply eval_reading free
    rw [Statements.eval_seq_ok (Statements.eval_onHost _ _)]
    rfl
  · exact ⟨rfl, rfl⟩

theorem eval_events (query : List Event → Except Exception (List Event)) {events : List Event} (free : state.stateMutex = .free)
    (logged : query state.contractManager.eventManager.events = .ok events) :
    (State.getEvents query).eval state = (.ok events, Locks.withMutex (Locks.withMutex state .shared) .free) := by
  apply eval_reading free
  change (State.checked (query state.contractManager.eventManager.events)).eval _ = _
  rw [logged]
  rfl

private theorem eval_trying_ok {body : Act World Value} {value : Value} {after : State World}
    (returns : body.eval state = (.ok value, after)) :
    (trying body).eval state = (.ok value, after) := by
  rw [trying, Action.eval_tryCatch, returns]

/-- Every field is written as it should be, except for the type of a receipt and for data without a first byte of two digits. -/
theorem answers_faithful_iff (concerns : Concerns services state storage request subject) : Served services state storage request subject := by
  cases concerns with
  | version => exact ⟨_, state, storage, gives_bind (gives_checked (uintForRPC_eq _)) (gives_pure _), answered_number rfl⟩
  | peerCount => exact ⟨_, state, storage, gives_bind (gives_checked (uintForRPC_eq _)) (gives_pure _), answered_number rfl⟩
  | chainId => exact ⟨_, state, storage, served_number _, answered_number rfl⟩
  | gasPrice =>
    have price : Value.string "0x9502f900" = .string (quantityText 2500000000) := congrArg Value.string quantityText_price.symm
    exact ⟨_, state, storage, gives_pure _, answered_number (congrArg some price)⟩
  | @blockNumber block latest =>
    have found : (do pure (← storage.latest, storage) : Except Exception (Block × Storage)) = .ok (block, storage) := by
      rw [latest]
      rfl
    exact ⟨_, state, storage, gives_bind (gives_query found) (served_number _), answered_number rfl⟩
  | blockByHash full found => exact ⟨_, state, _, gives_bind (gives_query found) (gives_pure _), answered_block _ full⟩
  | blockByNumber full found => exact ⟨_, state, _, gives_bind (gives_query found) (gives_pure _), answered_block _ full⟩
  | countByHash found => exact ⟨_, state, _, gives_bind (gives_query found) (served_number _), answered_number rfl⟩
  | countByNumber found => exact ⟨_, state, _, gives_bind (gives_query found) (served_number _), answered_number rfl⟩
  | @output _ _ after returned =>
    refine ⟨_, after, storage, gives_lift (eval_trying_ok ?_), answered_output _⟩
    rw [Statements.eval_seq_ok returned]
    rfl
  | @gas _ gas after positive estimated =>
    refine ⟨answer (.string (quantityText gas.toNat)), after, storage, gives_lift (eval_trying_ok ?_), answered_number rfl⟩
    rw [Statements.eval_seq_ok estimated, if_neg positive, uintForRPC_eq]
    rfl
  | balance address free =>
    exact ⟨_, _, storage, gives_bind (gives_lift (eval_reading free rfl)) (served_number _), answered_number rfl⟩
  | nonce address free =>
    exact ⟨_, _, storage, gives_bind (gives_lift (eval_reading free rfl)) (served_number _), answered_number rfl⟩
  | code address free =>
    obtain ⟨after, read⟩ := eval_code address free
    exact ⟨_, _, storage, gives_bind (gives_lift read) (gives_encoded (bytesForRPC_eq _)), answered_code _⟩
  | pending entry free found =>
    obtain ⟨value, done, answered⟩ := answered_pending entry.2
    have read := eval_mempool _ _ free found
    refine ⟨_, _, storage, gives_bind (gives_lift read) (gives_encoded done), answered⟩
  | mined free absent found =>
    obtain ⟨value, gives, answered⟩ := served_mined
    have read := eval_mempool _ _ free absent
    exact ⟨value, _, _, gives_bind (gives_lift read) (gives_bind (gives_query found) gives), answered⟩
  | ofBlock found =>
    obtain ⟨value, gives, answered⟩ := served_mined
    exact ⟨value, state, _, gives_bind (gives_query found) gives, answered⟩
  | ofHeight found =>
    obtain ⟨value, gives, answered⟩ := served_mined
    exact ⟨value, state, _, gives_bind (gives_query found) gives, answered⟩
  | @receipt txHash tx location next events free found logged =>
    obtain ⟨created, moved, address, free, same⟩ := eval_created tx.hash free
    obtain ⟨value, done, answered⟩ := answered_receipt services tx location created events
    have read := eval_events (fun events => EventManager.getTxEvents services.json services.caps { events } services.db txHash
      location.blockHeight location.blockIndex) free (same ▸ logged)
    exact ⟨answer value, _, next, gives_bind (gives_query found)
      (gives_bind (gives_lift address) (gives_bind (gives_lift read) (gives_encoded done))), answered⟩

open Conservation

def quietServices : Services Unit where
  env := stoppingEnv
  reader := ⟨⟨fun _ => none, fun _ _ => none, fun _ _ => none⟩, fun _ => 0, ⟨fun _ => 0, fun _ => [], fun _ _ => 0⟩, 8080, []⟩
  db := ∅
  json := ⟨fun _ => [], fun _ => .error ""⟩
  dump := fun _ => ""
  caps := ⟨0, 0⟩
  chainID := 8080
  peerCount := 0

/-- An approval of a token, whose function has a selector that begins with a zero. -/
def approval : TxBlock := { donation with data := [0x09, 0x5e, 0xa7, 0xb3] ++ List.replicate 31 0 ++ [5] ++ List.replicate 31 0 ++ [100] }

def approving : State Unit := { freshState with mempool := [(approval.hash, approval)] }

theorem approval_answered : Served quietServices approving {} (.eth_getTransactionByHash approval.hash) (.pending approval) :=
  answers_faithful_iff (.pending (approval.hash, approval) rfl rfl)

/-- A selector loses a digit, and no bytes become one digit. -/
theorem approval_loses_digit : (∃ value after next, Gives (handle quietServices (.eth_getTransactionByHash approval.hash)) approving {} value after next ∧
      ¬ Field.Written value ⟨[.member "result", .member "input"], .data approval.data⟩) ∧
    ∃ value after next, Gives (handle quietServices (.eth_getCode 7)) freshState {} value after next ∧
      ¬ Field.Written value ⟨[.member "result"], .data []⟩ := by
  constructor
  · obtain ⟨value, done, answered⟩ := answered_pending approval
    have free : approving.stateMutex = .free := rfl
    have read := eval_mempool approval.hash (some (approval.hash, approval)) free rfl
    refine ⟨answer value, _, {}, gives_bind (gives_lift read) (gives_encoded done), ?_⟩
    have listed : ⟨[.member "result", .member "input"], .data approval.data⟩ ∈ (Subject.pending approval).fields := by
      change _ ∈ fieldsAt _ (callFields approval)
      unfold callFields fieldsAt
      simp
    intro written
    apply (answered _ listed).mp written
    refine ⟨approval.data, rfl, ?_⟩
    intro first rest same
    cases same
    decide
  · have free : freshState.stateMutex = .free := rfl
    obtain ⟨after, read⟩ := eval_code 7 free
    refine ⟨_, after, {}, gives_bind (gives_lift read) (gives_encoded (bytesForRPC_eq _)), ?_⟩
    intro written
    apply (answered_code [] _ List.mem_cons_self).mp written
    refine ⟨[], rfl, ?_⟩
    intro first rest same
    cases same

end OrbiterSDK.Proofs.RpcAnswers
