import OrbiterSDK.Reachable

/-! Calls from several threads. Each section under the mutex is one step, and so are the
checks of a header, which are made before the mutex is taken. A call remembers which
states it has looked at, and how many blocks had been executed when it first looked. -/

namespace OrbiterSDK.State

variable {World : Type}

/-- What a thread does next. -/
inductive Call (World : Type) where
  | idle
  | validateNextBlock (block : Block)
  | validateNextBlockTxs (block : Block)
  | processNextBlock (block : Block)
  | processNextBlockTxs (block : Block) (header : State World) (since : Nat)
  | processNextBlockExecute (block : Block) (header txs : State World) (since : Nat)
  | addTx (tx : TxBlock)
  | addTxInsert (tx : TxBlock) (since : Nat)

/-- The execution of a block: the states in which its header and its transactions were
checked, and the state in which it starts. -/
structure Execution (World : Type) where
  block : Block
  header : State World
  txs : State World
  start : State World

/-- All threads with the state they share. -/
structure Threads (World : Type) where
  state : State World
  calls : Nat → Call World
  executed : List (Execution World)

/-- A call as it arrives. -/
inductive Arrival where
  | validateNextBlock (block : Block)
  | processNextBlock (block : Block)
  | addTx (tx : TxBlock)

def Arrival.call : Arrival → Call World
  | validateNextBlock block => .validateNextBlock block
  | processNextBlock block => .processNextBlock block
  | addTx tx => .addTx tx

section Sections
variable (env : Env World)

/-- The section of `validateNextBlock` under the shared lock. -/
def checkTxs (block : Block) : Act World Bool := holding .shared do
  checked ((← get).validateTxs block.txs)

/-- The next section of a call: what the thread does after it, the state it leaves, and
the block it executes, if it does. -/
def nextSection (executed : Nat) (state : State World) : Call World → Call World × State World × List (Execution World)
  | .idle => (.idle, state, [])
  | .validateNextBlock block =>
    (if state.validateHeader env block then .validateNextBlockTxs block else .idle, state, [])
  | .validateNextBlockTxs block => (.idle, ((checkTxs block).eval state).2, [])
  | .processNextBlock block =>
    (if state.validateHeader env block then .processNextBlockTxs block state executed else .idle, state, [])
  | .processNextBlockTxs block header since =>
    (match ((checkTxs block).eval state).1 with
      | .ok true => .processNextBlockExecute block header state since
      | _ => .idle, ((checkTxs block).eval state).2, [])
  | .processNextBlockExecute block header txs _ =>
    (.idle, ((holding .unique (executeBlock env block)).eval state).2, [⟨block, header, txs, state⟩])
  | .addTx tx =>
    (match ((validateTransaction tx).eval state).1 with
      | .ok .notInvalid => .addTxInsert tx executed
      | _ => .idle, ((validateTransaction tx).eval state).2, [])
  | .addTxInsert tx _ => (.idle, ((holding .unique (addToMempool tx)).eval state).2, [])

def Threads.arrive (threads : Threads World) (thread : Nat) (arrival : Arrival) : Threads World :=
  { threads with calls := Function.update threads.calls thread arrival.call }

def Threads.advance (threads : Threads World) (thread : Nat) : Threads World :=
  let (call, state, executed) := nextSection env threads.executed.length threads.state (threads.calls thread)
  ⟨state, Function.update threads.calls thread call, threads.executed ++ executed⟩

/-- Any interleaving of any calls, on any state that was constructed. -/
inductive Interleaved : Threads World → Prop where
  | construct (db : Database) (world : World) (events : List Event) (rdposSeed : Hash) (storage : Chain) :
      Interleaved ⟨construct db world events rdposSeed storage, fun _ => .idle, []⟩
  | arrive {threads : Threads World} (thread : Nat) (arrival : Arrival) (before : Interleaved threads)
      (idle : threads.calls thread = .idle) : Interleaved (threads.arrive thread arrival)
  | advance {threads : Threads World} (thread : Nat) (before : Interleaved threads) :
      Interleaved (threads.advance env thread)

end Sections

/-! All public methods. -/

/-- The public methods, each with its arguments. -/
inductive Method (World : Type) where
  | operation (operation : Operation)
  | getNativeBalance (addr : Address)
  | getNativeNonce (addr : Address)
  | getMempool
  | getMempoolSize
  | validateNextBlock (block : Block)
  | fillBlockWithTransactions (block : Block)
  | validateTransaction (tx : TxBlock)
  | addValidatorTx (answer : State World → TxValidator → Bool) (tx : TxValidator)
  | isTxInMempool (txHash : Hash)
  | getTxFromMempool (txHash : Hash)
  | getContracts (contracts : World → List (String × Address))
  | getEvmContracts
  | isEvmContract (addr : Address)
  | getEvents (query : List Event → Except Exception (List Event))

def Method.perform (env : Env World) : Method World → Act World Unit
  | operation chosen => State.perform env chosen
  | getNativeBalance addr => do let _ ← State.getNativeBalance addr
  | getNativeNonce addr => do let _ ← State.getNativeNonce addr
  | getMempool => do let _ ← State.getMempool
  | getMempoolSize => do let _ ← State.getMempoolSize
  | validateNextBlock block => do let _ ← State.validateNextBlock env block
  | fillBlockWithTransactions block => do let _ ← State.fillBlockWithTransactions block
  | validateTransaction tx => do let _ ← State.validateTransaction tx
  | addValidatorTx answer tx => do let _ ← State.addValidatorTx answer tx
  | isTxInMempool txHash => do let _ ← State.isTxInMempool txHash
  | getTxFromMempool txHash => do let _ ← State.getTxFromMempool txHash
  | getContracts contracts => do let _ ← State.getContracts contracts
  | getEvmContracts => do let _ ← State.getEvmContracts
  | isEvmContract addr => do let _ ← State.isEvmContract addr
  | getEvents query => do let _ ← State.getEvents query

end OrbiterSDK.State
