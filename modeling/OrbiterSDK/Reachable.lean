import OrbiterSDK.StateCalls

/-! Runs of the state: it is constructed once, and its public methods are called one
after another. -/

namespace OrbiterSDK.State
open Lib

variable {World : Type}

/-- The methods that may leave another state than they found. -/
inductive Operation where
  | processNextBlock (block : Block)
  | addTx (tx : TxBlock)
  | addBalance (addr : Address)
  | ethCall (callInfo : EthCallInfo)
  | estimateGas (callInfo : EthCallInfo)
  | getContractCode (addr : Address)
  | getEvmContractAddress (txHash : Hash)

def perform (env : Env World) : Operation → Act World Unit
  | .processNextBlock block => processNextBlock env block
  | .addTx tx => do let _ ← addTx tx
  | .addBalance addr => addBalance env addr
  | .ethCall callInfo => do let _ ← ethCall env callInfo
  | .estimateGas callInfo => do let _ ← estimateGas env callInfo
  | .getContractCode addr => do let _ ← getContractCode addr
  | .getEvmContractAddress txHash => do let _ ← getEvmContractAddress txHash

/-- A call that throws leaves its effects behind. One that waits for itself never
ends, and no other can follow it. -/
inductive Reachable (env : Env World) : State World → Prop where
  | construct (db : Database) (world : World) (events : List Event) (rdposSeed : Hash) (storage : Chain) :
      Reachable env (construct db world events rdposSeed storage)
  | step {before after : State World} {result : Except Stop Unit} (operation : Operation)
      (reachable : Reachable env before) (performed : (perform env operation).eval before = (result, after))
      (ended : result ≠ .error .deadlock) : Reachable env after

end OrbiterSDK.State
