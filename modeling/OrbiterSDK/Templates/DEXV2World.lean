import OrbiterSDK.ContractManager
import OrbiterSDK.Lib.Atomic
import OrbiterSDK.Lib.Registry
import OrbiterSDK.Templates.DEXV2Pair

/-! The contracts of an exchange under their manager, as they call each other. A call that
throws is reverted with all calls that it made. -/

namespace OrbiterSDK
open Lib

structure DEXV2Factory where
  feeTo : Address := 0
  feeToSetter : Address
  allPairs : List Address := []
  getPairs : Table Address (Table Address Address) := default

structure DEXV2Router02 where
  factory : Address
  wrappedNative : Address

namespace DEXV2

inductive Contract where
  | erc20 (token : ERC20)
  | nativeWrapper (token : ERC20)
  | pair (pair : DEXV2Pair)
  | factory (factory : DEXV2Factory)
  | router (router : DEXV2Router02)

/-- The deployed contracts in the order of their creation, and the balances in native coins. -/
structure World where
  contracts : Registry Address Contract
  native : Address → Uint256

abbrev Run := Atomic World Exception

/-- What is the same for all calls of a transaction. -/
structure Around where
  sha3 : Bytes → Hash
  chainOwner : Address
  origin : Address
  timestamp : UInt64

/-- `dynamic_cast` to a class of contracts, and writing to its part of a contract. -/
structure Cast (τ : Type) where
  view : Contract → Option τ
  write : τ → Contract → Contract
  write_view : ∀ contract value, (view contract).isSome → view (write value contract) = some value

/-- Wrappers and pairs are tokens too. -/
def asERC20 : Cast ERC20 where
  view
    | .erc20 token | .nativeWrapper token => some token
    | .pair pair => some pair.toERC20
    | .factory _ | .router _ => none
  write token
    | .erc20 _ => .erc20 token
    | .nativeWrapper _ => .nativeWrapper token
    | .pair pair => .pair { pair with toERC20 := token }
    | .factory factory => .factory factory
    | .router router => .router router
  write_view contract token known := by
    cases contract with
    | erc20 | nativeWrapper | pair => rfl
    | factory | router => cases known

def asNativeWrapper : Cast ERC20 where
  view
    | .nativeWrapper token => some token
    | _ => none
  write token
    | .nativeWrapper _ => .nativeWrapper token
    | other => other
  write_view contract token known := by
    cases contract with
    | nativeWrapper => rfl
    | erc20 | pair | factory | router => cases known

def asPair : Cast DEXV2Pair where
  view
    | .pair pair => some pair
    | _ => none
  write pair
    | .pair _ => .pair pair
    | other => other
  write_view contract pair known := by
    cases contract with
    | pair => rfl
    | erc20 | nativeWrapper | factory | router => cases known

def asFactory : Cast DEXV2Factory where
  view
    | .factory factory => some factory
    | _ => none
  write factory
    | .factory _ => .factory factory
    | other => other
  write_view contract factory known := by
    cases contract with
    | factory => rfl
    | erc20 | nativeWrapper | pair | router => cases known

def asRouter : Cast DEXV2Router02 where
  view
    | .router router => some router
    | _ => none
  write router
    | .router _ => .router router
    | other => other
  write_view contract router known := by
    cases contract with
    | router => rfl
    | erc20 | nativeWrapper | pair | factory => cases known

variable {τ : Type} (as_ : Cast τ)

/-- The contract at an address as the class that is asked for. -/
def World.at_ (world : World) (address : Address) : Option τ := (world.contracts.find address).bind as_.view

/-- `getContract<T>`. -/
def getContract (address : Address) : Run τ := do
  let world ← get
  match world.contracts.find address with
  | none => throw ("ContractManager::getContract: contract at address " ++ Utils.hexFromBytes address.get ++ " not found.")
  | some contract =>
    match as_.view contract with
    | none => throw ("ContractManager::getContract: Contract at address " ++ Utils.hexFromBytes address.get ++
        " is not of the requested type")
    | some value => pure value

/-- What a contract writes to its own variables. -/
def World.put (world : World) (address : Address) (value : τ) : World :=
  { world with contracts := world.contracts.update address (as_.write value) }

def putContract (address : Address) (value : τ) : Run Unit := modify fun world => world.put as_ address value

/-- `callContractFunction`, for a function that only works on the contract itself. -/
def callContractFunction (target : Address) (function : τ → Except Exception τ) : Run Unit := do
  let contract ← getContract as_ target
  let contract ← Atomic.checked (function contract)
  putContract as_ target contract

def sendTokens («from» «to» : Address) (amount : Uint256) : Run Unit := do
  let world ← get
  Atomic.require (¬ world.native «from» < amount) "ContractManager::sendTokens: Not enough balance"
  let rest ← Atomic.checked (Uint256.sub (world.native «from») amount)
  let native := Function.update world.native «from» rest
  let sum ← Atomic.checked (Uint256.add (native «to») amount)
  modify fun world => { world with native := Function.update native «to» sum }

/-- `callCreateContract<DEXV2Pair>`, by a contract. -/
def callCreateContract (around : Around) (self : Address) : Run Address := do
  Atomic.require (self = around.chainOwner) "Only chainOwner can call ContractManager functions"
  let world ← get
  let address ← Atomic.checked
    (ContractFactory.setupNewContract around.sha3 around.chainOwner around.origin self world.contracts.keys)
  let pair ← Atomic.checked (DEXV2Pair.create self)
  modify fun world => { world with contracts := world.contracts.add address (.pair pair) }
  pure address

/-! Tokens -/

def balanceOf (token owner : Address) : Run Uint256 := do
  let contract ← getContract asERC20 token
  pure (contract.balanceOf owner)

def transfer (caller token «to» : Address) (value : Uint256) : Run Unit :=
  callContractFunction asERC20 token fun contract => contract.transfer caller «to» value

def transferFrom (caller token «from» «to» : Address) (value : Uint256) : Run Unit :=
  callContractFunction asERC20 token fun contract => contract.transferFrom caller «from» «to» value

def approve (caller token spender : Address) (value : Uint256) : Run Unit :=
  callContractFunction asERC20 token fun contract => .ok (contract.approve caller spender value)

end DEXV2

namespace NativeWrapper
open DEXV2

/-- The value that comes with the call has been sent before. -/
def deposit (self caller : Address) (value : Uint256) : Run Unit :=
  callContractFunction asNativeWrapper self fun token => token.mintValue_ caller value

def withdraw (self caller : Address) (value : Uint256) : Run Unit := do
  callContractFunction asNativeWrapper self fun token => token.burnValue_ caller value
  sendTokens self caller value

end NativeWrapper

namespace DEXV2Factory
open DEXV2

def getPair (factory : DEXV2Factory) (tokenA tokenB : Address) : Address :=
  match factory.getPairs.find tokenA with
  | none => 0
  | some inner => (inner.find tokenB).getD 0

/-- The entries of a new pair. -/
def register (factory : DEXV2Factory) (token0 token1 pair : Address) : DEXV2Factory :=
  { factory with
    getPairs := (factory.getPairs.modify token0 fun inner => inner.modify token1 fun _ => pair).modify token1 fun inner =>
      inner.modify token0 fun _ => pair
    allPairs := factory.allPairs ++ [pair] }

def createPair (around : Around) (self tokenA tokenB : Address) : Run Address := do
  Atomic.require (tokenA ≠ tokenB) "DEXV2Factory::createPair: IDENTICAL_ADDRESSES"
  let token0 := if tokenA < tokenB then tokenA else tokenB
  let token1 := if tokenA < tokenB then tokenB else tokenA
  Atomic.require (token0 ≠ 0) "DEXV2Factory::createPair: ZERO_ADDRESS"
  let factory ← getContract asFactory self
  Atomic.require (factory.getPair token0 token1 = 0) "DEXV2Factory::createPair: PAIR_EXISTS"
  let pair ← callCreateContract around self
  callContractFunction asPair pair fun contract => contract.initializePair self token0 token1
  callContractFunction asFactory self fun factory => .ok (factory.register token0 token1 pair)
  pure pair

/-- Whoever calls. -/
def setFeeTo (self feeTo : Address) : Run Unit :=
  callContractFunction asFactory self fun factory => .ok { factory with feeTo }

def setFeeToSetter (self feeToSetter : Address) : Run Unit :=
  callContractFunction asFactory self fun factory => .ok { factory with feeToSetter }

end DEXV2Factory

namespace DEXV2Pair
open DEXV2

def feeTo (factory : Address) : Run Address := do
  let contract ← getContract asFactory factory
  pure contract.feeTo

/-- The functions of the pair at `self`. -/
def callMint (around : Around) (self «to» : Address) : Run Uint256 := do
  let pair ← getContract asPair self
  let balance0 ← balanceOf pair.token0 self
  let balance1 ← balanceOf pair.token1 self
  let amounts ← Atomic.checked (pair.added balance0 balance1)
  let feeTo ← feeTo pair.factory
  let (liquidity, pair) ← Atomic.checked (pair.mint around.timestamp feeTo amounts balance0 balance1 «to»)
  putContract asPair self pair
  pure liquidity

def callBurn (around : Around) (self «to» : Address) : Run (Uint256 × Uint256) := do
  let pair ← getContract asPair self
  let balance0 ← balanceOf pair.token0 self
  let balance1 ← balanceOf pair.token1 self
  let feeTo ← feeTo pair.factory
  let burning ← Atomic.checked (pair.burnShares self feeTo balance0 balance1)
  putContract asPair self burning.pair
  transfer self pair.token0 «to» burning.amount0
  transfer self pair.token1 «to» burning.amount1
  let balance0 ← balanceOf pair.token0 self
  let balance1 ← balanceOf pair.token1 self
  callContractFunction asPair self fun pair => pair.settle around.timestamp burning.feeOn balance0 balance1
  pure (burning.amount0, burning.amount1)

def callSwap (around : Around) (self : Address) (amount0Out amount1Out : Uint256) («to» : Address) : Run Unit := do
  let pair ← getContract asPair self
  Atomic.checked (pair.swapGuard amount0Out amount1Out «to»)
  if 0 < amount0Out then transfer self pair.token0 «to» amount0Out else pure ()
  if 0 < amount1Out then transfer self pair.token1 «to» amount1Out else pure ()
  let balance0 ← balanceOf pair.token0 self
  let balance1 ← balanceOf pair.token1 self
  callContractFunction asPair self fun pair => pair.swapEnd around.timestamp balance0 balance1 amount0Out amount1Out

def callSkim (self «to» : Address) : Run Unit := do
  let pair ← getContract asPair self
  let balance0 ← balanceOf pair.token0 self
  let excess0 ← Atomic.checked (Uint256.sub balance0 pair.reserve0.wide)
  transfer self pair.token0 «to» excess0
  let balance1 ← balanceOf pair.token1 self
  let excess1 ← Atomic.checked (Uint256.sub balance1 pair.reserve1.wide)
  transfer self pair.token1 «to» excess1

def callSync (around : Around) (self : Address) : Run Unit := do
  let pair ← getContract asPair self
  let balance0 ← balanceOf pair.token0 self
  let balance1 ← balanceOf pair.token1 self
  callContractFunction asPair self fun pair => pair.update around.timestamp balance0 balance1

end DEXV2Pair
end OrbiterSDK
