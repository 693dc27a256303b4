import OrbiterSDK.Templates.DEXV2World

/-! The quotes of the library and the functions of the router, with the address, the caller
and the value that a call comes with. -/

namespace OrbiterSDK
open Lib DEXV2

namespace DEXV2Library

def sortTokens (tokenA tokenB : Address) : Except Exception (Address × Address) :=
  if tokenA = tokenB then .error "DEXV2Library: IDENTICAL_ADDRESSES"
  else
    let ret := if tokenA < tokenB then (tokenA, tokenB) else (tokenB, tokenA)
    if ret.1 = 0 then .error "DEXV2Library: ZERO_ADDRESS" else .ok ret

def pairFor (factory tokenA tokenB : Address) : Run Address := do
  let contract ← getContract asFactory factory
  pure (contract.getPair tokenA tokenB)

/-- As the pair stores them. -/
def getReserves (factory tokenA tokenB : Address) : Run (Uint256 × Uint256) := do
  let pair ← pairFor factory tokenA tokenB
  let contract ← getContract asPair pair
  pure contract.getReserves

def quote (amountA reserveA reserveB : Uint256) : Except Exception Uint256 :=
  if amountA = 0 then .error "DEXV2Library: INSUFFICIENT_AMOUNT"
  else if reserveA = 0 ∨ reserveB = 0 then .error "DEXV2Library: INSUFFICIENT_LIQUIDITY"
  else do
    let product ← Uint256.mul amountA reserveB
    Uint256.div product reserveA

def getAmountOut (amountIn reserveIn reserveOut : Uint256) : Except Exception Uint256 :=
  if amountIn = 0 then .error "DEXV2Library: INSUFFICIENT_INPUT_AMOUNT"
  else if reserveIn = 0 ∨ reserveOut = 0 then .error "DEXV2Library: INSUFFICIENT_LIQUIDITY"
  else do
    let amountInWithFee ← Uint256.mul amountIn 997
    let numerator ← Uint256.mul amountInWithFee reserveOut
    let thousandfold ← Uint256.mul reserveIn 1000
    let denominator ← Uint256.add thousandfold amountInWithFee
    Uint256.div numerator denominator

def getAmountIn (amountOut reserveIn reserveOut : Uint256) : Except Exception Uint256 :=
  if amountOut = 0 then .error "DEXV2Library: INSUFFICIENT_OUTPUT_AMOUNT"
  else if reserveIn = 0 ∨ reserveOut = 0 then .error "DEXV2Library: INSUFFICIENT_LIQUIDITY"
  else do
    let product ← Uint256.mul reserveIn amountOut
    let numerator ← Uint256.mul product 1000
    let rest ← Uint256.sub reserveOut amountOut
    let denominator ← Uint256.mul rest 997
    let quotient ← Uint256.div numerator denominator
    Uint256.add quotient 1

/-- The amounts behind the first one, hop by hop. -/
def amountsOutFrom (factory : Address) (amountIn : Uint256) : List Address → Run (List Uint256)
  | input :: output :: rest => do
    let reserves ← getReserves factory input output
    let amountOut ← Atomic.checked (getAmountOut amountIn reserves.1 reserves.2)
    let amounts ← amountsOutFrom factory amountOut (output :: rest)
    pure (amountOut :: amounts)
  | _ => pure []

def getAmountsOut (factory : Address) (amountIn : Uint256) (path : List Address) : Run (List Uint256) := do
  Atomic.require (2 ≤ path.length) "DEXV2Library: INVALID_PATH"
  let amounts ← amountsOutFrom factory amountIn path
  pure (amountIn :: amounts)

/-- All amounts, from the last hop to the first. -/
def amountsInTo (factory : Address) (amountOut : Uint256) : List Address → Run (Uint256 × List Uint256)
  | input :: output :: rest => do
    let (amount, amounts) ← amountsInTo factory amountOut (output :: rest)
    let reserves ← getReserves factory input output
    let amountIn ← Atomic.checked (getAmountIn amount reserves.1 reserves.2)
    pure (amountIn, amount :: amounts)
  | _ => pure (amountOut, [])

def getAmountsIn (factory : Address) (amountOut : Uint256) (path : List Address) : Run (List Uint256) := do
  Atomic.require (2 ≤ path.length) "DEXV2Library: INVALID_PATH"
  let (amountIn, amounts) ← amountsInTo factory amountOut path
  pure (amountIn :: amounts)

end DEXV2Library

namespace DEXV2Router02
open DEXV2Library

/-- A call of a router: where it is, its variables, who calls and with which value. -/
structure Entry where
  around : Around
  self : Address
  router : DEXV2Router02
  caller : Address
  value : Uint256

variable (entry : Entry)

def getPair (tokenA tokenB : Address) : Run Address := pairFor entry.router.factory tokenA tokenB

def ensure (deadline : Uint256) : Run Unit :=
  Atomic.require (¬ deadline.toNat < entry.around.timestamp.toNat) "DEXV2Router02::ensure: EXPIRED"

/-- The amounts for reserves that are there. -/
def optimalAmounts (reserveA reserveB amountADesired amountBDesired amountAMin amountBMin : Uint256) :
    Except Exception (Uint256 × Uint256) :=
  if reserveA = 0 ∧ reserveB = 0 then .ok (amountADesired, amountBDesired)
  else do
    let amountBoptimal ← quote amountADesired reserveA reserveB
    if amountBoptimal ≤ amountBDesired then
      if amountBoptimal < amountBMin then .error "DEXV2Router02::_addLiquidity: INSUFFICIENT_B_AMOUNT"
      else .ok (amountADesired, amountBoptimal)
    else do
      let amountAoptimal ← quote amountBDesired reserveB reserveA
      if amountAoptimal ≤ amountADesired then
        if amountAoptimal < amountAMin then .error "DEXV2Router02::_addLiquidity: INSUFFICIENT_A_AMOUNT"
        else .ok (amountAoptimal, amountBDesired)
      else .error "DEXV2Router02::_addLiquidity: INSUFFICIENT_A_AMOUNT"

/-- `_addLiquidity`: the amounts, for a pair that is created if there is none. -/
def addLiquidityAmounts (tokenA tokenB : Address) (amountADesired amountBDesired amountAMin amountBMin : Uint256) :
    Run (Uint256 × Uint256) := do
  let known ← getPair entry tokenA tokenB
  let pairAddress ← if known = 0 then DEXV2Factory.createPair entry.around entry.router.factory tokenA tokenB else pure known
  let pair ← getContract asPair pairAddress
  Atomic.checked (optimalAmounts pair.getReserves.1 pair.getReserves.2 amountADesired amountBDesired amountAMin amountBMin)

/-- `_swap`: each amount goes to the next pair, the last one to the receiver. -/
def swap (receiver : Address) : List Uint256 → List Address → Run Unit
  | amountOut :: amounts, input :: output :: rest => do
    let pairAddress ← getPair entry input output
    Atomic.require (pairAddress ≠ 0) "DEXV2Router02::_swap: PAIR_NOT_FOUND"
    let sorted ← Atomic.checked (sortTokens input output)
    let amount0Out := if input = sorted.1 then 0 else amountOut
    let amount1Out := if input = sorted.1 then amountOut else 0
    let target ← match rest with
      | [] => pure receiver
      | next :: _ => getPair entry output next
    DEXV2Pair.callSwap entry.around pairAddress amount0Out amount1Out target
    swap receiver amounts (output :: rest)
  | _, _ => pure ()

def addLiquidity (tokenA tokenB : Address) (amountADesired amountBDesired amountAMin amountBMin : Uint256) («to» : Address)
    (deadline : Uint256) : Run (Uint256 × Uint256 × Uint256) := do
  ensure entry deadline
  let (amountA, amountB) ← addLiquidityAmounts entry tokenA tokenB amountADesired amountBDesired amountAMin amountBMin
  let pair ← getPair entry tokenA tokenB
  transferFrom entry.self tokenA entry.caller pair amountA
  transferFrom entry.self tokenB entry.caller pair amountB
  let liquidity ← DEXV2Pair.callMint entry.around pair «to»
  pure (amountA, amountB, liquidity)

/-- `callContractFunction(value, wrapper, &NativeWrapper::deposit)`. -/
def depositNative (amount : Uint256) : Run Unit := do
  if amount ≠ 0 then sendTokens entry.self entry.router.wrappedNative amount else pure ()
  NativeWrapper.deposit entry.router.wrappedNative entry.self amount

/-- The minimum of native coins is also what is asked for. -/
def addLiquidityNative (token : Address) (amountTokenDesired amountTokenMin amountNativeMin : Uint256) («to» : Address)
    (deadline : Uint256) : Run (Uint256 × Uint256 × Uint256) := do
  ensure entry deadline
  let (amountToken, amountNative) ← addLiquidityAmounts entry token entry.router.wrappedNative amountTokenDesired amountNativeMin
    amountTokenMin amountNativeMin
  let pair ← getPair entry token entry.router.wrappedNative
  transferFrom entry.self token entry.caller pair amountToken
  depositNative entry amountNative
  transfer entry.self entry.router.wrappedNative pair amountNative
  let liquidity ← DEXV2Pair.callMint entry.around pair «to»
  if amountNative < entry.value then do
    let dust ← Atomic.checked (Uint256.sub entry.value amountNative)
    sendTokens entry.self entry.caller dust
  else pure ()
  pure (amountToken, amountNative, liquidity)

def removeLiquidity (tokenA tokenB : Address) (liquidity amountAMin amountBMin : Uint256) («to» : Address) (deadline : Uint256) :
    Run (Uint256 × Uint256) := do
  ensure entry deadline
  let pair ← getPair entry tokenA tokenB
  transferFrom entry.self pair entry.caller pair liquidity
  let (amount0, amount1) ← DEXV2Pair.callBurn entry.around pair «to»
  let sorted ← Atomic.checked (sortTokens tokenA tokenB)
  let amountA := if tokenA = sorted.1 then amount0 else amount1
  let amountB := if tokenA = sorted.1 then amount1 else amount0
  Atomic.require (¬ amountA < amountAMin) "DEXV2Router02::removeLiquidity: INSUFFICIENT_A_AMOUNT"
  Atomic.require (¬ amountB < amountBMin) "DEXV2Router02::removeLiquidity: INSUFFICIENT_B_AMOUNT"
  pure (amountA, amountB)

/-- The native coins go to the caller, the token to the receiver. -/
def removeLiquidityNative (token : Address) (liquidity amountTokenMin amountNativeMin : Uint256) («to» : Address) (deadline : Uint256) :
    Run (Uint256 × Uint256) := do
  ensure entry deadline
  let (amountToken, amountNative) ← removeLiquidity entry token entry.router.wrappedNative liquidity amountTokenMin amountNativeMin
    entry.self deadline
  transfer entry.self token «to» amountToken
  NativeWrapper.withdraw entry.router.wrappedNative entry.self amountNative
  sendTokens entry.self entry.caller amountNative
  pure (amountToken, amountNative)

/-- The amounts that the functions with an exact input and with an exact output work with. -/
def quoteOut (amountIn amountOutMin : Uint256) (path : List Address) (what : Exception) : Run (List Uint256) := do
  let amounts ← getAmountsOut entry.router.factory amountIn path
  Atomic.require (¬ amounts.getLastD 0 < amountOutMin) what
  pure amounts

def quoteIn (amountOut amountInMax : Uint256) (path : List Address) (what : Exception) : Run (List Uint256) := do
  let amounts ← getAmountsIn entry.router.factory amountOut path
  Atomic.require (¬ amountInMax < amounts.headD 0) what
  pure amounts

/-- The first pair of a path. -/
def firstPair (path : List Address) : Run Address := getPair entry (path.getD 0 0) (path.getD 1 0)

/-- The caller pays with tokens. -/
def payTokens (amounts : List Uint256) (path : List Address) : Run Unit := do
  let pair ← firstPair entry path
  transferFrom entry.self (path.headD 0) entry.caller pair (amounts.headD 0)

/-- The router pays with wrapped coins. -/
def payNative (amounts : List Uint256) (path : List Address) : Run Unit := do
  depositNative entry (amounts.headD 0)
  let pair ← firstPair entry path
  transfer entry.self entry.router.wrappedNative pair (amounts.headD 0)

/-- The router unwraps what it got and sends it on. -/
def unwrapTo (receiver : Address) (amount : Uint256) : Run Unit := do
  NativeWrapper.withdraw entry.router.wrappedNative entry.self amount
  sendTokens entry.self receiver amount

def swapExactTokensForTokens (amountIn amountOutMin : Uint256) (path : List Address) («to» : Address) (deadline : Uint256) :
    Run (List Uint256) := do
  ensure entry deadline
  let amounts ← quoteOut entry amountIn amountOutMin path "DEXV2Router02::swapExactTokensForTokens: INSUFFICIENT_OUTPUT_AMOUNT"
  payTokens entry amounts path
  swap entry «to» amounts.tail path
  pure amounts

def swapTokensForExactTokens (amountOut amountInMax : Uint256) (path : List Address) («to» : Address) (deadline : Uint256) :
    Run (List Uint256) := do
  ensure entry deadline
  let amounts ← quoteIn entry amountOut amountInMax path "DEXV2Router02::swapTokensForExactTokens: EXCESSIVE_INPUT_AMOUNT"
  payTokens entry amounts path
  swap entry «to» amounts.tail path
  pure amounts

/-- The whole value is the input. -/
def swapExactNativeForTokens (amountOutMin : Uint256) (path : List Address) («to» : Address) (deadline : Uint256) :
    Run (List Uint256) := do
  ensure entry deadline
  Atomic.require (path.head? = some entry.router.wrappedNative) "DEXV2Router02::swapExactNativeForTokens: INVALID_PATH"
  let amounts ← quoteOut entry entry.value amountOutMin path "DEXV2Router02::swapExactNativeForTokens: INSUFFICIENT_OUTPUT_AMOUNT"
  payNative entry amounts path
  swap entry «to» amounts.tail path
  pure amounts

def swapTokensForExactNative (amountOut amountInMax : Uint256) (path : List Address) («to» : Address) (deadline : Uint256) :
    Run (List Uint256) := do
  ensure entry deadline
  Atomic.require (path.getLast? = some entry.router.wrappedNative) "DEXV2Router02::swapTokensForExactNative: INVALID_PATH"
  let amounts ← quoteIn entry amountOut amountInMax path "DEXV2Router02::swapTokensForExactNative: EXCESSIVE_INPUT_AMOUNT"
  payTokens entry amounts path
  swap entry entry.self amounts.tail path
  unwrapTo entry «to» amountOut
  pure amounts

def swapExactTokensForNative (amountIn amountOutMin : Uint256) (path : List Address) («to» : Address) (deadline : Uint256) :
    Run (List Uint256) := do
  ensure entry deadline
  Atomic.require (path.getLast? = some entry.router.wrappedNative) "DEXV2Router02::swapExactTokensForNative: INVALID_PATH"
  let amounts ← quoteOut entry amountIn amountOutMin path "DEXV2Router02::swapExactTokensForNative: INSUFFICIENT_OUTPUT_AMOUNT"
  payTokens entry amounts path
  swap entry entry.self amounts.tail path
  unwrapTo entry «to» (amounts.getLastD 0)
  pure amounts

/-- What the value exceeds the input by stays with the router. -/
def swapNativeForExactTokens (amountOut amountInMax : Uint256) (path : List Address) («to» : Address) (deadline : Uint256) :
    Run (List Uint256) := do
  ensure entry deadline
  Atomic.require (path.head? = some entry.router.wrappedNative) "DEXV2Router02::swapNativeForExactTokens: INVALID_PATH"
  let amounts ← quoteIn entry amountOut amountInMax path "DEXV2Router02::swapNativeForExactTokens: EXCESSIVE_INPUT_AMOUNT"
  payNative entry amounts path
  swap entry «to» amounts.tail path
  pure amounts

/-- The functions of a router that change something. -/
inductive Call where
  | addLiquidity (tokenA tokenB : Address) (amountADesired amountBDesired amountAMin amountBMin : Uint256) («to» : Address)
    (deadline : Uint256)
  | addLiquidityNative (token : Address) (amountTokenDesired amountTokenMin amountNativeMin : Uint256) («to» : Address)
    (deadline : Uint256)
  | removeLiquidity (tokenA tokenB : Address) (liquidity amountAMin amountBMin : Uint256) («to» : Address) (deadline : Uint256)
  | removeLiquidityNative (token : Address) (liquidity amountTokenMin amountNativeMin : Uint256) («to» : Address) (deadline : Uint256)
  | swapExactTokensForTokens (amountIn amountOutMin : Uint256) (path : List Address) («to» : Address) (deadline : Uint256)
  | swapTokensForExactTokens (amountOut amountInMax : Uint256) (path : List Address) («to» : Address) (deadline : Uint256)
  | swapExactNativeForTokens (amountOutMin : Uint256) (path : List Address) («to» : Address) (deadline : Uint256)
  | swapTokensForExactNative (amountOut amountInMax : Uint256) (path : List Address) («to» : Address) (deadline : Uint256)
  | swapExactTokensForNative (amountIn amountOutMin : Uint256) (path : List Address) («to» : Address) (deadline : Uint256)
  | swapNativeForExactTokens (amountOut amountInMax : Uint256) (path : List Address) («to» : Address) (deadline : Uint256)

/-- The amounts that a function reports, in its order. -/
def perform : Call → Run (List Uint256)
  | .addLiquidity tokenA tokenB amountADesired amountBDesired amountAMin amountBMin «to» deadline => do
    let (amountA, amountB, liquidity) ←
      addLiquidity entry tokenA tokenB amountADesired amountBDesired amountAMin amountBMin «to» deadline
    pure [amountA, amountB, liquidity]
  | .addLiquidityNative token amountTokenDesired amountTokenMin amountNativeMin «to» deadline => do
    let (amountToken, amountNative, liquidity) ←
      addLiquidityNative entry token amountTokenDesired amountTokenMin amountNativeMin «to» deadline
    pure [amountToken, amountNative, liquidity]
  | .removeLiquidity tokenA tokenB liquidity amountAMin amountBMin «to» deadline => do
    let (amountA, amountB) ← removeLiquidity entry tokenA tokenB liquidity amountAMin amountBMin «to» deadline
    pure [amountA, amountB]
  | .removeLiquidityNative token liquidity amountTokenMin amountNativeMin «to» deadline => do
    let (amountToken, amountNative) ← removeLiquidityNative entry token liquidity amountTokenMin amountNativeMin «to» deadline
    pure [amountToken, amountNative]
  | .swapExactTokensForTokens amountIn amountOutMin path «to» deadline =>
    swapExactTokensForTokens entry amountIn amountOutMin path «to» deadline
  | .swapTokensForExactTokens amountOut amountInMax path «to» deadline =>
    swapTokensForExactTokens entry amountOut amountInMax path «to» deadline
  | .swapExactNativeForTokens amountOutMin path «to» deadline => swapExactNativeForTokens entry amountOutMin path «to» deadline
  | .swapTokensForExactNative amountOut amountInMax path «to» deadline =>
    swapTokensForExactNative entry amountOut amountInMax path «to» deadline
  | .swapExactTokensForNative amountIn amountOutMin path «to» deadline =>
    swapExactTokensForNative entry amountIn amountOutMin path «to» deadline
  | .swapNativeForExactTokens amountOut amountInMax path «to» deadline =>
    swapNativeForExactTokens entry amountOut amountInMax path «to» deadline

end DEXV2Router02
end OrbiterSDK
