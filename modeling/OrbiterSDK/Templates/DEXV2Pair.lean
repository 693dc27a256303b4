import OrbiterSDK.Templates.ERC20

/-! The contract of a pair of tokens: its state, and what it computes without asking
another contract. A pair is itself a token, whose balances are shares of the pool. -/

namespace OrbiterSDK

namespace UQ112x112

def encode (x : Uint112) : BitVec 224 := BitVec.ofNat 224 (x.toNat * 2 ^ 112)

def uqdiv (x : BitVec 224) (y : Uint112) : Except Exception (BitVec 224) :=
  if y = 0 then .error "Division by zero." else .ok (x / y.setWidth 224)

end UQ112x112

structure DEXV2Pair extends ERC20 where
  factory : Address
  token0 : Address := 0
  token1 : Address := 0
  reserve0 : Uint112 := 0
  reserve1 : Uint112 := 0
  blockTimestampLast : UInt32 := 0
  price0CumulativeLast : Uint256 := 0
  price1CumulativeLast : Uint256 := 0
  kLast : Uint256 := 0

namespace DEXV2Pair

def minimumLiquidity : Uint256 := 1000

/-- The constructor of a new contract. -/
def create (creator : Address) : Except Exception DEXV2Pair := do
  let token ← ERC20.create "DEX V2" "DEX-V2" 18 0 creator
  pure { token with factory := creator }

def getReserves (pair : DEXV2Pair) : Uint256 × Uint256 := (pair.reserve0.wide, pair.reserve1.wide)

def initializePair (pair : DEXV2Pair) (caller token0 token1 : Address) : Except Exception DEXV2Pair :=
  if pair.factory ≠ caller then .error "DEXV2Pair: FORBIDDEN" else .ok { pair with token0, token1 }

/-- The functions of the base class that change it, on its part of the state. -/
def mintValue_ (pair : DEXV2Pair) (address : Address) (value : Uint256) : Except Exception DEXV2Pair := do
  let token ← pair.toERC20.mintValue_ address value
  pure { pair with toERC20 := token }

def burnValue_ (pair : DEXV2Pair) (address : Address) (value : Uint256) : Except Exception DEXV2Pair := do
  let token ← pair.toERC20.burnValue_ address value
  pure { pair with toERC20 := token }

/-- How a cumulative price grows. -/
def accumulate (cumulative : Uint256) (numerator denominator : Uint112) (timeElapsed : UInt32) : Except Exception Uint256 := do
  let price ← UQ112x112.uqdiv (UQ112x112.encode numerator) denominator
  let grown ← Uint256.mul (price.setWidth 256) (BitVec.ofNat 256 timeElapsed.toNat)
  SafeUint.addAssign cumulative grown

/-- `_update`, called with the reserves that the pair has. The timestamp is in microseconds. -/
def update (pair : DEXV2Pair) (timestamp : UInt64) (balance0 balance1 : Uint256) : Except Exception DEXV2Pair := do
  let blockTimestamp := (timestamp / 1000000).toUInt32
  let timeElapsed := blockTimestamp - pair.blockTimestampLast
  let priced ← if 0 < timeElapsed ∧ pair.reserve0 ≠ 0 ∧ pair.reserve1 ≠ 0 then do
      let price0 ← accumulate pair.price0CumulativeLast pair.reserve1 pair.reserve0 timeElapsed
      let price1 ← accumulate pair.price1CumulativeLast pair.reserve0 pair.reserve1 timeElapsed
      pure { pair with price0CumulativeLast := price0, price1CumulativeLast := price1 }
    else pure pair
  let reserve0 ← Uint112.ofUint256 balance0
  let reserve1 ← Uint112.ofUint256 balance1
  pure { priced with reserve0, reserve1, blockTimestampLast := blockTimestamp }

/-- `_mintFee`, for the account that gets the fees: whether there is one, and the pair. -/
def mintFee (pair : DEXV2Pair) (feeTo : Address) : Except Exception (Bool × DEXV2Pair) :=
  if feeTo ≠ 0 then
    if pair.kLast ≠ 0 then do
      let product ← Uint256.mul pair.reserve0.wide pair.reserve1.wide
      let rootK := Uint256.sqrt product
      let rootKLast := Uint256.sqrt pair.kLast
      if rootKLast < rootK then do
        let growth ← Uint256.sub rootK rootKLast
        let numerator ← Uint256.mul pair.totalSupply growth
        let fivefold ← Uint256.mul rootK 5
        let denominator ← Uint256.add fivefold rootKLast
        let liquidity ← Uint256.div numerator denominator
        if 0 < liquidity then do
          let pair ← pair.mintValue_ feeTo liquidity
          pure (true, pair)
        else pure (true, pair)
      else pure (true, pair)
    else pure (true, pair)
  else .ok (false, if pair.kLast ≠ 0 then { pair with kLast := 0 } else pair)

/-- The liquidity of a mint into a pool that has some. -/
def proportion (amount totalSupply : Uint256) (reserve : Uint112) : Except Exception Uint256 := do
  let product ← Uint256.mul amount totalSupply
  Uint256.div product reserve.wide

/-- What a swap takes to have come in: the balance is compared with what is left of the reserve. -/
def amountIn (balance : Uint256) (reserve : Uint112) (amountOut : Uint256) : Except Exception Uint256 := do
  let out ← Uint112.ofUint256 amountOut
  let left ← Uint112.sub reserve out
  if left.wide < balance then do
    let rest ← Uint256.sub balance reserve.wide
    Uint256.add rest out.wide
  else pure 0

/-- The balance without the fee, in thousandths. -/
def adjusted (balance amountIn : Uint256) : Except Exception Uint256 := do
  let thousandfold ← Uint256.mul balance 1000
  let fee ← Uint256.mul amountIn 3
  Uint256.sub thousandfold fee

/-- The end of a mint or a burn: the reserves, and their product if there are fees. -/
def settle (pair : DEXV2Pair) (timestamp : UInt64) (feeOn : Bool) (balance0 balance1 : Uint256) : Except Exception DEXV2Pair := do
  let pair ← pair.update timestamp balance0 balance1
  if feeOn then do
    let kLast ← Uint256.mul pair.reserve0.wide pair.reserve1.wide
    pure { pair with kLast }
  else pure pair

/-- The liquidity that amounts are worth. The first ones lock a minimum for ever. -/
def liquidityFor (pair : DEXV2Pair) (amount0 amount1 : Uint256) : Except Exception (Uint256 × DEXV2Pair) :=
  if pair.totalSupply = 0 then do
    let product ← Uint256.mul amount0 amount1
    let liquidity ← Uint256.sub (Uint256.sqrt product) minimumLiquidity
    let pair ← pair.mintValue_ 0 minimumLiquidity
    pure (liquidity, pair)
  else do
    let share0 ← proportion amount0 pair.totalSupply pair.reserve0
    let share1 ← proportion amount1 pair.totalSupply pair.reserve1
    pure (if share1 < share0 then share1 else share0, pair)

/-- What came in since the reserves were noted. -/
def added (pair : DEXV2Pair) (balance0 balance1 : Uint256) : Except Exception (Uint256 × Uint256) := do
  let amount0 ← Uint256.sub balance0 pair.reserve0.wide
  let amount1 ← Uint256.sub balance1 pair.reserve1.wide
  pure (amount0, amount1)

/-- A mint for what came in, with the balances of the pair and the account for the fees. -/
def mint (pair : DEXV2Pair) (timestamp : UInt64) (feeTo : Address) (amounts : Uint256 × Uint256) (balance0 balance1 : Uint256)
    («to» : Address) : Except Exception (Uint256 × DEXV2Pair) := do
  let (feeOn, pair) ← pair.mintFee feeTo
  let (liquidity, pair) ← pair.liquidityFor amounts.1 amounts.2
  if liquidity = 0 then .error "DEXV2Pair: INSUFFICIENT_LIQUIDITY_MINTED"
  else do
    let pair ← pair.mintValue_ «to» liquidity
    let pair ← pair.settle timestamp feeOn balance0 balance1
    pure (liquidity, pair)

/-- What a burn does before it pays: whether there are fees, the amounts and the pair. -/
structure Burning where
  feeOn : Bool
  amount0 : Uint256
  amount1 : Uint256
  pair : DEXV2Pair

def burnShares (pair : DEXV2Pair) (self feeTo : Address) (balance0 balance1 : Uint256) : Except Exception Burning := do
  let liquidity := pair.balanceOf self
  let (feeOn, pair) ← pair.mintFee feeTo
  let product0 ← Uint256.mul liquidity balance0
  let amount0 ← Uint256.div product0 pair.totalSupply
  let product1 ← Uint256.mul liquidity balance1
  let amount1 ← Uint256.div product1 pair.totalSupply
  if amount0 = 0 ∨ amount1 = 0 then .error "DEXV2Pair: INSUFFICIENT_LIQUIDITY_BURNED"
  else do
    let pair ← pair.burnValue_ self liquidity
    pure { feeOn, amount0, amount1, pair }

/-- What a swap checks before it pays. -/
def swapGuard (pair : DEXV2Pair) (amount0Out amount1Out : Uint256) («to» : Address) : Except Exception Unit :=
  if amount0Out = 0 ∧ amount1Out = 0 then .error "DEXV2Pair: INSUFFICIENT_OUTPUT_AMOUNT"
  else do
    let out0 ← Uint112.ofUint256 amount0Out
    -- the second amount is converted only if the first one is too much
    let short ← if pair.reserve0 ≤ out0 then do
        let out1 ← Uint112.ofUint256 amount1Out
        pure (decide (pair.reserve1 ≤ out1))
      else pure false
    if short then .error "DEXV2Pair: INSUFFICIENT_LIQUIDITY"
    else if pair.token0 = «to» ∨ pair.token1 = «to» then .error "DEXV2Pair: INVALID_TO"
    else .ok ()

/-- The amounts that came in for a swap, from the balances after it paid. -/
def amountsIn (pair : DEXV2Pair) (balance0 balance1 amount0Out amount1Out : Uint256) : Except Exception (Uint256 × Uint256) := do
  let amount0In ← amountIn balance0 pair.reserve0 amount0Out
  let amount1In ← amountIn balance1 pair.reserve1 amount1Out
  pure (amount0In, amount1In)

/-- The end of a swap. -/
def swapEnd (pair : DEXV2Pair) (timestamp : UInt64) (balance0 balance1 amount0Out amount1Out : Uint256) : Except Exception DEXV2Pair := do
  let (amount0In, amount1In) ← pair.amountsIn balance0 balance1 amount0Out amount1Out
  if amount0In = 0 ∧ amount1In = 0 then .error "DEXV2Pair: INSUFFICIENT_INPUT_AMOUNT"
  else do
    let balance0Adjusted ← adjusted balance0 amount0In
    let balance1Adjusted ← adjusted balance1 amount1In
    let after ← Uint256.mul balance0Adjusted balance1Adjusted
    let before ← Uint256.mul pair.reserve0.wide pair.reserve1.wide
    let thousandfold ← Uint256.mul before 1000
    let millionfold ← Uint256.mul thousandfold 1000
    if after < millionfold then .error "DEXV2Pair: K"
    else pair.update timestamp balance0 balance1

end DEXV2Pair
end OrbiterSDK
