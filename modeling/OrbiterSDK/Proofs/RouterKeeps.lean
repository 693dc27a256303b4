import OrbiterSDK.Proofs.DexCalls

/-! What a router's functions keep, whatever it is that each of the calls keeps that they are
made of. -/

namespace OrbiterSDK.Proofs.RouterKeeps
open Lib Atomic DEXV2 DexCalls DEXV2Router02 DEXV2Library

/-- The calls that a router makes. -/
structure Steps (kept : World → Prop) (entry : Entry) : Prop where
  transferFrom : ∀ token source target amount, Keeps kept (transferFrom entry.self token source target amount)
  transfer : ∀ token target amount, Keeps kept (transfer entry.self token target amount)
  deposit : ∀ wrapper amount, Keeps kept (NativeWrapper.deposit wrapper entry.self amount)
  withdraw : ∀ wrapper amount, Keeps kept (NativeWrapper.withdraw wrapper entry.self amount)
  sendTokens : ∀ target amount, Keeps kept (sendTokens entry.self target amount)
  createPair : ∀ tokenA tokenB, Keeps kept (DEXV2Factory.createPair entry.around entry.router.factory tokenA tokenB)
  callMint : ∀ pair «to», Keeps kept (DEXV2Pair.callMint entry.around pair «to»)
  callBurn : ∀ pair «to», Keeps kept (DEXV2Pair.callBurn entry.around pair «to»)
  callSwap : ∀ pair amount0Out amount1Out «to», Keeps kept (DEXV2Pair.callSwap entry.around pair amount0Out amount1Out «to»)

variable {kept : World → Prop} {entry : Entry} {tokenA tokenB «to» : Address} {amountIn amountOut limit : Uint256} {path : List Address}
  {amounts : List Uint256}

theorem getPair_keeps (kept : World → Prop) : Keeps kept (getPair entry tokenA tokenB) :=
  getContract_keeps.bind fun _ => .pure _

theorem amountsOutFrom_keeps {factory : Address} (path : List Address) (amountIn : Uint256) :
    Keeps kept (amountsOutFrom factory amountIn path) := by
  induction path generalizing amountIn with
  | nil => exact .pure _
  | cons input rest ih =>
    cases rest with
    | nil => exact .pure _
    | cons output rest => exact getReserves_keeps.bind fun _ => (Keeps.checked _).bind fun amount => (ih amount).bind fun _ => .pure _

private theorem quoteOut_keeps {what : Exception} : Keeps kept (quoteOut entry amountIn limit path what) := by
  apply Keeps.bind
  · exact (Keeps.require _ _).bind fun _ => (amountsOutFrom_keeps path amountIn).bind fun _ => .pure _
  · exact fun _ => (Keeps.require _ _).bind fun _ => .pure _

theorem quoteIn_keeps {what : Exception} : Keeps kept (quoteIn entry amountOut limit path what) := by
  apply Keeps.bind
  · exact (Keeps.require _ _).bind fun _ => (amountsInTo_keeps path).bind fun _ => .pure _
  · exact fun _ => (Keeps.require _ _).bind fun _ => .pure _

variable (steps : Steps kept entry)
include steps

theorem swap_keeps {receiver : Address} (path : List Address) (amounts : List Uint256) :
    Keeps kept (swap entry receiver amounts path) := by
  induction path generalizing amounts with
  | nil =>
    cases amounts with
    | nil | cons => exact .pure _
  | cons input rest ih =>
    cases amounts with
    | nil => exact .pure _
    | cons amountOut amounts =>
      cases rest with
      | nil => exact .pure _
      | cons output rest =>
        apply (getPair_keeps kept).bind
        intro pairAddress
        apply Keeps.after_require
        apply Keeps.after_checked
        intro sorted
        cases rest with
        | nil => exact (Keeps.pure _).bind fun _ => (steps.callSwap _ _ _ _).bind fun _ => ih amounts
        | cons next rest => exact (getPair_keeps kept).bind fun _ => (steps.callSwap _ _ _ _).bind fun _ => ih amounts

theorem addLiquidityAmounts_keeps {amountADesired amountBDesired amountAMin amountBMin : Uint256} :
    Keeps kept (addLiquidityAmounts entry tokenA tokenB amountADesired amountBDesired amountAMin amountBMin) := by
  apply (getPair_keeps kept).bind
  intro known
  apply Keeps.ite
  · exact (steps.createPair _ _).bind fun _ => getContract_keeps.bind fun _ => .checked _
  · exact (Keeps.pure _).bind fun _ => getContract_keeps.bind fun _ => .checked _

theorem depositNative_keeps : Keeps kept (depositNative entry amountIn) := by
  apply Keeps.ite
  · exact (steps.sendTokens _ _).bind fun _ => (steps.deposit _ _)
  · exact (steps.deposit _ _)

private theorem payTokens_keeps : Keeps kept (payTokens entry amounts path) := (getPair_keeps kept).bind fun _ => (steps.transferFrom _ _ _ _)

private theorem payNative_keeps : Keeps kept (payNative entry amounts path) :=
  (depositNative_keeps steps).bind fun _ => (getPair_keeps kept).bind fun _ => (steps.transfer _ _ _)

private theorem unwrapTo_keeps {receiver : Address} : Keeps kept (unwrapTo entry receiver amountIn) :=
  (steps.withdraw _ _).bind fun _ => (steps.sendTokens _ _)

theorem removeLiquidity_keeps {liquidity amountAMin amountBMin deadline : Uint256} :
    Keeps kept (removeLiquidity entry tokenA tokenB liquidity amountAMin amountBMin «to» deadline) := by
  apply Keeps.after_require
  apply (getPair_keeps kept).bind
  intro pair
  apply (steps.transferFrom _ _ _ _).bind
  intro _
  apply (steps.callBurn _ _).bind
  intro (amount0, amount1)
  apply Keeps.after_checked
  intro sorted
  exact (Keeps.require _ _).bind fun _ => (Keeps.require _ _).bind fun _ => .pure _

theorem perform_keeps (call : DEXV2Router02.Call) : Keeps kept (perform entry call) := by
  cases call with
  | addLiquidity tokenA tokenB amountADesired amountBDesired amountAMin amountBMin «to» deadline =>
    apply Keeps.bind
    · apply Keeps.after_require
      apply (addLiquidityAmounts_keeps steps).bind
      intro (amountA, amountB)
      exact (getPair_keeps kept).bind fun _ => (steps.transferFrom _ _ _ _).bind fun _ => (steps.transferFrom _ _ _ _).bind fun _ => (steps.callMint _ _).bind fun _ => .pure _
    · exact fun _ => .pure _
  | addLiquidityNative token amountTokenDesired amountTokenMin amountNativeMin «to» deadline =>
    apply Keeps.bind
    · apply Keeps.after_require
      apply (addLiquidityAmounts_keeps steps).bind
      intro (amountToken, amountNative)
      apply (getPair_keeps kept).bind
      intro pair
      apply (steps.transferFrom _ _ _ _).bind
      intro _
      apply (depositNative_keeps steps).bind
      intro _
      apply (steps.transfer _ _ _).bind
      intro _
      apply (steps.callMint _ _).bind
      intro liquidity
      apply Keeps.ite
      · exact (Keeps.checked _).bind fun _ => (steps.sendTokens _ _).bind fun _ => .pure _
      · exact .pure _
    · exact fun _ => .pure _
  | removeLiquidity => exact (removeLiquidity_keeps steps).bind fun _ => .pure _
  | removeLiquidityNative token liquidity amountTokenMin amountNativeMin «to» deadline =>
    apply Keeps.bind
    · apply Keeps.after_require
      apply (removeLiquidity_keeps steps).bind
      intro (amountToken, amountNative)
      exact (steps.transfer _ _ _).bind fun _ => (steps.withdraw _ _).bind fun _ => (steps.sendTokens _ _).bind fun _ => .pure _
    · exact fun _ => .pure _
  | swapExactTokensForTokens =>
    apply Keeps.after_require
    exact quoteOut_keeps.bind fun _ => (payTokens_keeps steps).bind fun _ => (swap_keeps steps _ _).bind fun _ => .pure _
  | swapTokensForExactTokens =>
    apply Keeps.after_require
    exact quoteIn_keeps.bind fun _ => (payTokens_keeps steps).bind fun _ => (swap_keeps steps _ _).bind fun _ => .pure _
  | swapExactNativeForTokens =>
    apply Keeps.after_require
    apply Keeps.after_require
    exact quoteOut_keeps.bind fun _ => (payNative_keeps steps).bind fun _ => (swap_keeps steps _ _).bind fun _ => .pure _
  | swapTokensForExactNative =>
    apply Keeps.after_require
    apply Keeps.after_require
    exact quoteIn_keeps.bind fun _ => (payTokens_keeps steps).bind fun _ => (swap_keeps steps _ _).bind fun _ => (unwrapTo_keeps steps).bind fun _ => .pure _
  | swapExactTokensForNative =>
    apply Keeps.after_require
    apply Keeps.after_require
    exact quoteOut_keeps.bind fun _ => (payTokens_keeps steps).bind fun _ => (swap_keeps steps _ _).bind fun _ => (unwrapTo_keeps steps).bind fun _ => .pure _
  | swapNativeForExactTokens =>
    apply Keeps.after_require
    apply Keeps.after_require
    exact quoteIn_keeps.bind fun _ => (payNative_keeps steps).bind fun _ => (swap_keeps steps _ _).bind fun _ => .pure _

end OrbiterSDK.Proofs.RouterKeeps
