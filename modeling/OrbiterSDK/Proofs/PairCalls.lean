import OrbiterSDK.Proofs.DexCalls
import OrbiterSDK.Proofs.PairSteps

/-! How the functions of a pair go through, step by step: what they read from the pair, its
tokens and its factory, what they compute of it, and what they write. -/

namespace OrbiterSDK.Proofs.PairCalls
open Lib Atomic DEXV2 DexCalls

variable {β : Type} {world after : World} {answer : β} {token owner self factory «to» : Address} {around : Around}

theorem yields_balanceOf_bind {next : Uint256 → Run β} : Yields (balanceOf token owner >>= next) world answer after ↔
    ∃ contract, world.at_ asERC20 token = some contract ∧ Yields (next (contract.balanceOf owner)) world answer after := by
  unfold balanceOf
  rw [bind_assoc, yields_getContract_bind]
  exact Iff.rfl

theorem yields_feeTo_bind {next : Address → Run β} : Yields (DEXV2Pair.feeTo factory >>= next) world answer after ↔
    ∃ contract, world.at_ asFactory factory = some contract ∧ Yields (next contract.feeTo) world answer after := by
  unfold DEXV2Pair.feeTo
  rw [bind_assoc, yields_getContract_bind]
  exact Iff.rfl

/-- A pair with its two tokens. -/
structure Trading (world : World) (address : Address) (pair : DEXV2Pair) (first second : ERC20) : Prop where
  here : world.at_ asPair address = some pair
  first : world.at_ asERC20 pair.token0 = some first
  second : world.at_ asERC20 pair.token1 = some second

/-- A mint, from what the pair reads to what it writes. -/
structure MintRun (around : Around) (address «to» : Address) (world : World) (liquidity : Uint256) (after : World) where
  pair : DEXV2Pair
  first : ERC20
  second : ERC20
  trading : Trading world address pair first second
  amounts : Uint256 × Uint256
  added : pair.added (first.balanceOf address) (second.balanceOf address) = .ok amounts
  factory : DEXV2Factory
  charged : world.at_ asFactory pair.factory = some factory
  changed : DEXV2Pair
  minted : pair.mint around.timestamp factory.feeTo amounts (first.balanceOf address) (second.balanceOf address) «to» =
    .ok (liquidity, changed)
  written : after = world.put asPair address changed

theorem callMint_run {liquidity : Uint256} (done : Yields (DEXV2Pair.callMint around self «to») world liquidity after) :
    Nonempty (MintRun around self «to» world liquidity after) := by
  obtain ⟨pair, here, rest⟩ := yields_getContract_bind.mp done
  obtain ⟨first, foundFirst, rest⟩ := yields_balanceOf_bind.mp rest
  obtain ⟨second, foundSecond, rest⟩ := yields_balanceOf_bind.mp rest
  obtain ⟨amounts, added, rest⟩ := yields_checked_bind.mp rest
  obtain ⟨factory, charged, rest⟩ := yields_feeTo_bind.mp rest
  obtain ⟨⟨shares, changed⟩, minted, rest⟩ := yields_checked_bind.mp rest
  have rest := yields_putContract_bind.mp rest
  obtain ⟨same, kept⟩ := pure_yields rest
  subst same
  exact ⟨{
    pair, first, second, trading := ⟨here, foundFirst, foundSecond⟩, amounts, added, factory, charged, changed, minted
    written := kept.symm }⟩

/-- A burn: the shares first, then the payments, then the reserves. -/
structure BurnRun (around : Around) (address «to» : Address) (world : World) (amounts : Uint256 × Uint256) (after : World) where
  pair : DEXV2Pair
  first : ERC20
  second : ERC20
  trading : Trading world address pair first second
  factory : DEXV2Factory
  charged : world.at_ asFactory pair.factory = some factory
  burning : DEXV2Pair.Burning
  burnt : pair.burnShares address factory.feeTo (first.balanceOf address) (second.balanceOf address) = .ok burning
  amounts_eq : amounts = (burning.amount0, burning.amount1)
  between : World
  paidFirst : Yields (transfer address pair.token0 «to» burning.amount0) (world.put asPair address burning.pair) () between
  paid : World
  paidSecond : Yields (transfer address pair.token1 «to» burning.amount1) between () paid
  first' : ERC20
  second' : ERC20
  foundFirst : paid.at_ asERC20 pair.token0 = some first'
  foundSecond : paid.at_ asERC20 pair.token1 = some second'
  last : DEXV2Pair
  foundLast : paid.at_ asPair address = some last
  changed : DEXV2Pair
  settled : last.settle around.timestamp burning.feeOn (first'.balanceOf address) (second'.balanceOf address) = .ok changed
  written : after = paid.put asPair address changed

theorem callBurn_run {amounts : Uint256 × Uint256} (done : Yields (DEXV2Pair.callBurn around self «to») world amounts after) :
    Nonempty (BurnRun around self «to» world amounts after) := by
  obtain ⟨pair, here, rest⟩ := yields_getContract_bind.mp done
  obtain ⟨first, foundFirst, rest⟩ := yields_balanceOf_bind.mp rest
  obtain ⟨second, foundSecond, rest⟩ := yields_balanceOf_bind.mp rest
  obtain ⟨factory, charged, rest⟩ := yields_feeTo_bind.mp rest
  obtain ⟨burning, burnt, rest⟩ := yields_checked_bind.mp rest
  have rest := yields_putContract_bind.mp rest
  obtain ⟨_, between, paidFirst, rest⟩ := yields_bind.mp rest
  obtain ⟨_, paid, paidSecond, rest⟩ := yields_bind.mp rest
  obtain ⟨first', foundFirst', rest⟩ := yields_balanceOf_bind.mp rest
  obtain ⟨second', foundSecond', rest⟩ := yields_balanceOf_bind.mp rest
  obtain ⟨last, changed, foundLast, settled, rest⟩ := yields_callContractFunction_bind.mp rest
  obtain ⟨same, kept⟩ := pure_yields rest
  exact ⟨{
    pair, first, second, trading := ⟨here, foundFirst, foundSecond⟩, factory, charged, burning, burnt
    amounts_eq := same.symm, between, paidFirst, paid, paidSecond, first', second'
    foundFirst := foundFirst', foundSecond := foundSecond', last, foundLast, changed, settled, written := kept.symm }⟩

/-- A payment that a swap makes only if there is something to pay. -/
def Paid (self token «to» : Address) (amount : Uint256) (world after : World) : Prop :=
  if 0 < amount then Yields (transfer self token «to» amount) world () after else after = world

structure SwapRun (around : Around) (address : Address) (amount0Out amount1Out : Uint256) («to» : Address) (world after : World) where
  pair : DEXV2Pair
  here : world.at_ asPair address = some pair
  guarded : pair.swapGuard amount0Out amount1Out «to» = .ok ()
  between : World
  paidFirst : Paid address pair.token0 «to» amount0Out world between
  paid : World
  paidSecond : Paid address pair.token1 «to» amount1Out between paid
  first : ERC20
  second : ERC20
  foundFirst : paid.at_ asERC20 pair.token0 = some first
  foundSecond : paid.at_ asERC20 pair.token1 = some second
  last : DEXV2Pair
  foundLast : paid.at_ asPair address = some last
  changed : DEXV2Pair
  ended : last.swapEnd around.timestamp (first.balanceOf address) (second.balanceOf address) amount0Out amount1Out = .ok changed
  written : after = paid.put asPair address changed

theorem callSwap_run {amount0Out amount1Out : Uint256} {answer : Unit}
    (done : Yields (DEXV2Pair.callSwap around self amount0Out amount1Out «to») world answer after) :
    Nonempty (SwapRun around self amount0Out amount1Out «to» world after) := by
  obtain ⟨pair, here, rest⟩ := yields_getContract_bind.mp done
  obtain ⟨_, guarded, rest⟩ := yields_checked_bind.mp rest
  obtain ⟨between, paidFirst, rest⟩ := yields_when_bind.mp rest
  obtain ⟨paid, paidSecond, rest⟩ := yields_when_bind.mp rest
  obtain ⟨first, foundFirst, rest⟩ := yields_balanceOf_bind.mp rest
  obtain ⟨second, foundSecond, rest⟩ := yields_balanceOf_bind.mp rest
  obtain ⟨last, changed, foundLast, ended, written⟩ := callContractFunction_yields rest
  exact ⟨{
    pair, here, guarded, between, paidFirst, paid, paidSecond, first, second, foundFirst, foundSecond, last, foundLast
    changed, ended, written }⟩

structure SkimRun (address «to» : Address) (world after : World) where
  pair : DEXV2Pair
  first : ERC20
  here : world.at_ asPair address = some pair
  foundFirst : world.at_ asERC20 pair.token0 = some first
  excess0 : Uint256
  over0 : Uint256.sub (first.balanceOf address) pair.reserve0.wide = .ok excess0
  between : World
  paidFirst : Yields (transfer address pair.token0 «to» excess0) world () between
  second : ERC20
  foundSecond : between.at_ asERC20 pair.token1 = some second
  excess1 : Uint256
  over1 : Uint256.sub (second.balanceOf address) pair.reserve1.wide = .ok excess1
  paidSecond : Yields (transfer address pair.token1 «to» excess1) between () after

theorem callSkim_run {answer : Unit} (done : Yields (DEXV2Pair.callSkim self «to») world answer after) :
    Nonempty (SkimRun self «to» world after) := by
  obtain ⟨pair, here, rest⟩ := yields_getContract_bind.mp done
  obtain ⟨first, foundFirst, rest⟩ := yields_balanceOf_bind.mp rest
  obtain ⟨excess0, over0, rest⟩ := yields_checked_bind.mp rest
  obtain ⟨_, between, paidFirst, rest⟩ := yields_bind.mp rest
  obtain ⟨second, foundSecond, rest⟩ := yields_balanceOf_bind.mp rest
  obtain ⟨excess1, over1, paidSecond⟩ := yields_checked_bind.mp rest
  exact ⟨{ pair, first, here, foundFirst, excess0, over0, between, paidFirst, second, foundSecond, excess1, over1, paidSecond }⟩

structure SyncRun (around : Around) (address : Address) (world after : World) where
  pair : DEXV2Pair
  first : ERC20
  second : ERC20
  trading : Trading world address pair first second
  changed : DEXV2Pair
  updated : pair.update around.timestamp (first.balanceOf address) (second.balanceOf address) = .ok changed
  written : after = world.put asPair address changed

theorem callSync_run {answer : Unit} (done : Yields (DEXV2Pair.callSync around self) world answer after) :
    Nonempty (SyncRun around self world after) := by
  obtain ⟨pair, here, rest⟩ := yields_getContract_bind.mp done
  obtain ⟨first, foundFirst, rest⟩ := yields_balanceOf_bind.mp rest
  obtain ⟨second, foundSecond, rest⟩ := yields_balanceOf_bind.mp rest
  obtain ⟨again, changed, foundAgain, updated, written⟩ := callContractFunction_yields rest
  cases here.symm.trans foundAgain
  exact ⟨{ pair, first, second, trading := ⟨here, foundFirst, foundSecond⟩, changed, updated, written }⟩

end OrbiterSDK.Proofs.PairCalls
