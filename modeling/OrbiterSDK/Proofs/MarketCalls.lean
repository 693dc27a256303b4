import OrbiterSDK.Proofs.Markets
import OrbiterSDK.Proofs.PairCalls

/-! What the functions of a pair make of its market: the pair, what its tokens are then, and
what of it the pair has noted. -/

namespace OrbiterSDK.Proofs.MarketCalls
open Lib Atomic DEXV2 DexCalls PairCalls PairSteps Markets TokenSupply

variable {market : Market} {world after : World} {pair changed : DEXV2Pair} {first second : ERC20} {around : Around}
  {caller target «to» : Address} {amount : Uint256}

/-- What is left of a holding after a payment is at least the difference. -/
theorem transfer_left {token paid : ERC20} (done : token.transfer caller target amount = .ok paid) :
    (token.balanceOf caller).toNat ≤ (paid.balanceOf caller).toNat + amount.toNat := by
  have shift := (transfer_moves done).1.shift caller
  rw [if_pos rfl] at shift
  omega

theorem excess_left {paid : ERC20} {excess : Uint256} {reserve : Uint112}
    (over_ : Uint256.sub (first.balanceOf caller) reserve.wide = .ok excess) (pays : first.transfer caller «to» excess = .ok paid) :
    reserve.toNat ≤ (paid.balanceOf caller).toNat := by
  have rest := Uint256.sub_eq_ok.mp over_
  have left := transfer_left pays
  rw [Uint112.wide_toNat] at rest
  omega

/-- What a token is after a payment that is made if there is something to pay. -/
def PaidToken (payer target : Address) (amount : Uint256) (token paid : ERC20) : Prop :=
  if 0 < amount then token.transfer payer target amount = .ok paid else paid = token

variable (placed : Placed market world pair first second)
include placed

theorem shares_unapproved : Unapproved market.pair pair.toERC20 :=
  placed.unapproved _ _ (pair_shares placed.here)

theorem self_placed (unapproved : Unapproved market.pair changed.toERC20)
    (places : SamePlaces pair changed) (written : after = world.put asPair market.pair changed) :
    Placed market after changed first second := by
  subst written
  have placed' := placed.written (pair_written placed.here) unapproved (at_put_self placed.here) places
  rwa [if_neg market.apart0, if_neg market.apart1] at placed'

theorem pays_placed {token : Address} {answer : Unit} (apart : token ≠ market.pair)
    (done : Yields (transfer caller token target amount) world answer after) :
    ∃ old new, world.at_ asERC20 token = some old ∧ old.transfer caller target amount = .ok new ∧
      Placed market after pair (if market.token0 = token then new else first) (if market.token1 = token then new else second) := by
  obtain ⟨old, new, known, computed, rfl⟩ := callContractFunction_yields done
  have unapproved : Unapproved market.pair new := (placed.unapproved token old known).same (transfer_moves computed).2.2
  exact ⟨old, new, known, computed, placed.written (token_written known) unapproved
    ((at_put_of_ne _ apart.symm).trans placed.here) (SamePool.refl pair).toSamePlaces⟩

theorem pays0_placed {answer : Unit} (done : Yields (transfer caller market.token0 target amount) world answer after) :
    ∃ first', first.transfer caller target amount = .ok first' ∧ Placed market after pair first' second := by
  obtain ⟨old, new, known, computed, placed'⟩ := pays_placed placed market.apart0 done
  cases placed.first.symm.trans known
  rw [if_pos rfl, if_neg market.apart.symm] at placed'
  exact ⟨new, computed, placed'⟩

theorem pays1_placed {answer : Unit} (done : Yields (transfer caller market.token1 target amount) world answer after) :
    ∃ second', second.transfer caller target amount = .ok second' ∧ Placed market after pair first second' := by
  obtain ⟨old, new, known, computed, placed'⟩ := pays_placed placed market.apart1 done
  cases placed.second.symm.trans known
  rw [if_neg market.apart, if_pos rfl] at placed'
  exact ⟨new, computed, placed'⟩

theorem trading_same {pair' : DEXV2Pair} {first' second' : ERC20}
    (trading : Trading world market.pair pair' first' second') : pair' = pair ∧ first' = first ∧ second' = second := by
  have same := Option.some.inj (trading.here.symm.trans placed.here)
  have foundFirst := trading.first
  have foundSecond := trading.second
  rw [same, placed.token0] at foundFirst
  rw [same, placed.token1] at foundSecond
  exact ⟨same, Option.some.inj (foundFirst.symm.trans placed.first), Option.some.inj (foundSecond.symm.trans placed.second)⟩

theorem mint_market {liquidity : Uint256} (run : MintRun around market.pair «to» world liquidity after) :
    run.pair = pair ∧ run.first = first ∧ run.second = second ∧ Placed market after run.changed first second ∧
      Noted pair run.changed (first.balanceOf market.pair) (second.balanceOf market.pair) := by
  obtain ⟨same, sameFirst, sameSecond⟩ := trading_same placed run.trading
  have minted := run.minted
  rw [same, sameFirst, sameSecond] at minted
  obtain ⟨noted, grown, _⟩ := mint_ok minted
  have unapproved := (shares_unapproved placed).same grown.allowed
  exact ⟨same, sameFirst, sameSecond, self_placed placed unapproved noted.toSamePlaces run.written, noted⟩

theorem burn_market {amounts : Uint256 × Uint256} (run : BurnRun around market.pair «to» world amounts after) :
    run.pair = pair ∧ run.first = first ∧ run.second = second ∧ ∃ first' second',
      first.transfer market.pair «to» run.burning.amount0 = .ok first' ∧
      second.transfer market.pair «to» run.burning.amount1 = .ok second' ∧
      Placed market after run.changed first' second' ∧
      Noted pair run.changed (first'.balanceOf market.pair) (second'.balanceOf market.pair) ∧
      run.changed.toERC20 = run.burning.pair.toERC20 := by
  obtain ⟨same, sameFirst, sameSecond⟩ := trading_same placed run.trading
  have burnt := burnShares_ok run.burnt
  rw [same, sameFirst, sameSecond] at burnt
  obtain ⟨charged, fees, _, burn, _⟩ := burnt.shares
  have unapproved : Unapproved market.pair run.burning.pair.toERC20 :=
    ((shares_unapproved placed).same fees.grown.allowed).same (burn_takes burn).2.2
  have placed' := self_placed placed unapproved burnt.pool.toSamePlaces rfl
  have paidFirst := run.paidFirst
  have paidSecond := run.paidSecond
  have foundFirst := run.foundFirst
  have foundSecond := run.foundSecond
  rw [same, placed.token0] at paidFirst foundFirst
  rw [same, placed.token1] at paidSecond foundSecond
  obtain ⟨first', pays, placed'⟩ := pays0_placed placed' paidFirst
  obtain ⟨second', pays', placed'⟩ := pays1_placed placed' paidSecond
  have settled := run.settled
  rw [Option.some.inj (run.foundLast.symm.trans placed'.here), Option.some.inj (foundFirst.symm.trans placed'.first),
    Option.some.inj (foundSecond.symm.trans placed'.second)] at settled
  obtain ⟨noted, shares⟩ := settle_ok settled
  have places := burnt.pool.toSamePlaces.trans noted.toSamePlaces
  have placed' := self_placed placed' (shares ▸ unapproved) noted.toSamePlaces run.written
  exact ⟨same, sameFirst, sameSecond, first', second', pays, pays', placed', ⟨places, noted.reserve0, noted.reserve1⟩, shares⟩

theorem paid0_placed (paid : Paid market.pair market.token0 target amount world after) :
    ∃ first', PaidToken market.pair target amount first first' ∧ Placed market after pair first' second := by
  unfold Paid at paid
  unfold PaidToken
  split at paid
  case isTrue some_ =>
    obtain ⟨first', pays, placed'⟩ := pays0_placed placed paid
    exact ⟨first', by rwa [if_pos some_], placed'⟩
  case isFalse none_ =>
    rw [paid]
    exact ⟨first, by rw [if_neg none_], placed⟩

theorem paid1_placed (paid : Paid market.pair market.token1 target amount world after) :
    ∃ second', PaidToken market.pair target amount second second' ∧ Placed market after pair first second' := by
  unfold Paid at paid
  unfold PaidToken
  split at paid
  case isTrue some_ =>
    obtain ⟨second', pays, placed'⟩ := pays1_placed placed paid
    exact ⟨second', by rwa [if_pos some_], placed'⟩
  case isFalse none_ =>
    rw [paid]
    exact ⟨second, by rw [if_neg none_], placed⟩

theorem swap_market {amount0Out amount1Out : Uint256} (run : SwapRun around market.pair amount0Out amount1Out «to» world after) :
    run.pair = pair ∧ PaidToken market.pair «to» amount0Out first run.first ∧ PaidToken market.pair «to» amount1Out second run.second ∧
      pair.swapEnd around.timestamp (run.first.balanceOf market.pair) (run.second.balanceOf market.pair) amount0Out amount1Out =
        .ok run.changed ∧
      Placed market after run.changed run.first run.second := by
  have same := Option.some.inj (run.here.symm.trans placed.here)
  have paidFirst := run.paidFirst
  have paidSecond := run.paidSecond
  have foundFirst := run.foundFirst
  have foundSecond := run.foundSecond
  rw [same, placed.token0] at paidFirst foundFirst
  rw [same, placed.token1] at paidSecond foundSecond
  obtain ⟨first', pays, placed'⟩ := paid0_placed placed paidFirst
  obtain ⟨second', pays', placed'⟩ := paid1_placed placed' paidSecond
  have ended := run.ended
  rw [Option.some.inj (run.foundLast.symm.trans placed'.here)] at ended
  have sameFirst := Option.some.inj (foundFirst.symm.trans placed'.first)
  have sameSecond := Option.some.inj (foundSecond.symm.trans placed'.second)
  rw [← sameFirst, ← sameSecond] at placed'
  rw [← sameFirst] at pays
  rw [← sameSecond] at pays'
  obtain ⟨noted, shares, _⟩ := swapEnd_ok ended
  exact ⟨same, pays, pays', ended, self_placed placed' (shares ▸ shares_unapproved placed') noted.toSamePlaces run.written⟩

theorem skim_market (run : SkimRun market.pair «to» world after) :
    run.pair = pair ∧ run.first = first ∧ run.second = second ∧ ∃ first' second',
      first.transfer market.pair «to» run.excess0 = .ok first' ∧
      second.transfer market.pair «to» run.excess1 = .ok second' ∧ Placed market after pair first' second' := by
  have same := Option.some.inj (run.here.symm.trans placed.here)
  have paidFirst := run.paidFirst
  have paidSecond := run.paidSecond
  have foundFirst := run.foundFirst
  have foundSecond := run.foundSecond
  rw [same, placed.token0] at paidFirst foundFirst
  rw [same, placed.token1] at paidSecond foundSecond
  obtain ⟨first', pays, placed'⟩ := pays0_placed placed paidFirst
  obtain ⟨second', pays', placed''⟩ := pays1_placed placed' paidSecond
  exact ⟨same, Option.some.inj (foundFirst.symm.trans placed.first), Option.some.inj (foundSecond.symm.trans placed'.second),
    first', second', pays, pays', placed''⟩

theorem sync_market (run : SyncRun around market.pair world after) :
    run.pair = pair ∧ Placed market after run.changed first second ∧ run.changed.toERC20 = pair.toERC20 ∧
      Noted pair run.changed (first.balanceOf market.pair) (second.balanceOf market.pair) := by
  obtain ⟨same, sameFirst, sameSecond⟩ := trading_same placed run.trading
  have updated := run.updated
  rw [same, sameFirst, sameSecond] at updated
  obtain ⟨noted, shares⟩ := update_ok updated
  exact ⟨same, self_placed placed (shares ▸ shares_unapproved placed) noted.toSamePlaces run.written, shares, noted⟩

end OrbiterSDK.Proofs.MarketCalls
