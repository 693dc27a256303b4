import OrbiterSDK.Lib.Shares
import OrbiterSDK.Proofs.MarketCalls

/-! What a share of a pool is worth. As long as nobody is paid fees in shares, it only grows:
everything that is due to someone is rounded down, and the shares that the first mint locks
stay where they are. -/

namespace OrbiterSDK.Proofs.ShareValue
open Lib Atomic DEXV2 DexCalls PairCalls PairSteps Markets MarketCalls TokenSupply

/-- The product of the reserves over the square of the supply of shares. -/
def shareValue (pair : DEXV2Pair) : ℚ := Shares.value pair.reserve0.toNat pair.reserve1.toNat pair.totalSupply.toNat

def product (pair : DEXV2Pair) : ℕ := pair.reserve0.toNat * pair.reserve1.toNat

/-- The shares that are locked are those of the zero address. -/
structure Locked (shares : ERC20) : Prop where
  balanced : Balanced shares
  unapproved : Unapproved 0 shares
  minimum : shares.totalSupply.toNat = 0 ∨ DEXV2Pair.minimumLiquidity.toNat ≤ (shares.balanceOf 0).toNat

section Shares
variable {shares after : ERC20} {account : Address} {amount : Uint256}

theorem Locked.supply (locked : Locked shares) (some_ : shares.totalSupply.toNat ≠ 0) :
    DEXV2Pair.minimumLiquidity.toNat ≤ shares.totalSupply.toNat :=
  (locked.minimum.resolve_left some_).trans (balance_le_supply locked.balanced 0)

/-- Calls that spare the zero address leave the shares locked. -/
theorem Locked.spared (locked : Locked shares) (balanced : Balanced after) (spares : Spares 0 shares after)
    (none_ : shares.totalSupply.toNat = 0 → after.totalSupply.toNat = 0) : Locked after := by
  refine ⟨balanced, spares.unapproved, ?_⟩
  cases locked.minimum with
  | inl empty => exact .inl (none_ empty)
  | inr enough => exact .inr (enough.trans spares.kept)

theorem Locked.first {provided : ERC20} (locked : Locked shares) (first : shares.mintValue_ 0 DEXV2Pair.minimumLiquidity = .ok provided)
    (rest : provided.mintValue_ account amount = .ok after) : Locked after := by
  have grown := (mint_grown first).trans (mint_grown rest)
  refine ⟨mint_balanced (mint_balanced locked.balanced first) rest, locked.unapproved.same grown.allowed, .inr ?_⟩
  have credited := credit_adds (mint_adds first).1 0
  have kept := (mint_grown rest).kept 0
  rw [if_pos rfl] at credited
  rw [balanceOf_eq] at kept
  omega

theorem Locked.more (locked : Locked shares) (some_ : shares.totalSupply.toNat ≠ 0) (minted : shares.mintValue_ account amount = .ok after) :
    Locked after :=
  locked.spared (mint_balanced locked.balanced minted) (grown_spares locked.unapproved (mint_grown minted)) fun empty => absurd empty some_

theorem Locked.less (locked : Locked shares) (some_ : shares.totalSupply.toNat ≠ 0) (apart : account ≠ 0)
    (burnt : shares.burnValue_ account amount = .ok after) : Locked after :=
  locked.spared (call_balanced (.burnValue_ account amount) locked.balanced burnt) (burn_spares locked.unapproved apart burnt)
    fun empty => absurd empty some_

end Shares

variable {market : Market} {world after : World} {pair changed : DEXV2Pair} {first second : ERC20} {around : Around} {«to» : Address}

/-- What a step makes of the pair. -/
structure Gains (pair changed : DEXV2Pair) : Prop where
  locked : Locked changed.toERC20
  supply : pair.totalSupply.toNat ≠ 0 → changed.totalSupply.toNat ≠ 0
  value : pair.totalSupply.toNat ≠ 0 → shareValue pair ≤ shareValue changed

theorem mint_gains (placed : Placed market world pair first second) (locked : Locked pair.toERC20) {liquidity : Uint256}
    (run : MintRun around market.pair «to» world liquidity after) (free : run.factory.feeTo = 0) : Gains pair run.changed := by
  obtain ⟨same, sameFirst, sameSecond, placed', noted⟩ := mint_market placed run
  have minted := run.minted
  have added := run.added
  rw [same, sameFirst, sameSecond] at minted added
  obtain ⟨_, _, shares⟩ := mint_ok minted
  obtain ⟨provided, filled, made⟩ := shares free
  unfold Provided at filled
  split at filled
  case isTrue empty =>
    have none_ : pair.totalSupply.toNat = 0 := congrArg BitVec.toNat empty
    exact ⟨locked.first filled made, fun some_ => absurd none_ some_, fun some_ => absurd none_ some_⟩
  case isFalse filled_ =>
    obtain ⟨rfl, due0, due1⟩ := filled
    have some_ : pair.totalSupply.toNat ≠ 0 := fun none_ => filled_ (BitVec.eq_of_toNat_eq none_)
    have locked' := locked.more some_ made
    have supply := (mint_adds made).2.1
    have some_' : run.changed.totalSupply.toNat ≠ 0 := by omega
    obtain ⟨amount0, taken0, rest⟩ := bind_eq_ok.mp added
    obtain ⟨amount1, taken1, same'⟩ := bind_eq_ok.mp rest
    have same' := pure_eq_ok.mp same'
    rw [← same'] at due0 due1
    have taken0 := Uint256.sub_eq_ok.mp taken0
    have taken1 := Uint256.sub_eq_ok.mp taken1
    rw [Uint112.wide_toNat] at taken0 taken1
    refine ⟨locked', fun _ => some_', fun _ => ?_⟩
    apply Shares.value_le_of_each (Nat.pos_of_ne_zero some_) (Nat.pos_of_ne_zero some_')
    · rw [noted.reserve0, taken0, supply, Nat.add_comm amount0.toNat]
      exact Shares.deposit_le due0
    · rw [noted.reserve1, taken1, supply, Nat.add_comm amount1.toNat]
      exact Shares.deposit_le due1

theorem burn_gains (placed : Placed market world pair first second) (covered : Covered market pair first second)
    (locked : Locked pair.toERC20) (apart : market.pair ≠ 0) {amounts : Uint256 × Uint256}
    (run : BurnRun around market.pair «to» world amounts after) (free : run.factory.feeTo = 0) : Gains pair run.changed := by
  obtain ⟨same, sameFirst, sameSecond, first', second', pays0, pays1, _, noted, shares⟩ := burn_market placed run
  have burnt := run.burnt
  rw [same, sameFirst, sameSecond] at burnt
  obtain ⟨charged, fees, some_, burn, due0, due1⟩ := (burnShares_ok burnt).shares
  cases fees.same free
  rw [← shares] at burn
  have supply := (burn_takes burn).2.1
  have locked' := locked.less some_ apart burn
  have some_' : run.changed.totalSupply.toNat ≠ 0 := by
    have enough := (locked.minimum.resolve_left some_).trans ((burn_spares locked.unapproved apart burn).kept)
    have bound := balance_le_supply locked'.balanced 0
    change 1000 ≤ _ at enough
    omega
  refine ⟨locked', fun _ => some_', fun _ => ?_⟩
  apply Shares.value_le_of_each (Nat.pos_of_ne_zero some_) (Nat.pos_of_ne_zero some_')
  · rw [noted.reserve0]
    exact Shares.withdraw_le covered.first due0 supply.symm (transfer_left pays0)
  · rw [noted.reserve1]
    exact Shares.withdraw_le covered.second due1 supply.symm (transfer_left pays1)

/-- With the same shares, more of the product is more for each share. -/
theorem product_gains (locked : Locked pair.toERC20) (shares : changed.toERC20 = pair.toERC20) (more : product pair ≤ product changed) :
    Gains pair changed := by
  have supply : changed.totalSupply = pair.totalSupply := by rw [shares]
  refine ⟨shares ▸ locked, fun some_ => supply ▸ some_, fun some_ => ?_⟩
  unfold shareValue
  rw [supply]
  exact Shares.value_le_of_product (Nat.pos_of_ne_zero some_) more

theorem swap_product (placed : Placed market world pair first second) {amount0Out amount1Out : Uint256}
    (run : SwapRun around market.pair amount0Out amount1Out «to» world after) :
    product pair ≤ product run.changed ∧ run.changed.toERC20 = pair.toERC20 := by
  obtain ⟨_, _, _, ended, _⟩ := swap_market placed run
  obtain ⟨noted, shares, fee0, fee1, kept⟩ := swapEnd_ok ended
  refine ⟨?_, shares⟩
  unfold product
  rw [noted.reserve0, noted.reserve1]
  exact Shares.trade_le kept

theorem sync_product (placed : Placed market world pair first second) (covered : Covered market pair first second)
    (run : SyncRun around market.pair world after) : product pair ≤ product run.changed ∧ run.changed.toERC20 = pair.toERC20 := by
  obtain ⟨_, _, shares, noted⟩ := sync_market placed run
  refine ⟨?_, shares⟩
  unfold product
  rw [noted.reserve0, noted.reserve1]
  exact Nat.mul_le_mul covered.first covered.second

section Factories
variable {address : Address} {known : Option DEXV2Factory}

def FactoryIs (address : Address) (known : Option DEXV2Factory) (world : World) : Prop := world.at_ asFactory address = known

theorem put_factory {τ : Type} {as_ : Cast τ} (other : Address) (value : τ)
    (same : ∀ contract, asFactory.view (as_.write value contract) = asFactory.view contract) (kept : FactoryIs address known world) :
    FactoryIs address known (world.put as_ other value) := by
  unfold FactoryIs at kept ⊢
  by_cases here : address = other
  · rw [here] at kept ⊢
    rw [at_put, ← kept]
    unfold World.at_
    simp only [same]
  · rw [at_put_of_ne _ here]
    exact kept

private theorem tokenWrite_same (token : ERC20) (contract : Contract) : asFactory.view (asERC20.write token contract) = asFactory.view contract := by
  cases contract with
  | erc20 | nativeWrapper | pair | factory | router => rfl

theorem pairWrite_same (pair : DEXV2Pair) (contract : Contract) : asFactory.view (asPair.write pair contract) = asFactory.view contract := by
  cases contract with
  | erc20 | nativeWrapper | pair | factory | router => rfl

theorem tokenCall_factory {other : Address} {function : ERC20 → Except Exception ERC20} :
    Keeps (FactoryIs address known) (callContractFunction asERC20 other function) := by
  intro world answer after kept done
  obtain ⟨old, new, _, _, rfl⟩ := callContractFunction_yields done
  exact put_factory other new (tokenWrite_same new) kept

theorem pairCall_factory {other : Address} {function : DEXV2Pair → Except Exception DEXV2Pair} :
    Keeps (FactoryIs address known) (callContractFunction asPair other function) := by
  intro world answer after kept done
  obtain ⟨old, new, _, _, rfl⟩ := callContractFunction_yields done
  exact put_factory other new (pairWrite_same new) kept

theorem putPair_factory {other : Address} {pair : DEXV2Pair} : Keeps (FactoryIs address known) (putContract asPair other pair) := by
  intro world answer after kept done
  rw [put_yields done]
  exact put_factory other pair (pairWrite_same pair) kept

theorem balanceOf_factory {token owner : Address} : Keeps (FactoryIs address known) (balanceOf token owner) :=
  getContract_keeps.bind fun _ => .pure _

theorem feeTo_factory {factory : Address} : Keeps (FactoryIs address known) (DEXV2Pair.feeTo factory) :=
  getContract_keeps.bind fun _ => .pure _

variable {self : Address}

theorem callMint_factory : Keeps (FactoryIs address known) (DEXV2Pair.callMint around self «to») := by
  refine getContract_keeps.bind fun pair => ?_
  refine balanceOf_factory.bind fun balance0 => ?_
  refine balanceOf_factory.bind fun balance1 => ?_
  apply Keeps.after_checked
  intro amounts
  refine feeTo_factory.bind fun feeTo => ?_
  apply Keeps.after_checked
  intro (liquidity, pair)
  exact putPair_factory.bind fun _ => .pure _

theorem callBurn_factory : Keeps (FactoryIs address known) (DEXV2Pair.callBurn around self «to») := by
  refine getContract_keeps.bind fun pair => ?_
  refine balanceOf_factory.bind fun balance0 => ?_
  refine balanceOf_factory.bind fun balance1 => ?_
  refine feeTo_factory.bind fun feeTo => ?_
  apply Keeps.after_checked
  intro burning
  refine putPair_factory.bind fun _ => ?_
  refine tokenCall_factory.bind fun _ => ?_
  refine tokenCall_factory.bind fun _ => ?_
  exact balanceOf_factory.bind fun _ => balanceOf_factory.bind fun _ => pairCall_factory.bind fun _ => .pure _

theorem callSwap_factory {amount0Out amount1Out : Uint256} :
    Keeps (FactoryIs address known) (DEXV2Pair.callSwap around self amount0Out amount1Out «to») := by
  refine getContract_keeps.bind fun pair => ?_
  apply Keeps.after_checked
  intro _
  have ends : Keeps (FactoryIs address known) (do
      let balance0 ← balanceOf pair.token0 self
      let balance1 ← balanceOf pair.token1 self
      callContractFunction asPair self fun pair => pair.swapEnd around.timestamp balance0 balance1 amount0Out amount1Out) :=
    balanceOf_factory.bind fun _ => balanceOf_factory.bind fun _ => pairCall_factory
  have second : Keeps (FactoryIs address known) (if 0 < amount1Out then do
      transfer self pair.token1 «to» amount1Out
      let balance0 ← balanceOf pair.token0 self
      let balance1 ← balanceOf pair.token1 self
      callContractFunction asPair self fun pair => pair.swapEnd around.timestamp balance0 balance1 amount0Out amount1Out
    else do
      let balance0 ← balanceOf pair.token0 self
      let balance1 ← balanceOf pair.token1 self
      callContractFunction asPair self fun pair => pair.swapEnd around.timestamp balance0 balance1 amount0Out amount1Out) :=
    .ite (tokenCall_factory.bind fun _ => ends) ends
  exact .ite (tokenCall_factory.bind fun _ => second) second

theorem callSkim_factory : Keeps (FactoryIs address known) (DEXV2Pair.callSkim self «to») := by
  refine getContract_keeps.bind fun pair => ?_
  refine balanceOf_factory.bind fun balance0 => ?_
  apply Keeps.after_checked
  intro excess0
  refine tokenCall_factory.bind fun _ => ?_
  exact balanceOf_factory.bind fun _ => Keeps.after_checked fun _ => tokenCall_factory

theorem callSync_factory : Keeps (FactoryIs address known) (DEXV2Pair.callSync around self) := by
  refine getContract_keeps.bind fun pair => ?_
  exact balanceOf_factory.bind fun _ => balanceOf_factory.bind fun _ => pairCall_factory

end Factories

/-- The functions of the pair, and those of its tokens and of its shares. -/
inductive Operation where
  | mint («to» : Address)
  | burn («to» : Address)
  | swap (amount0Out amount1Out : Uint256) («to» : Address)
  | skim («to» : Address)
  | sync
  | transfer (token «to» : Address) (value : Uint256)
  | transferFrom (token «from» «to» : Address) (value : Uint256)
  | approve (token spender : Address) (value : Uint256)

structure Step where
  around : Around
  caller : Address
  operation : Operation

def perform (market : Market) (around : Around) (caller : Address) : Operation → Run Unit
  | .mint «to» => do
    let _ ← DEXV2Pair.callMint around market.pair «to»
    pure ()
  | .burn «to» => do
    let _ ← DEXV2Pair.callBurn around market.pair «to»
    pure ()
  | .swap amount0Out amount1Out «to» => DEXV2Pair.callSwap around market.pair amount0Out amount1Out «to»
  | .skim «to» => DEXV2Pair.callSkim market.pair «to»
  | .sync => DEXV2Pair.callSync around market.pair
  | .transfer token «to» value => transfer caller token «to» value
  | .transferFrom token «from» «to» value => transferFrom caller token «from» «to» value
  | .approve token spender value => approve caller token spender value

def call (market : Market) (world : World) (step : Step) : Except Exception World :=
  ((perform market step.around step.caller step.operation).run world).map Prod.snd

/-- Whether a call gives shares away, or the right to. -/
def Operation.givesShares (market : Market) : Operation → Prop
  | .transfer token .. | .approve token .. => token = market.pair
  | _ => False

/-- The pair calls nothing on its own, and nobody has the shares of the zero address. -/
structure Allowed (market : Market) (_ : World) (step : Step) : Prop where
  outside : step.caller ≠ market.pair
  locked : step.operation.givesShares market → step.caller ≠ 0

/-- A new pair whose factory sends no fees. -/
structure New (market : Market) (world : World) (pair : DEXV2Pair) (first second : ERC20) : Prop where
  placed : Placed market world pair first second
  someone : market.pair ≠ 0
  free : ∀ factory, world.at_ asFactory pair.factory = some factory → factory.feeTo = 0
  empty0 : pair.reserve0 = 0
  empty1 : pair.reserve1 = 0
  shares : ∃ creator created, DEXV2Pair.create creator = .ok created ∧ pair.toERC20 = created.toERC20

def Opened (market : Market) (world : World) : Prop := ∃ pair first second, New market world pair first second

/-- What all steps keep. -/
structure Sound (market : Market) (world : World) (pair : DEXV2Pair) (first second : ERC20) : Prop where
  placed : Placed market world pair first second
  covered : Covered market pair first second
  locked : Locked pair.toERC20
  someone : market.pair ≠ 0
  free : ∀ factory, world.at_ asFactory pair.factory = some factory → factory.feeTo = 0

/-- The market is sound again, and the pair gained by it. -/
def Gained (market : Market) (after : World) (pair : DEXV2Pair) : Prop :=
  ∃ changed first second, Sound market after changed first second ∧ Gains pair changed

section Gained
variable (sound : Sound market world pair first second)
include sound

theorem Sound.free_after (same : FactoryIs pair.factory (world.at_ asFactory pair.factory) after) (places : SamePlaces pair changed) :
    ∀ factory, after.at_ asFactory changed.factory = some factory → factory.feeTo = 0 := by
  intro factory known
  rw [places.factory, same] at known
  exact sound.free factory known

/-- A pair that has taken its balances over is covered by them. -/
theorem Sound.noted {first' second' : ERC20} (gains : Gains pair changed) (placed : Placed market after changed first' second')
    (noted : Noted pair changed (first'.balanceOf market.pair) (second'.balanceOf market.pair))
    (same : FactoryIs pair.factory (world.at_ asFactory pair.factory) after) : Sound market after changed first' second' :=
  ⟨placed, ⟨noted.reserve0.le, noted.reserve1.le⟩, gains.locked, sound.someone, sound.free_after same noted.toSamePlaces⟩

theorem mint_gained {liquidity : Uint256}
    (done : Yields (DEXV2Pair.callMint around market.pair «to») world liquidity after) : Gained market after pair := by
  obtain ⟨run⟩ := callMint_run done
  obtain ⟨same, _, _, placed, noted⟩ := mint_market sound.placed run
  have free := sound.free run.factory (same ▸ run.charged)
  have gains := mint_gains sound.placed sound.locked run free
  exact ⟨_, _, _, sound.noted gains placed noted (callMint_factory _ _ _ rfl done), gains⟩

theorem burn_gained {amounts : Uint256 × Uint256}
    (done : Yields (DEXV2Pair.callBurn around market.pair «to») world amounts after) : Gained market after pair := by
  obtain ⟨run⟩ := callBurn_run done
  obtain ⟨same, _, _, first', second', _, _, placed, noted, _⟩ := burn_market sound.placed run
  have free := sound.free run.factory (same ▸ run.charged)
  have gains := burn_gains sound.placed sound.covered sound.locked sound.someone run free
  exact ⟨_, _, _, sound.noted gains placed noted (callBurn_factory _ _ _ rfl done), gains⟩

theorem swap_gained {amount0Out amount1Out : Uint256} {answer : Unit}
    (done : Yields (DEXV2Pair.callSwap around market.pair amount0Out amount1Out «to») world answer after) :
    ∃ changed first second, Sound market after changed first second ∧ Gains pair changed ∧ product pair ≤ product changed := by
  obtain ⟨run⟩ := callSwap_run done
  obtain ⟨_, _, _, ended, placed⟩ := swap_market sound.placed run
  obtain ⟨more, shares⟩ := swap_product sound.placed run
  have noted := (swapEnd_ok ended).1
  have gains := product_gains sound.locked shares more
  exact ⟨_, _, _, sound.noted gains placed noted (callSwap_factory _ _ _ rfl done), gains, more⟩

theorem sync_gained {answer : Unit}
    (done : Yields (DEXV2Pair.callSync around market.pair) world answer after) : Gained market after pair := by
  obtain ⟨run⟩ := callSync_run done
  obtain ⟨_, placed, _, noted⟩ := sync_market sound.placed run
  obtain ⟨more, shares⟩ := sync_product sound.placed sound.covered run
  have gains := product_gains sound.locked shares more
  exact ⟨_, _, _, sound.noted gains placed noted (callSync_factory _ _ _ rfl done), gains⟩

theorem skim_gained {answer : Unit}
    (done : Yields (DEXV2Pair.callSkim market.pair «to») world answer after) : Gained market after pair := by
  obtain ⟨run⟩ := callSkim_run done
  obtain ⟨same, sameFirst, sameSecond, first', second', pays0, pays1, placed⟩ := skim_market sound.placed run
  have over0 := run.over0
  have over1 := run.over1
  rw [same, sameFirst] at over0
  rw [same, sameSecond] at over1
  have factories := callSkim_factory _ _ _ (rfl : FactoryIs pair.factory (world.at_ asFactory pair.factory) world) done
  exact ⟨pair, first', second', ⟨placed, ⟨excess_left over0 pays0, excess_left over1 pays1⟩, sound.locked, sound.someone,
    sound.free_after factories (SamePool.refl pair).toSamePlaces⟩, product_gains sound.locked rfl (Nat.le_refl _)⟩

theorem token_gained {token : Address} {function : ERC20 → Except Exception ERC20}
    {answer : Unit} (spares : ∀ old new, Unapproved market.pair old → function old = .ok new → Spares market.pair old new)
    (locked : token = market.pair → ∀ old new, Unapproved 0 old → function old = .ok new → Spares 0 old new)
    (supply : ∀ old new, function old = .ok new → new.totalSupply = old.totalSupply)
    (balanced : ∀ old new, Balanced old → function old = .ok new → Balanced new)
    (done : Yields (callContractFunction asERC20 token function) world answer after) : Gained market after pair := by
  have factories := tokenCall_factory _ _ _ (rfl : FactoryIs pair.factory (world.at_ asFactory pair.factory) world) done
  obtain ⟨old, new, known, computed, same⟩ := callContractFunction_yields done
  have written : Written world after token new := same ▸ token_written known
  have mine := spares old new (sound.placed.unapproved token old known) computed
  obtain ⟨changed, here, pool, shares⟩ := sound.placed.pair_after known same
  obtain ⟨first', second', placed, more0, more1⟩ := sound.placed.spared known written mine here pool.toSamePlaces
  have covered : Covered market changed first' second' := by
    refine ⟨?_, ?_⟩
    · rw [pool.reserve0]
      exact sound.covered.first.trans more0
    · rw [pool.reserve1]
      exact sound.covered.second.trans more1
  have gains : Gains pair changed := by
    by_cases isShares : market.pair = token
    · rw [if_pos isShares] at shares
      cases (isShares ▸ pair_shares sound.placed.here).symm.trans known
      have locked : Locked new := sound.locked.spared (balanced _ _ sound.locked.balanced computed)
        (locked isShares.symm _ _ sound.locked.unapproved computed) fun none_ => (congrArg BitVec.toNat (supply _ _ computed)).trans none_
      have same : changed.totalSupply = pair.totalSupply := by
        rw [shares]
        exact supply _ _ computed
      refine ⟨?_, fun some_ => same ▸ some_, fun _ => ?_⟩
      · rw [shares]
        exact locked
      · unfold shareValue
        rw [same, pool.reserve0, pool.reserve1]
    · rw [if_neg isShares] at shares
      rw [shares]
      exact product_gains sound.locked rfl (Nat.le_refl _)
  exact ⟨changed, first', second', ⟨placed, covered, gains.locked, sound.someone, sound.free_after factories pool.toSamePlaces⟩, gains⟩

theorem step_gained {step : Step} (allowed : Allowed market world step) {answer : Unit}
    (done : Yields (perform market step.around step.caller step.operation) world answer after) :
    ∃ changed first second, Sound market after changed first second ∧ Gains pair changed ∧
      ∀ amount0Out amount1Out «to», step.operation = .swap amount0Out amount1Out «to» → product pair ≤ product changed := by
  obtain ⟨around, caller, operation⟩ := step
  obtain ⟨outside, locked⟩ := allowed
  have other : Gained market after pair → (∀ amount0Out amount1Out «to», operation ≠ .swap amount0Out amount1Out «to») →
      ∃ changed first second, Sound market after changed first second ∧ Gains pair changed ∧
        ∀ amount0Out amount1Out «to», operation = .swap amount0Out amount1Out «to» → product pair ≤ product changed :=
    fun ⟨changed, first, second, sound, gains⟩ noSwap =>
      ⟨changed, first, second, sound, gains, fun _ _ _ isSwap => absurd isSwap (noSwap _ _ _)⟩
  cases operation with
  | mint «to» =>
    obtain ⟨liquidity, between, minting, rest⟩ := yields_bind.mp done
    obtain ⟨_, rfl⟩ := pure_yields rest
    exact other (mint_gained sound minting) (by intro _ _ _ same; cases same)
  | burn «to» =>
    obtain ⟨amounts, between, burning, rest⟩ := yields_bind.mp done
    obtain ⟨_, rfl⟩ := pure_yields rest
    exact other (burn_gained sound burning) (by intro _ _ _ same; cases same)
  | swap amount0Out amount1Out «to» =>
    obtain ⟨changed, first, second, sound, gains, more⟩ := swap_gained sound done
    exact ⟨changed, first, second, sound, gains, fun _ _ _ _ => more⟩
  | skim «to» => exact other (skim_gained sound done) (by intro _ _ _ same; cases same)
  | sync => exact other (sync_gained sound done) (by intro _ _ _ same; cases same)
  | transfer token «to» value =>
    refine other (token_gained sound ?_ ?_ ?_ ?_ done) (by intro _ _ _ same; cases same)
    · exact fun old new unapproved computed => transfer_spares unapproved outside computed
    · exact fun isShares old new unapproved computed => transfer_spares unapproved (locked isShares) computed
    · exact fun old new computed => (transfer_moves computed).2.1
    · exact fun old new balanced computed => call_balanced (.transfer caller «to» value) balanced computed
  | transferFrom token «from» «to» value =>
    refine other (token_gained sound ?_ ?_ ?_ ?_ done) (by intro _ _ _ same; cases same)
    · exact fun old new unapproved computed => transferFrom_spares unapproved computed
    · exact fun _ old new unapproved computed => transferFrom_spares unapproved computed
    · exact fun old new computed => (transferFrom_moves computed).2.1
    · exact fun old new balanced computed => call_balanced (.transferFrom caller «from» «to» value) balanced computed
  | approve token spender value =>
    refine other (token_gained sound ?_ ?_ ?_ ?_ done) (by intro _ _ _ same; cases same)
    · intro old new unapproved computed
      cases computed
      exact approve_spares unapproved outside
    · intro isShares old new unapproved computed
      cases computed
      exact approve_spares unapproved (locked isShares)
    · intro old new computed
      cases computed
      rfl
    · exact fun old new balanced computed => call_balanced (.approve caller spender value) balanced computed

end Gained

/-- A new pair has no shares, and nobody may spend those of the zero address. -/
theorem new_sound (new : New market world pair first second) : Sound market world pair first second := by
  obtain ⟨creator, created, creation, same⟩ := new.shares
  obtain ⟨token, minted, isToken⟩ := bind_eq_ok.mp creation
  cases pure_eq_ok.mp isToken
  have supply := (mint_adds minted).2.1
  have allowed := (mint_adds minted).2.2
  have locked : Locked token := by
    have fresh : Balanced { name := "DEX V2", symbol := "DEX-V2", decimals := 18 } := rfl
    refine ⟨mint_balanced fresh minted, ?_, .inl supply⟩
    intro spender
    rw [allowance_eq, allowed]
    rfl
  have covered : Covered market pair first second := by
    refine ⟨?_, ?_⟩
    · rw [new.empty0]
      exact Nat.zero_le _
    · rw [new.empty1]
      exact Nat.zero_le _
  exact ⟨new.placed, covered, same ▸ locked, new.someone, new.free⟩

theorem call_yields {step : Step} (done : call market world step = .ok after) :
    ∃ answer, Yields (perform market step.around step.caller step.operation) world answer after :=
  run_eq_ok.mp done

theorem reached_sound (reached : Reached (call market) (Opened market) (Allowed market) world) : ∃ pair first second, Sound market world pair first second := by
  apply reached.keeps
  · rintro world ⟨pair, first, second, new⟩
    exact ⟨pair, first, second, new_sound new⟩
  · rintro world step after ⟨pair, first, second, sound⟩ allowed done
    obtain ⟨answer, yields⟩ := call_yields done
    obtain ⟨changed, first, second, sound, _⟩ := step_gained sound allowed yields
    exact ⟨changed, first, second, sound⟩

/-- In every run on a new pair without fees, each step that goes through leaves a share worth as
much as before at least, and the supply at the minimum at least once there are shares. A swap
never lowers the product of the reserves. -/
theorem shares_keep_value (market : Market) (world : World) (reached : Reached (call market) (Opened market) (Allowed market) world)
    (step : Step) (allowed : Allowed market world step) (after : World) (done : call market world step = .ok after) :
    ∃ pair changed, world.at_ asPair market.pair = some pair ∧ after.at_ asPair market.pair = some changed ∧
      (pair.totalSupply ≠ 0 → shareValue pair ≤ shareValue changed ∧
        DEXV2Pair.minimumLiquidity ≤ pair.totalSupply ∧ DEXV2Pair.minimumLiquidity ≤ changed.totalSupply) ∧
      ∀ amount0Out amount1Out «to», step.operation = .swap amount0Out amount1Out «to» → product pair ≤ product changed := by
  obtain ⟨pair, first, second, sound⟩ := reached_sound reached
  obtain ⟨answer, yields⟩ := call_yields done
  obtain ⟨changed, first', second', sound', gains, more⟩ := step_gained sound allowed yields
  refine ⟨pair, changed, sound.placed.here, sound'.placed.here, ?_, more⟩
  intro filled
  have some_ : pair.totalSupply.toNat ≠ 0 := fun none_ => filled (BitVec.eq_of_toNat_eq none_)
  exact ⟨gains.value some_, BitVec.le_def.mpr (sound.locked.supply some_), BitVec.le_def.mpr (gains.locked.supply (gains.supply some_))⟩

/-- A new pair at 3 of the tokens at 1 and 2, and its factory at 4. -/
private theorem one_ne_two : (1 : Address) ≠ 2 := by decide

private theorem one_ne_three : (1 : Address) ≠ 3 := by decide

private theorem two_ne_three : (2 : Address) ≠ 3 := by decide

def newMarket : Market :=
  { pair := 3, token0 := 1, token1 := 2, apart := one_ne_two, apart0 := one_ne_three, apart1 := two_ne_three }

def coin (name : String) : ERC20 :=
  { name, symbol := name, decimals := 18, totalSupply := 1000000
    balances := (default : Table Address Uint256).modify 9 fun _ => 1000000 }

def newPair : DEXV2Pair :=
  { name := "DEX V2", symbol := "DEX-V2", decimals := 18, balances := (default : Table Address Uint256).modify 4 fun _ => 0
    factory := 4, token0 := 1, token1 := 2 }

def newWorld : World where
  contracts := [(1, .erc20 (coin "A")), (2, .erc20 (coin "B")), (3, .pair newPair), (4, .factory { feeToSetter := 9 })]
  native _ := 0

theorem newWorld_new : New newMarket newWorld newPair (coin "A") (coin "B") := by
  have unapproved : ∀ token contract, newWorld.at_ asERC20 token = some contract → Unapproved 3 contract := by
    intro token contract known spender
    by_cases first : 1 = token
    · subst first
      cases known
      rfl
    · by_cases second : 2 = token
      · subst second
        cases known
        rfl
      · by_cases third : 3 = token
        · subst third
          cases known
          rfl
        · by_cases fourth : 4 = token
          · subst fourth
            cases known
          · simp only [World.at_, newWorld, Registry.find, first, second, third, fourth, if_false] at known
            cases known
  refine ⟨⟨rfl, rfl, rfl, rfl, rfl, unapproved⟩, by decide, ?_, rfl, rfl, 4, _, rfl, rfl⟩
  intro factory known
  cases known
  rfl

def by9 (operation : Operation) : Step :=
  { around := { sha3 := fun _ => 0, chainOwner := 8, origin := 9, timestamp := 1000000 }, caller := 9, operation }

/-- The first mint, for 10000 and 40000, and another payment. -/
def funded : World :=
  ([.transfer 1 3 10000, .transfer 2 3 40000, .mint 9, .transfer 1 3 1000].map by9).foldl (attempt (call newMarket)) newWorld

theorem funded_reached : Reached (call newMarket) (Opened newMarket) (Allowed newMarket) funded := by
  have opened : Opened newMarket newWorld := ⟨_, _, _, newWorld_new⟩
  have first : Reached (call newMarket) (Opened newMarket) (Allowed newMarket) newWorld := .start opened
  have notPair : (9 : Address) ≠ 3 := by decide
  have notZero : (9 : Address) ≠ 0 := by decide
  have allowed : ∀ world operation, Allowed newMarket world (by9 operation) := fun _ _ => ⟨notPair, fun _ => notZero⟩
  exact (((first.step _ (allowed _ _)).step _ (allowed _ _)).step _ (allowed _ _)).step _ (allowed _ _)

/-- A swap of the thousand for 3626 of the other token. -/
def traded : World := attempt (call newMarket) funded (by9 (.swap 0 3626 9))

theorem traded_keeps_value : ∃ pair changed, funded.at_ asPair 3 = some pair ∧ traded.at_ asPair 3 = some changed ∧
    shareValue pair ≤ shareValue changed ∧ product pair ≤ product changed := by
  have done : call newMarket funded (by9 (.swap 0 3626 9)) = .ok traded := attempt_done (by decide +kernel)
  obtain ⟨pair, changed, here, there, value, more⟩ :=
    shares_keep_value newMarket funded funded_reached (by9 (.swap 0 3626 9)) ⟨by decide, fun _ => by decide⟩ traded done
  have supply : (funded.at_ asPair newMarket.pair).map (fun pair => pair.totalSupply) = some 20000 := by decide +kernel
  have supply : pair.totalSupply = 20000 := by
    rw [here] at supply
    exact Option.some.inj supply
  have filled : pair.totalSupply ≠ 0 := by
    rw [supply]
    decide
  exact ⟨pair, changed, here, there, (value filled).1, more _ _ _ rfl⟩

end OrbiterSDK.Proofs.ShareValue
