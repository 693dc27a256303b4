import OrbiterSDK.Proofs.PairCalls
import OrbiterSDK.Proofs.PairRegistry
import OrbiterSDK.Proofs.Payments

/-! What the functions of a pair pay and issue, for the books of everyone. -/

namespace OrbiterSDK.Proofs.PairPayments
open Lib Atomic DEXV2 DexCalls TokenSupply PairSteps PairCalls Markets Flow Payments

/-- The shares that go to the account for the fees. -/
def feeOf (feeTo : Address) (pair : DEXV2Pair) : ℕ := if feeTo = 0 then 0 else feeDue pair

/-- The shares that nobody gets. -/
def lockedOf (pair : DEXV2Pair) : ℕ := if pair.totalSupply = 0 then 1000 else 0

variable {world after : World} {pair changed : DEXV2Pair} {shares token minted : ERC20} {address feeTo account holder «to» : Address}
  {amount : Uint256} {around : Around}

theorem SameDue.feeDue (due : SameDue pair changed) : PairSteps.feeDue changed = PairSteps.feeDue pair := by
  unfold PairSteps.feeDue
  rw [due.kLast, due.reserve0, due.reserve1, due.supply]

theorem SameDue.feeOf (due : SameDue pair changed) : feeOf feeTo changed = feeOf feeTo pair := by
  unfold PairPayments.feeOf
  rw [SameDue.feeDue due]

variable (address) in
theorem minted_here (done : token.mintValue_ account amount = .ok minted) (holder : Address) :
    ((minted.balanceOf holder).toNat : ℤ) = (token.balanceOf holder).toNat +
      (give (some address) account amount.toNat : Flow Asset Address) (some address) holder :=
  credited_here (mint_adds done).1 rfl holder

variable (address) in
theorem charged_here (charged : Charged pair feeTo shares) (holder : Address) :
    ((shares.balanceOf holder).toNat : ℤ) = (pair.balanceOf holder).toNat +
      (give (some address) feeTo (feeOf feeTo pair) : Flow Asset Address) (some address) holder := by
  cases charged with
  | free nothing =>
    have zero : feeOf feeTo pair = 0 := by
      obtain nobody | nothing := nothing
      · exact if_pos nobody
      · unfold feeOf
        rw [nothing, ite_self]
    rw [zero, give_zero]
    exact (add_zero _).symm
  | paid someone _ due mint =>
    have fee : feeOf feeTo pair = _ := (if_neg someone).trans due.symm
    rw [fee]
    exact minted_here address mint holder

theorem charged_empty (charged : Charged pair feeTo shares) : shares.totalSupply = 0 ↔ pair.totalSupply = 0 := by
  cases charged with
  | free => exact Iff.rfl
  | paid _ some_ due mint =>
    have supply := (mint_adds mint).2.1
    constructor
    · intro empty
      rw [empty, due] at supply
      change 0 = _ at supply
      omega
    · intro empty
      have zero : PairSteps.feeDue pair = 0 := by
        unfold PairSteps.feeDue
        have none_ : pair.totalSupply.toNat = 0 := congrArg BitVec.toNat empty
        simp only [none_, Nat.zero_mul, Nat.zero_div, ite_self]
      exact absurd zero some_

variable (address) in
theorem provided_here {amount0 amount1 liquidity : Uint256} (provided : Provided pair amount0 amount1 liquidity token) (holder : Address) :
    ((token.balanceOf holder).toNat : ℤ) = (pair.balanceOf holder).toNat +
      (give (some address) 0 (lockedOf pair) : Flow Asset Address) (some address) holder := by
  unfold Provided at provided
  unfold lockedOf
  split at provided
  case isTrue empty =>
    rw [if_pos empty]
    exact minted_here address provided holder
  case isFalse filled =>
    rw [if_neg filled, provided.1, give_zero]
    exact (add_zero _).symm

theorem pairWrite_booked (known : world.at_ asPair address = some pair) (same : changed.toERC20 = pair.toERC20) :
    Booked 0 world (world.put asPair address changed) := by
  apply written_booked (pair_written known) (pair_shares known) rfl
  · exact fun _ _ _ => rfl
  · intro holder
    rw [same]
    exact (add_zero _).symm

/-- A mint issues shares: for the fees, for nobody, and for the receiver. -/
structure Issued (address «to» : Address) (liquidity : Uint256) (world after : World) (pair : DEXV2Pair) (factory : DEXV2Factory) : Prop where
  here : world.at_ asPair address = some pair
  charged : world.at_ asFactory pair.factory = some factory
  some_ : liquidity.toNat ≠ 0
  booked : Booked (give (some address) factory.feeTo (feeOf factory.feeTo pair) + give (some address) 0 (lockedOf pair) +
    give (some address) «to» liquidity.toNat) world after
  steady : Steady world after

theorem toNat_ne_zero (some_ : amount ≠ 0) : amount.toNat ≠ 0 := fun zero => some_ (BitVec.eq_of_toNat_eq zero)

theorem callMint_issued {liquidity : Uint256} (done : Yields (DEXV2Pair.callMint around address «to») world liquidity after) :
    ∃ pair factory, Issued address «to» liquidity world after pair factory := by
  obtain ⟨run⟩ := callMint_run done
  have minted := mint_minted run.minted
  obtain ⟨charged, provided, pool, fees, filled, made⟩ := minted.shares
  rw [run.written]
  refine ⟨run.pair, run.factory, run.trading.here, run.charged, toNat_ne_zero minted.some_, ?_, ?_⟩
  · apply written_booked (pair_written run.trading.here) (pair_shares run.trading.here) rfl
    · intro asset holder apart
      change give (some address) _ _ asset holder + give (some address) _ _ asset holder + give (some address) _ _ asset holder = 0
      rw [give_asset apart, give_asset apart, give_asset apart]
      rfl
    · intro holder
      have empty := charged_empty fees
      have locked : lockedOf charged = lockedOf run.pair := by
        unfold lockedOf
        simp only [empty]
      rw [minted_here address made holder, provided_here address filled holder,
        charged_here address fees holder, locked]
      change _ = _ + (give _ _ _ _ _ + give _ _ _ _ _ + give _ _ _ _ _)
      abel
  · exact pairWrite_steady run.trading.here minted.noted.toSamePlaces

/-- A burn destroys the shares that the pair has, and pays for them. -/
structure Redeemed (address «to» : Address) (amounts : Uint256 × Uint256) (world after : World) (pair : DEXV2Pair)
    (factory : DEXV2Factory) : Prop where
  here : world.at_ asPair address = some pair
  charged : world.at_ asFactory pair.factory = some factory
  some0 : amounts.1.toNat ≠ 0
  some1 : amounts.2.toNat ≠ 0
  booked : Booked (give (some address) factory.feeTo (feeOf factory.feeTo pair) -
    give (some address) address (pair.balanceOf address).toNat + pay (some pair.token0) address «to» amounts.1.toNat +
    pay (some pair.token1) address «to» amounts.2.toNat) world after
  steady : Steady world after

theorem callBurn_redeemed {amounts : Uint256 × Uint256} (done : Yields (DEXV2Pair.callBurn around address «to») world amounts after) :
    ∃ pair factory, Redeemed address «to» amounts world after pair factory := by
  obtain ⟨run⟩ := callBurn_run done
  have burnt := burnShares_ok run.burnt
  obtain ⟨charged, fees, _, burn, _⟩ := burnt.shares
  suffices redeemed : ∃ pair factory, Redeemed address «to» (run.burning.amount0, run.burning.amount1) world
      (run.paid.put asPair address run.changed) pair factory by
    obtain ⟨pair, factory, redeemed⟩ := redeemed
    rw [← run.amounts_eq, ← run.written] at redeemed
    exact ⟨pair, factory, redeemed⟩
  have shares : Booked (give (some address) run.factory.feeTo (feeOf run.factory.feeTo run.pair) -
      give (some address) address (run.pair.balanceOf address).toNat) world (world.put asPair address run.burning.pair) := by
    apply written_booked (pair_written run.trading.here) (pair_shares run.trading.here) rfl
    · intro asset holder apart
      change give (some address) _ _ asset holder - give (some address) _ _ asset holder = 0
      rw [give_asset apart, give_asset apart]
      rfl
    · intro holder
      have taken := (debit_takes (burn_takes burn).1).2 holder
      have more := charged_here address fees holder
      change _ = _ + (give (some address) _ _ (some address) holder - give (some address) address _ (some address) holder)
      rw [balanceOf_eq] at more ⊢
      rw [← add_sub_assoc, ← more]
      unfold give
      simp only [true_and]
      split_ifs at taken ⊢ <;> omega
  obtain ⟨first, idle⟩ := transfer_booked run.paidFirst
  obtain ⟨second, idle'⟩ := transfer_booked run.paidSecond
  obtain ⟨noted, kept⟩ := settle_ok run.settled
  have last := pairWrite_booked run.foundLast kept
  have steady := pairWrite_steady run.trading.here burnt.pool.toSamePlaces
  refine ⟨run.pair, run.factory, run.trading.here, run.charged, toNat_ne_zero burnt.some_.1, toNat_ne_zero burnt.some_.2, ?_, ?_⟩
  · exact (((shares.trans first).trans second).trans last).congr (add_zero _)
  · exact ((steady.trans idle.steady).trans idle'.steady).trans (pairWrite_steady run.foundLast noted.toSamePlaces)

theorem paid_booked {source token : Address} (paid : Paid source token «to» amount world after) :
    Booked (pay (some token) source «to» amount.toNat) world after ∧ Idle world after := by
  unfold Paid at paid
  split at paid
  case isTrue => exact transfer_booked paid
  case isFalse nothing =>
    have zero : amount.toNat = 0 := Nat.eq_zero_of_not_pos fun some_ => nothing (BitVec.lt_def.mpr some_)
    rw [zero, pay_zero, paid]
    exact ⟨.refl _, .refl _⟩

/-- A swap pays, and nothing else. -/
structure Swapped (address «to» : Address) (amount0Out amount1Out : Uint256) (world after : World) (pair : DEXV2Pair) : Prop where
  here : world.at_ asPair address = some pair
  some_ : ¬ (amount0Out = 0 ∧ amount1Out = 0)
  booked : Booked (pay (some pair.token0) address «to» amount0Out.toNat + pay (some pair.token1) address «to» amount1Out.toNat) world after
  steady : Steady world after

theorem callSwap_swapped {amount0Out amount1Out : Uint256} {answer : Unit}
    (done : Yields (DEXV2Pair.callSwap around address amount0Out amount1Out «to») world answer after) :
    ∃ pair, Swapped address «to» amount0Out amount1Out world after pair := by
  obtain ⟨run⟩ := callSwap_run done
  obtain ⟨some_, _⟩ := guard_eq_ok.mp run.guarded
  obtain ⟨first, idle⟩ := paid_booked run.paidFirst
  obtain ⟨second, idle'⟩ := paid_booked run.paidSecond
  obtain ⟨noted, kept, _⟩ := swapEnd_ok run.ended
  have last := pairWrite_booked run.foundLast kept
  rw [run.written]
  refine ⟨run.pair, run.here, some_, ?_, ?_⟩
  · exact ((first.trans second).trans last).congr (add_zero _)
  · exact (idle.steady.trans idle'.steady).trans (pairWrite_steady run.foundLast noted.toSamePlaces)

theorem created_balance {creator : Address} (created : DEXV2Pair.create creator = .ok pair) : (pair.balanceOf holder).toNat = 0 := by
  obtain ⟨token, minted, rfl⟩ := build_eq_ok.mp created
  change (token.balanceOf holder).toNat = 0
  rw [balanceOf_eq, credit_adds (mint_adds minted).1]
  split
  · rfl
  · rfl

theorem not_deployed {τ : Type} {as_ : Cast τ} (new : address ∉ world.contracts.keys) : world.at_ as_ address = none := by
  rw [Option.eq_none_iff_forall_ne_some]
  intro value known
  exact new (PairRegistry.at_mem_keys known)

private theorem created_empty {creator : Address} (created : DEXV2Pair.create creator = .ok pair) : pair.kLast = 0 ∧ pair.totalSupply = 0 := by
  obtain ⟨token, minted, rfl⟩ := build_eq_ok.mp created
  exact ⟨rfl, BitVec.eq_of_toNat_eq (mint_adds minted).2.1⟩

/-- A contract of a pair that has just been constructed. -/
theorem add_booked {creator : Address} (new : address ∉ world.contracts.keys) (created : DEXV2Pair.create creator = .ok pair) :
    Booked 0 world { world with contracts := world.contracts.add address (.pair pair) } := by
  intro asset holder
  change _ = _ + (0 : ℤ)
  rw [add_zero]
  cases asset with
  | none => rfl
  | some token =>
    by_cases same : token = address
    · subst same
      have known : ({ world with contracts := world.contracts.add token (.pair pair) } : World).at_ asERC20 token = some pair.toERC20 :=
        (PairRegistry.at_add asERC20 _ new).trans (if_pos rfl)
      rw [holding_known known, created_balance created]
      unfold holding
      dsimp only
      rw [not_deployed new]
      rfl
    · rw [holding_congr ((PairRegistry.at_add asERC20 _ new).trans (if_neg same))]

theorem factoryWrite_booked {old new : DEXV2Factory} (known : world.at_ asFactory address = some old) :
    Booked 0 world (world.put asFactory address new) := by
  have later : (world.put asFactory address new).at_ asFactory address = some new := at_put_self known
  intro asset holder
  change _ = _ + (0 : ℤ)
  rw [add_zero]
  cases asset with
  | none => rfl
  | some token =>
    rw [holding_congr]
    by_cases same : token = address
    · rw [same, (factory_other known).1, (factory_other later).1]
    · exact at_put_of_ne _ same

theorem router_other {router : DEXV2Router02} (isRouter : world.at_ asRouter address = some router) :
    world.at_ asERC20 address = none ∧ world.at_ asFactory address = none := by
  obtain ⟨contract, found, viewed⟩ := at_found isRouter
  unfold World.at_
  rw [found]
  cases contract with
  | router given => exact ⟨rfl, rfl⟩
  | erc20 | nativeWrapper | pair | factory => cases viewed

/-- A pair that is created has nothing, and nothing is moved. -/
structure Opened (address created : Address) (world after : World) : Prop where
  booked : Booked 0 world after
  routers : ∀ other router, world.at_ asRouter other = some router → after.at_ asRouter other = some router
  empty : ∃ pair, after.at_ asPair created = some pair ∧ pair.kLast = 0 ∧ pair.totalSupply = 0
  factories : ∀ other, other ≠ address → after.at_ asFactory other = world.at_ asFactory other

theorem createPair_opened {tokenA tokenB created : Address}
    (done : Yields (DEXV2Factory.createPair around address tokenA tokenB) world created after) : Opened address created world after := by
  obtain ⟨_, rest⟩ := yields_require_bind.mp done
  obtain ⟨_, rest⟩ := yields_require_bind.mp rest
  obtain ⟨factory, here, rest⟩ := yields_getContract_bind.mp rest
  obtain ⟨_, rest⟩ := yields_require_bind.mp rest
  obtain ⟨deployed, between, creating, rest⟩ := yields_bind.mp rest
  obtain ⟨pair, changed, found, initialising, rest⟩ := yields_callContractFunction_bind.mp rest
  obtain ⟨old, registered, known, registering, rest⟩ := yields_callContractFunction_bind.mp rest
  obtain ⟨same, kept⟩ := pure_yields rest
  obtain ⟨new, contract, constructed, added⟩ := PairRegistry.callCreateContract_yields creating
  obtain ⟨_, initialised⟩ := guard_eq_ok.mp initialising
  have shares : changed.toERC20 = pair.toERC20 := by
    cases initialised
    rfl
  have empty : changed.kLast = 0 ∧ changed.totalSupply = 0 := by
    obtain ⟨kLast, supply⟩ := created_empty constructed
    subst added
    cases ((PairRegistry.at_add asPair (.pair contract) new).trans (if_pos rfl)).symm.trans found
    cases initialised
    exact ⟨kLast, supply⟩
  have elsewhere : address ≠ deployed := fun equal => new (equal ▸ PairRegistry.at_mem_keys here)
  subst added
  have unchanged : old = factory := by
    rw [at_put_of_ne _ elsewhere, PairRegistry.at_add _ _ new, if_neg elsewhere, here] at known
    exact (Option.some.inj known).symm
  subst unchanged
  constructor
  case booked =>
    have last : Booked 0 _ after := kept ▸ factoryWrite_booked known
    exact (((add_booked new constructed).trans (pairWrite_booked found shares)).trans last).congr ((add_zero _).trans (add_zero _))
  case routers =>
    intro other router isRouter
    have apart : other ≠ deployed := fun same => new (same ▸ PairRegistry.at_mem_keys isRouter)
    have apart' : other ≠ address := by
      intro same
      rw [← same, (router_other isRouter).2] at here
      cases here
    rw [← kept, at_put_of_ne _ apart', at_put_of_ne _ apart, PairRegistry.at_add _ _ new, if_neg apart]
    exact isRouter
  case empty =>
    rw [← kept, ← same, at_put_of_ne _ elsewhere.symm, at_put_self found]
    exact ⟨changed, rfl, empty⟩
  case factories =>
    intro other apart
    rw [← kept, at_put_of_ne _ apart]
    by_cases same : other = deployed
    · rw [same, token_not_factory (pair_shares (at_put_self found)), not_deployed new]
    · rw [at_put_of_ne _ same, PairRegistry.at_add _ _ new, if_neg same]

end OrbiterSDK.Proofs.PairPayments
