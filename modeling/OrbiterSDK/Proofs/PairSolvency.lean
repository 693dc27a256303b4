import OrbiterSDK.Proofs.MarketCalls
import OrbiterSDK.Proofs.PairRegistry
import OrbiterSDK.Proofs.RouterKeeps

/-! Solvency of a pair: whatever anyone calls, its reserves are among what it holds of its
tokens. Every function of the pair that pays out notes its reserves anew, or pays only what
exceeds them. -/

namespace OrbiterSDK.Proofs.PairSolvency
open Lib Atomic DEXV2 DexCalls PairCalls PairSteps Markets MarketCalls TokenSupply

variable {market : Market}

def Solvent (market : Market) (world : World) : Prop :=
  ∃ pair first second, Placed market world pair first second ∧ Covered market pair first second

variable {world after : World} {pair changed : DEXV2Pair} {first second old new : ERC20} {address caller : Address}

theorem spared_solvent (solvent : Solvent market world) (known : world.at_ asERC20 address = some old)
    (written : Written world after address new) (spares : Spares market.pair old new)
    (kept : ∀ pair, world.at_ asPair market.pair = some pair → ∃ changed, after.at_ asPair market.pair = some changed ∧ SamePool pair changed) :
    Solvent market after := by
  obtain ⟨pair, first, second, placed, covered⟩ := solvent
  obtain ⟨changed, here, pool⟩ := kept pair placed.here
  obtain ⟨first', second', placed', more0, more1⟩ := placed.spared known written spares here pool.toSamePlaces
  refine ⟨changed, first', second', placed', ?_, ?_⟩
  · rw [pool.reserve0]
    exact covered.first.trans more0
  · rw [pool.reserve1]
    exact covered.second.trans more1

theorem solvent_unapproved (solvent : Solvent market world) (known : world.at_ asERC20 address = some old) : Unapproved market.pair old := by
  obtain ⟨_, _, _, placed, _⟩ := solvent
  exact placed.unapproved address old known

theorem solvent_congr (solvent : Solvent market world) (same : ∀ address, after.at_ asPair address = world.at_ asPair address ∧
    after.at_ asERC20 address = world.at_ asERC20 address) : Solvent market after := by
  obtain ⟨pair, first, second, placed, covered⟩ := solvent
  refine ⟨pair, first, second, ?_, covered⟩
  exact {
    here := (same _).1.trans placed.here
    token0 := placed.token0
    token1 := placed.token1
    first := (same _).2.trans placed.first
    second := (same _).2.trans placed.second
    unapproved := fun token contract known => placed.unapproved token contract ((same token).2.symm.trans known) }

theorem tokenCall_keeps (address : Address) {function : ERC20 → Except Exception ERC20}
    (spares : ∀ old new, Unapproved market.pair old → function old = .ok new → Spares market.pair old new) :
    Keeps (Solvent market) (callContractFunction asERC20 address function) := by
  intro world answer after solvent done
  obtain ⟨old, new, known, computed, rfl⟩ := callContractFunction_yields done
  apply spared_solvent solvent known (token_written known) (spares old new (solvent_unapproved solvent known) computed)
  intro pair here
  by_cases same : market.pair = address
  · subst same
    exact ⟨_, pair_put_shares here, ⟨rfl, rfl, rfl⟩, rfl, rfl⟩
  · exact ⟨pair, (at_put_of_ne _ same).trans here, .refl pair⟩

theorem wrapperCall_keeps (address : Address) {function : ERC20 → Except Exception ERC20}
    (spares : ∀ old new, Unapproved market.pair old → function old = .ok new → Spares market.pair old new) :
    Keeps (Solvent market) (callContractFunction asNativeWrapper address function) := by
  intro world answer after solvent done
  obtain ⟨old, new, known, computed, rfl⟩ := callContractFunction_yields done
  obtain ⟨isToken, noPair⟩ := wrapper_token known
  apply spared_solvent solvent isToken (wrapper_written known) (spares old new (solvent_unapproved solvent isToken) computed)
  intro pair here
  have apart : market.pair ≠ address := by
    intro same
    rw [same, noPair] at here
    cases here
  exact ⟨pair, (at_put_of_ne _ apart).trans here, .refl pair⟩

variable {token source target spender : Address} {amount : Uint256}

theorem transfer_keeps (apart : caller ≠ market.pair) : Keeps (Solvent market) (transfer caller token target amount) :=
  tokenCall_keeps token fun _ _ unapproved done => transfer_spares unapproved apart done

theorem transferFrom_keeps : Keeps (Solvent market) (transferFrom caller token source target amount) :=
  tokenCall_keeps token fun _ _ unapproved done => transferFrom_spares unapproved done

theorem approve_keeps (apart : caller ≠ market.pair) : Keeps (Solvent market) (approve caller token spender amount) := by
  apply tokenCall_keeps token
  intro old new unapproved done
  cases done
  exact approve_spares unapproved apart

theorem deposit_keeps : Keeps (Solvent market) (NativeWrapper.deposit token caller amount) :=
  wrapperCall_keeps token fun _ _ unapproved done => grown_spares unapproved (mint_grown done)

theorem sendTokens_keeps : Keeps (Solvent market) (sendTokens source target amount) := by
  intro world answer after solvent done
  have rest := yields_get_bind.mp done
  obtain ⟨_, rest⟩ := yields_require_bind.mp rest
  obtain ⟨left, _, rest⟩ := yields_checked_bind.mp rest
  obtain ⟨sum, _, rest⟩ := yields_checked_bind.mp rest
  rw [modify_yields rest]
  exact solvent_congr solvent fun _ => ⟨rfl, rfl⟩

theorem withdraw_keeps (apart : caller ≠ market.pair) : Keeps (Solvent market) (NativeWrapper.withdraw token caller amount) := by
  apply Keeps.bind
  · exact wrapperCall_keeps token fun _ _ unapproved done => burn_spares unapproved apart done
  · exact fun _ => sendTokens_keeps

theorem otherPair_solvent (solvent : Solvent market world) (known : world.at_ asPair address = some pair) (apart : address ≠ market.pair)
    (spares : Unapproved market.pair pair.toERC20 → Spares market.pair pair.toERC20 changed.toERC20) :
    Solvent market (world.put asPair address changed) := by
  have isToken := pair_shares known
  apply spared_solvent solvent isToken (pair_written known) (spares (solvent_unapproved solvent isToken))
  intro pair here
  exact ⟨pair, (at_put_of_ne _ apart.symm).trans here, .refl pair⟩

variable {around : Around} {«to» : Address}

theorem noted_covered (noted : Noted pair changed (first.balanceOf market.pair) (second.balanceOf market.pair)) :
    Covered market changed first second := ⟨noted.reserve0.le, noted.reserve1.le⟩

theorem callMint_keeps : Keeps (Solvent market) (DEXV2Pair.callMint around address «to») := by
  intro world liquidity after solvent done
  obtain ⟨run⟩ := callMint_run done
  by_cases here : address = market.pair
  · subst here
    obtain ⟨pair, first, second, placed, _⟩ := solvent
    obtain ⟨_, _, _, placed', noted⟩ := mint_market placed run
    exact ⟨_, _, _, placed', noted_covered noted⟩
  · rw [run.written]
    exact otherPair_solvent solvent run.trading.here here fun unapproved => grown_spares unapproved (mint_ok run.minted).2.1

theorem callBurn_keeps : Keeps (Solvent market) (DEXV2Pair.callBurn around address «to») := by
  intro world amounts after solvent done
  obtain ⟨run⟩ := callBurn_run done
  by_cases here : address = market.pair
  · subst here
    obtain ⟨pair, first, second, placed, _⟩ := solvent
    obtain ⟨_, _, _, first', second', _, _, placed', noted, _⟩ := burn_market placed run
    exact ⟨_, _, _, placed', noted_covered noted⟩
  · have spares : Unapproved market.pair run.pair.toERC20 → Spares market.pair run.pair.toERC20 run.burning.pair.toERC20 := by
      intro unapproved
      obtain ⟨charged, fees, _, burn, _⟩ := (burnShares_ok run.burnt).shares
      have more := grown_spares unapproved fees.grown
      exact more.trans (burn_spares more.unapproved here burn)
    have between := otherPair_solvent solvent run.trading.here here spares
    have between := transfer_keeps here _ _ _ between run.paidFirst
    have between := transfer_keeps here _ _ _ between run.paidSecond
    rw [run.written]
    apply otherPair_solvent between run.foundLast here
    intro unapproved
    rw [(settle_ok run.settled).2]
    exact .refl unapproved

theorem paid_keeps {amountOut : Uint256} (here : address ≠ market.pair) (solvent : Solvent market world)
    (paid : Paid address token «to» amountOut world after) : Solvent market after := by
  unfold Paid at paid
  split at paid
  case isTrue => exact transfer_keeps here _ _ _ solvent paid
  case isFalse =>
    rw [paid]
    exact solvent

theorem callSwap_keeps {amount0Out amount1Out : Uint256} :
    Keeps (Solvent market) (DEXV2Pair.callSwap around address amount0Out amount1Out «to») := by
  intro world answer after solvent done
  obtain ⟨run⟩ := callSwap_run done
  by_cases here : address = market.pair
  · subst here
    obtain ⟨pair, first, second, placed, _⟩ := solvent
    obtain ⟨_, _, _, ended, placed'⟩ := swap_market placed run
    exact ⟨_, _, _, placed', noted_covered (swapEnd_ok ended).1⟩
  · have between := paid_keeps here (paid_keeps here solvent run.paidFirst) run.paidSecond
    rw [run.written]
    apply otherPair_solvent between run.foundLast here
    intro unapproved
    rw [(swapEnd_ok run.ended).2.1]
    exact .refl unapproved

theorem callSkim_keeps : Keeps (Solvent market) (DEXV2Pair.callSkim address «to») := by
  intro world answer after solvent done
  obtain ⟨run⟩ := callSkim_run done
  by_cases here : address = market.pair
  · subst here
    obtain ⟨pair, first, second, placed, _⟩ := solvent
    obtain ⟨same, sameFirst, sameSecond, first', second', pays, pays', placed'⟩ := skim_market placed run
    have over0 := run.over0
    have over1 := run.over1
    rw [same, sameFirst] at over0
    rw [same, sameSecond] at over1
    exact ⟨pair, first', second', placed', excess_left over0 pays, excess_left over1 pays'⟩
  · exact transfer_keeps here _ _ _ (transfer_keeps here _ _ _ solvent run.paidFirst) run.paidSecond

theorem callSync_keeps : Keeps (Solvent market) (DEXV2Pair.callSync around address) := by
  intro world answer after solvent done
  obtain ⟨run⟩ := callSync_run done
  by_cases here : address = market.pair
  · subst here
    obtain ⟨pair, first, second, placed, _⟩ := solvent
    obtain ⟨_, placed', _, noted⟩ := sync_market placed run
    exact ⟨_, _, _, placed', noted_covered noted⟩
  · rw [run.written]
    apply otherPair_solvent solvent run.trading.here here
    intro unapproved
    rw [(update_ok run.updated).2]
    exact .refl unapproved

theorem factoryCall_keeps {function : DEXV2Factory → Except Exception DEXV2Factory} :
    Keeps (Solvent market) (callContractFunction asFactory address function) := by
  intro world answer after solvent done
  obtain ⟨old, new, known, _, rfl⟩ := callContractFunction_yields done
  apply solvent_congr solvent
  intro other
  by_cases same : other = address
  · rw [same]
    have before := factory_other known
    have later := factory_other (at_put_self known : (world.put asFactory address new).at_ asFactory address = some new)
    exact ⟨later.2.trans before.2.symm, later.1.trans before.1.symm⟩
  · exact ⟨at_put_of_ne _ same, at_put_of_ne _ same⟩

theorem create_unapproved {contract : DEXV2Pair} {creator holder : Address} (created : DEXV2Pair.create creator = .ok contract) :
    Unapproved holder contract.toERC20 := by
  obtain ⟨token, minted, rfl⟩ := build_eq_ok.mp created
  obtain ⟨_, _, allowed⟩ := mint_adds minted
  intro spender
  rw [allowance_eq]
  change (token.allowed.value holder).value spender = 0
  rw [allowed]
  rfl

theorem add_solvent (solvent : Solvent market world) (fresh : address ∉ world.contracts.keys) (unapproved : Unapproved market.pair pair.toERC20) :
    Solvent market { world with contracts := world.contracts.add address (.pair pair) } := by
  obtain ⟨held, first, second, placed, covered⟩ := solvent
  have look : ∀ {τ : Type} {as_ : Cast τ} {other value}, world.at_ as_ other = some value →
      ({ world with contracts := world.contracts.add address (.pair pair) } : World).at_ as_ other = some value := by
    intro τ as_ other value known
    rw [PairRegistry.at_add as_ _ fresh, if_neg]
    · exact known
    · intro same
      exact fresh (same ▸ PairRegistry.at_mem_keys known)
  refine ⟨held, first, second, ?_, covered⟩
  refine { placed with here := look placed.here, first := look placed.first, second := look placed.second, unapproved := ?_ }
  intro token contract known
  rw [PairRegistry.at_add asERC20 _ fresh] at known
  split at known
  case isTrue =>
    cases known
    exact unapproved
  case isFalse => exact placed.unapproved token contract known

private theorem solvent_mem_keys (solvent : Solvent market world) : market.pair ∈ world.contracts.keys := by
  obtain ⟨_, _, _, placed, _⟩ := solvent
  exact PairRegistry.at_mem_keys placed.here

/-- Initialising a pair again is a matter of its creator. -/
theorem initialize_solvent {creator token0 token1 : Address} {answer : Unit} (solvent : Solvent market world)
    (settled : address = market.pair → ∀ pair, world.at_ asPair address = some pair → creator = pair.factory →
      token0 = market.token0 ∧ token1 = market.token1)
    (done : Yields (callContractFunction asPair address fun pair => pair.initializePair creator token0 token1) world answer after) :
    Solvent market after := by
  obtain ⟨pair, changed, known, initialised, rfl⟩ := callContractFunction_yields done
  obtain ⟨isCreator, same⟩ := guard_eq_ok.mp initialised
  cases same
  by_cases here : address = market.pair
  · obtain ⟨same0, same1⟩ := settled here pair known (not_not.mp isCreator).symm
    subst here same0 same1
    obtain ⟨held, first, second, placed, covered⟩ := solvent
    cases placed.here.symm.trans known
    have places : SamePlaces pair { pair with token0 := market.token0, token1 := market.token1 } :=
      ⟨rfl, placed.token0.symm, placed.token1.symm⟩
    have unapproved : Unapproved market.pair pair.toERC20 := shares_unapproved placed
    refine ⟨_, first, second, self_placed placed ?_ places rfl, covered.first, covered.second⟩
    exact unapproved
  · exact otherPair_solvent solvent known here fun unapproved => .refl unapproved

theorem createPair_keeps {tokenA tokenB : Address} : Keeps (Solvent market) (DEXV2Factory.createPair around address tokenA tokenB) := by
  intro world pair after solvent done
  obtain ⟨_, rest⟩ := yields_require_bind.mp done
  obtain ⟨_, rest⟩ := yields_require_bind.mp rest
  obtain ⟨factory, _, rest⟩ := yields_getContract_bind.mp rest
  obtain ⟨_, rest⟩ := yields_require_bind.mp rest
  obtain ⟨deployed, between, creating, rest⟩ := yields_bind.mp rest
  obtain ⟨_, initialised, initialising, rest⟩ := yields_bind.mp rest
  obtain ⟨_, registered, registering, rest⟩ := yields_bind.mp rest
  obtain ⟨rfl, rfl⟩ := pure_yields rest
  obtain ⟨fresh, contract, created, rfl⟩ := PairRegistry.callCreateContract_yields creating
  have added := add_solvent solvent fresh (create_unapproved created)
  have elsewhere : deployed ≠ market.pair := fun same => fresh (same ▸ solvent_mem_keys solvent)
  have between := initialize_solvent added (fun here => absurd here elsewhere) initialising
  exact factoryCall_keeps _ _ _ between registering

theorem router_keeps {entry : DEXV2Router02.Entry} (apart : entry.self ≠ market.pair) (call : DEXV2Router02.Call) :
    Keeps (Solvent market) (DEXV2Router02.perform entry call) := by
  apply RouterKeeps.perform_keeps
  exact {
    transferFrom := fun _ _ _ _ => transferFrom_keeps
    transfer := fun _ _ _ => transfer_keeps apart
    deposit := fun _ _ => deposit_keeps
    withdraw := fun _ _ => withdraw_keeps apart
    sendTokens := fun _ _ => sendTokens_keeps
    createPair := fun _ _ => createPair_keeps
    callMint := fun _ _ => callMint_keeps
    callBurn := fun _ _ => callBurn_keeps
    callSwap := fun _ _ _ _ => callSwap_keeps }

/-- The functions that someone may call, of any contract. -/
inductive Request where
  | transfer (token «to» : Address) (value : Uint256)
  | transferFrom (token «from» «to» : Address) (value : Uint256)
  | approve (token spender : Address) (value : Uint256)
  | deposit (wrapper : Address) (value : Uint256)
  | withdraw (wrapper : Address) (value : Uint256)
  | initializePair (pair token0 token1 : Address)
  | mint (pair «to» : Address)
  | burn (pair «to» : Address)
  | swap (pair : Address) (amount0Out amount1Out : Uint256) («to» : Address)
  | skim (pair «to» : Address)
  | sync (pair : Address)
  | createPair (factory tokenA tokenB : Address)
  | setFeeTo (factory feeTo : Address)
  | setFeeToSetter (factory feeToSetter : Address)
  | router (router : Address) (value : Uint256) (call : DEXV2Router02.Call)

/-- A call, with the balances in native coins when it starts. -/
structure Call where
  around : Around
  caller : Address
  native : Address → Uint256
  request : Request

def perform (around : Around) (caller : Address) : Request → Run Unit
  | .transfer token «to» value => transfer caller token «to» value
  | .transferFrom token «from» «to» value => transferFrom caller token «from» «to» value
  | .approve token spender value => approve caller token spender value
  | .deposit wrapper value => NativeWrapper.deposit wrapper caller value
  | .withdraw wrapper value => NativeWrapper.withdraw wrapper caller value
  | .initializePair pair token0 token1 => callContractFunction asPair pair fun contract => contract.initializePair caller token0 token1
  | .mint pair «to» => do
    let _ ← DEXV2Pair.callMint around pair «to»
    pure ()
  | .burn pair «to» => do
    let _ ← DEXV2Pair.callBurn around pair «to»
    pure ()
  | .swap pair amount0Out amount1Out «to» => DEXV2Pair.callSwap around pair amount0Out amount1Out «to»
  | .skim pair «to» => DEXV2Pair.callSkim pair «to»
  | .sync pair => DEXV2Pair.callSync around pair
  | .createPair factory tokenA tokenB => do
    let _ ← DEXV2Factory.createPair around factory tokenA tokenB
    pure ()
  | .setFeeTo factory feeTo => DEXV2Factory.setFeeTo factory feeTo
  | .setFeeToSetter factory feeToSetter => DEXV2Factory.setFeeToSetter factory feeToSetter
  | .router address value call => do
    let router ← getContract asRouter address
    let _ ← DEXV2Router02.perform { around, self := address, router, caller, value } call
    pure ()

def call (world : World) (request : Call) : Except Exception World :=
  ((perform request.around request.caller request.request).run { world with native := request.native }).map Prod.snd

/-- A pair that has been initialised, and that has not done anything yet. -/
structure Deployed (market : Market) (world : World) : Prop where
  placed : ∃ pair first second, Placed market world pair first second ∧ pair.reserve0 = 0 ∧ pair.reserve1 = 0

/-- The pair calls nothing on its own, and whoever created it does not give it other tokens. -/
structure Allowed (market : Market) (world : World) (request : Call) : Prop where
  outside : request.caller ≠ market.pair
  settled : ∀ token0 token1 pair, request.request = .initializePair market.pair token0 token1 →
    world.at_ asPair market.pair = some pair → request.caller = pair.factory → token0 = market.token0 ∧ token1 = market.token1

theorem call_yields {request : Call} (done : call world request = .ok after) :
    ∃ answer, Yields (perform request.around request.caller request.request) { world with native := request.native } answer after :=
  run_eq_ok.mp done

theorem router_apart {router : DEXV2Router02} (solvent : Solvent market world) (known : world.at_ asRouter address = some router) :
    address ≠ market.pair := by
  obtain ⟨_, _, _, placed, _⟩ := solvent
  intro same
  subst same
  obtain ⟨contract, found, viewed⟩ := at_found known
  obtain ⟨contract', found', viewed'⟩ := at_found placed.here
  cases found.symm.trans found'
  cases contract with
  | router => cases viewed'
  | erc20 | nativeWrapper | pair | factory => cases viewed

theorem call_solvent {request : Call} (solvent : Solvent market world) (allowed : Allowed market world request)
    (done : call world request = .ok after) : Solvent market after := by
  obtain ⟨answer, yields⟩ := call_yields done
  have solvent : Solvent market { world with native := request.native } := solvent_congr solvent fun _ => ⟨rfl, rfl⟩
  obtain ⟨around, caller, native, request⟩ := request
  have outside : caller ≠ market.pair := allowed.outside
  have keeps : ∀ {α : Type} {code : Run α}, Keeps (Solvent market) code → Keeps (Solvent market) (do let _ ← code; pure ()) :=
    fun kept => kept.bind fun _ => .pure _
  cases request with
  | transfer => exact transfer_keeps outside _ _ _ solvent yields
  | transferFrom => exact transferFrom_keeps _ _ _ solvent yields
  | approve => exact approve_keeps outside _ _ _ solvent yields
  | deposit => exact deposit_keeps _ _ _ solvent yields
  | withdraw => exact withdraw_keeps outside _ _ _ solvent yields
  | initializePair pair token0 token1 =>
    apply initialize_solvent solvent _ yields
    intro here contract known isCreator
    subst here
    exact allowed.settled token0 token1 contract rfl known isCreator
  | mint => exact keeps callMint_keeps _ _ _ solvent yields
  | burn => exact keeps callBurn_keeps _ _ _ solvent yields
  | swap => exact callSwap_keeps _ _ _ solvent yields
  | skim => exact callSkim_keeps _ _ _ solvent yields
  | sync => exact callSync_keeps _ _ _ solvent yields
  | createPair => exact keeps createPair_keeps _ _ _ solvent yields
  | setFeeTo => exact factoryCall_keeps _ _ _ solvent yields
  | setFeeToSetter => exact factoryCall_keeps _ _ _ solvent yields
  | router address value call =>
    obtain ⟨router, known, rest⟩ := yields_getContract_bind.mp yields
    exact keeps (router_keeps (router_apart solvent known) call) _ _ _ solvent rest

theorem reached_solvent (reached : Reached call (Deployed market) (Allowed market) world) : Solvent market world := by
  apply reached.keeps
  · intro world deployed
    obtain ⟨pair, first, second, placed, empty0, empty1⟩ := deployed.placed
    refine ⟨pair, first, second, placed, ?_, ?_⟩
    · rw [empty0]
      exact Nat.zero_le _
    · rw [empty1]
      exact Nat.zero_le _
  · exact fun world request after solvent allowed done => call_solvent solvent allowed done

theorem amountIn_iff {balance amountOut : Uint256} {reserve : Uint112} : (∃ amount, DEXV2Pair.amountIn balance reserve amountOut = .ok amount) ↔
    amountOut.toNat ≤ reserve.toNat ∧ (balance.toNat + amountOut.toNat ≤ reserve.toNat ∨ reserve.toNat ≤ balance.toNat) := by
  constructor
  · rintro ⟨amount, done⟩
    obtain ⟨small, side, _⟩ := amountIn_ok done
    exact ⟨small, side⟩
  · rintro ⟨small, side⟩
    exact amountIn_done small side

/-- When the amount that came in can be computed. The pair must not pay more than its reserve,
nor just a part of what it holds beyond its reserve. -/
def CountsIn (reserve held amountOut : ℕ) (back : Prop) : Prop :=
  amountOut ≤ reserve ∧ (held = reserve ∨ reserve + amountOut ≤ held ∨ back)

theorem paidToken_left {token paid : ERC20} {holder : Address} (done : PaidToken holder «to» amount token paid) :
    (paid.balanceOf holder).toNat + (if «to» = holder then 0 else amount.toNat) = (token.balanceOf holder).toNat ∧
      amount.toNat ≤ (token.balanceOf holder).toNat := by
  unfold PaidToken at done
  split at done
  case isTrue =>
    obtain ⟨moved, _, _⟩ := transfer_moves done
    have shift := moved.shift holder
    have covered := moved.covered
    rw [if_pos rfl] at shift
    by_cases back : holder = «to»
    · rw [if_pos back] at shift
      rw [if_pos back.symm]
      omega
    · rw [if_neg back] at shift
      rw [if_neg (Ne.symm back)]
      omega
  case isFalse none_ =>
    have zero : amount.toNat = 0 := by
      rw [BitVec.lt_def] at none_
      exact Nat.eq_zero_of_not_pos none_
    rw [done, zero, ite_self]
    exact ⟨rfl, Nat.zero_le _⟩

theorem counts_iff {token paid : ERC20} {reserve : Uint112} (covered : reserve.toNat ≤ (token.balanceOf market.pair).toNat)
    (done : PaidToken market.pair «to» amount token paid) :
    (∃ result, DEXV2Pair.amountIn (paid.balanceOf market.pair) reserve amount = .ok result) ↔
      CountsIn reserve.toNat (token.balanceOf market.pair).toNat amount.toNat («to» = market.pair) := by
  obtain ⟨left, enough⟩ := paidToken_left done
  rw [amountIn_iff]
  unfold CountsIn
  by_cases back : «to» = market.pair
  · rw [if_pos back] at left
    constructor
    · rintro ⟨small, _⟩
      exact ⟨small, .inr (.inr back)⟩
    · rintro ⟨small, _⟩
      exact ⟨small, .inr (by omega)⟩
  · rw [if_neg back] at left
    simp only [back, or_false]
    constructor
    · rintro ⟨small, side⟩
      exact ⟨small, by omega⟩
    · rintro ⟨small, side⟩
      exact ⟨small, by omega⟩

/-- A swap that has paid. -/
structure Paying (market : Market) (world : World) (amount0Out amount1Out : Uint256) («to» : Address) (first second : ERC20) : Prop where
  guarded : ∃ pair, world.at_ asPair market.pair = some pair ∧ pair.swapGuard amount0Out amount1Out «to» = .ok ()
  paid : ∃ between paid, Paid market.pair market.token0 «to» amount0Out world between ∧
    Paid market.pair market.token1 «to» amount1Out between paid ∧
    paid.at_ asERC20 market.token0 = some first ∧ paid.at_ asERC20 market.token1 = some second

theorem amountsIn_iff {amount0Out amount1Out balance0 balance1 : Uint256} :
    (∃ amounts, pair.amountsIn balance0 balance1 amount0Out amount1Out = .ok amounts) ↔
      (∃ amount, DEXV2Pair.amountIn balance0 pair.reserve0 amount0Out = .ok amount) ∧
      ∃ amount, DEXV2Pair.amountIn balance1 pair.reserve1 amount1Out = .ok amount := by
  constructor
  · rintro ⟨amounts, done⟩
    obtain ⟨amount0, first, rest⟩ := bind_eq_ok.mp done
    obtain ⟨amount1, second, _⟩ := bind_eq_ok.mp rest
    exact ⟨⟨amount0, first⟩, amount1, second⟩
  · rintro ⟨⟨amount0, first⟩, amount1, second⟩
    exact ⟨(amount0, amount1), bind_eq_ok.mpr ⟨amount0, first, bind_eq_ok.mpr ⟨amount1, second, rfl⟩⟩⟩

/-- What a mint takes to have come in. -/
def MintCounts (pair : DEXV2Pair) (first second : ERC20) (holder : Address) : Prop :=
  ∃ amounts, pair.added (first.balanceOf holder) (second.balanceOf holder) = .ok amounts

/-- What a skim pays out, first of one token and then of the other one. -/
def SkimCounts (market : Market) (world : World) (pair : DEXV2Pair) (first : ERC20) : Prop :=
  ∃ excess, Uint256.sub (first.balanceOf market.pair) pair.reserve0.wide = .ok excess ∧ ∀ «to» between second,
    Yields (transfer market.pair market.token0 «to» excess) world () between → between.at_ asERC20 market.token1 = some second →
    ∃ excess, Uint256.sub (second.balanceOf market.pair) pair.reserve1.wide = .ok excess

theorem excess_done {token : ERC20} {holder : Address} {reserve : Uint112} (covered : reserve.toNat ≤ (token.balanceOf holder).toNat) :
    ∃ excess, Uint256.sub (token.balanceOf holder) reserve.wide = .ok excess := by
  apply Uint256.sub_done
  rw [Uint112.wide_toNat]
  exact covered

private theorem mint_counts (covered : Covered market pair first second) : MintCounts pair first second market.pair := by
  obtain ⟨excess0, over0⟩ := excess_done covered.first
  obtain ⟨excess1, over1⟩ := excess_done covered.second
  exact ⟨(excess0, excess1), bind_eq_ok.mpr ⟨excess0, over0, bind_eq_ok.mpr ⟨excess1, over1, rfl⟩⟩⟩

theorem skim_counts (placed : Placed market world pair first second) (covered : Covered market pair first second) :
    SkimCounts market world pair first := by
  obtain ⟨excess0, over0⟩ := excess_done covered.first
  refine ⟨excess0, over0, ?_⟩
  intro «to» between second' pays found
  obtain ⟨_, _, placed'⟩ := pays0_placed placed pays
  cases found.symm.trans placed'.second
  exact excess_done covered.second

theorem swap_counts_iff (placed : Placed market world pair first second) (covered : Covered market pair first second)
    {amount0Out amount1Out : Uint256} {first' second' : ERC20} (paying : Paying market world amount0Out amount1Out «to» first' second') :
    (∃ amounts, pair.amountsIn (first'.balanceOf market.pair) (second'.balanceOf market.pair) amount0Out amount1Out = .ok amounts) ↔
      CountsIn pair.reserve0.toNat (first.balanceOf market.pair).toNat amount0Out.toNat («to» = market.pair) ∧
      CountsIn pair.reserve1.toNat (second.balanceOf market.pair).toNat amount1Out.toNat («to» = market.pair) := by
  obtain ⟨between, paid, paid0, paid1, found0, found1⟩ := paying.paid
  obtain ⟨first'', pays0, placed'⟩ := paid0_placed placed paid0
  obtain ⟨second'', pays1, placed''⟩ := paid1_placed placed' paid1
  cases found0.symm.trans placed''.first
  cases found1.symm.trans placed''.second
  rw [amountsIn_iff, counts_iff covered.first pays0, counts_iff covered.second pays1]

/-- In every run the reserves are covered by what the pair holds. Mints and skims can compute
their amounts, and a swap that has paid can if and only if it did not pay too much. -/
theorem reserves_covered (market : Market) (world : World) (reached : Reached call (Deployed market) (Allowed market) world) :
    ∃ pair first second, Placed market world pair first second ∧ Covered market pair first second ∧
      MintCounts pair first second market.pair ∧ SkimCounts market world pair first ∧
      ∀ amount0Out amount1Out «to» first' second', Paying market world amount0Out amount1Out «to» first' second' →
        ((∃ amounts, pair.amountsIn (first'.balanceOf market.pair) (second'.balanceOf market.pair) amount0Out amount1Out = .ok amounts) ↔
          CountsIn pair.reserve0.toNat (first.balanceOf market.pair).toNat amount0Out.toNat («to» = market.pair) ∧
          CountsIn pair.reserve1.toNat (second.balanceOf market.pair).toNat amount1Out.toNat («to» = market.pair)) := by
  obtain ⟨pair, first, second, placed, covered⟩ := reached_solvent reached
  exact ⟨pair, first, second, placed, covered, mint_counts covered, skim_counts placed covered,
    fun _ _ _ _ _ paying => swap_counts_iff placed covered paying⟩

/-- A new pair at 3 of the tokens at 1 and 2, all of which the account 9 has. -/
def newMarket : Market := { pair := 3, token0 := 1, token1 := 2, apart := by decide, apart0 := by decide, apart1 := by decide }

def coin (name : String) : ERC20 :=
  { name, symbol := name, decimals := 18, totalSupply := 1000
    balances := (default : Table Address Uint256).modify 9 fun _ => 1000 }

def newPair : DEXV2Pair := { name := "DEX V2", symbol := "DEX-V2", decimals := 18, factory := 4, token0 := 1, token1 := 2 }

def newWorld : World where
  contracts := [(1, .erc20 (coin "A")), (2, .erc20 (coin "B")), (3, .pair newPair)]
  native _ := 0

theorem newWorld_deployed : Deployed newMarket newWorld := by
  have placed : Placed newMarket newWorld newPair (coin "A") (coin "B") := by
    refine ⟨rfl, rfl, rfl, rfl, rfl, ?_⟩
    intro token contract known spender
    by_cases first : 1 = token
    · subst first
      cases known
      rfl
    · by_cases second : 2 = token
      · subst second
        cases known
        rfl
      · by_cases third : 3 = token
        · subst third
          cases known
          rfl
        · simp only [World.at_, newWorld, Registry.find, first, second, third, if_false] at known
          cases known
  exact ⟨_, _, _, placed, rfl, rfl⟩

/-- Calls that come from others and initialise nothing. -/
def Plain (market : Market) (request : Call) : Prop :=
  request.caller ≠ market.pair ∧ ∀ token0 token1, request.request ≠ .initializePair market.pair token0 token1

theorem plain_reached (requests : List Call) (plain : ∀ request ∈ requests, Plain market request)
    (reached : Reached call (Deployed market) (Allowed market) world) :
    Reached call (Deployed market) (Allowed market) (requests.foldl (attempt call) world) := by
  induction requests generalizing world with
  | nil => exact reached
  | cons request rest ih =>
    obtain ⟨outside, other⟩ := plain request (List.mem_cons_self ..)
    have allowed : Allowed market world request := ⟨outside, fun token0 token1 _ same => absurd same (other token0 token1)⟩
    exact ih (fun later inside => plain later (List.mem_cons_of_mem _ inside)) (reached.step request allowed)

/-- Reserves of 100 and 400, and then five of the first token as a present. -/
def presents : List Call :=
  [.transfer 1 3 100, .transfer 2 3 400, .sync 3, .transfer 1 3 5].map fun request =>
    { around := { sha3 := fun _ => 0, chainOwner := 8, origin := 9, timestamp := 1000000 }, caller := 9, native := fun _ => 0, request }

def presented : World := presents.foldl (attempt call) newWorld

theorem presented_reached : Reached call (Deployed newMarket) (Allowed newMarket) presented := by
  apply plain_reached presents _ (.start newWorld_deployed)
  intro request inside
  unfold presents at inside
  simp only [List.map_cons, List.map_nil, List.mem_cons, List.not_mem_nil, or_false] at inside
  rcases inside with rfl | rfl | rfl | rfl
  all_goals exact ⟨by decide, by intro _ _ same; cases same⟩

theorem presented_covered : ∃ pair first second, Placed newMarket presented pair first second ∧ Covered newMarket pair first second := by
  obtain ⟨pair, first, second, placed, covered, _⟩ := reserves_covered newMarket presented presented_reached
  exact ⟨pair, first, second, placed, covered⟩

/-- After the pair paid ten of the first token out. -/
def paidOut : World := attempt call presented
  { around := { sha3 := fun _ => 0, chainOwner := 8, origin := 9, timestamp := 1000000 }, caller := 3, native := fun _ => 0
    request := .transfer 1 9 10 }

/-- A swap that pays out more than the present, but not only reserves. -/
theorem presented_short : Reached call (Deployed newMarket) (Allowed newMarket) presented ∧ ∃ pair first second,
    presented.at_ asPair 3 = some pair ∧ Paying newMarket presented 10 0 9 first second ∧
      pair.amountsIn (first.balanceOf 3) (second.balanceOf 3) 10 0 = .error Uint256.negative := by
  have paid0 : Paid 3 1 9 10 presented paidOut := Eq.mpr (if_pos (by decide)) rfl
  have paid1 : Paid 3 2 9 0 paidOut paidOut := Eq.mpr (if_neg (by decide)) rfl
  exact ⟨presented_reached, _, _, _, rfl, ⟨⟨_, rfl, rfl⟩, paidOut, paidOut, paid0, paid1, rfl, rfl⟩, rfl⟩

end OrbiterSDK.Proofs.PairSolvency
