import OrbiterSDK.Proofs.PairSolvency
import OrbiterSDK.Proofs.RouterBooks

/-! The registries in runs of an exchange, and what routers keep in every state of them. -/

namespace OrbiterSDK.Proofs.RouterRuns
open Lib Atomic DEXV2 DexCalls PairSteps PairCalls Markets Payments PairPayments RouterBooks
open PairRegistry (Kept Created createPair_created pair_ne_factory)
open PairSolvency (Request Call perform call call_yields)

/-- Every factory's registry is right. -/
def Registries (world : World) : Prop := ∀ home factory, world.at_ asFactory home = some factory → Kept home world factory

variable {world after : World} {β : Type}

theorem Registries.steady (registries : Registries world) (steady : Steady world after) : Registries after := by
  intro home factory here
  exact RouterPayments.Kept.steady (registries home factory ((steady.factories home).symm.trans here)) steady

theorem steady_keeps {code : Run β} (steady : ∀ world answer after, Yields code world answer after → Steady world after) :
    Keeps Registries code := fun world answer after registries done => registries.steady (steady world answer after done)

theorem createPair_keeps {around : Around} {address tokenA tokenB : Address} :
    Keeps Registries (DEXV2Factory.createPair around address tokenA tokenB) := by
  intro world pair after registries done
  obtain ⟨token0, token1, created, _⟩ := createPair_created done
  have opened := createPair_opened done
  obtain ⟨old, here, _, entered⟩ := created.entered
  intro home factory there
  by_cases same : home = address
  · subst same
    cases entered.symm.trans there
    exact (registries home old here).created created
  · have before := (opened.factories home same).symm.trans there
    have kept := registries home factory before
    refine { kept with initialised := ?_, here := there, deployed := ?_ }
    · intro tokenA tokenB registered
      obtain ⟨contract, known, initialised⟩ := kept.initialised tokenA tokenB registered
      refine ⟨contract, (created.others _ (pair_ne_factory known here) ?_).trans known, initialised⟩
      intro equal
      exact created.new (equal ▸ PairRegistry.at_mem_keys known)
    · intro listed inside
      rw [created.keys]
      exact List.mem_append_left _ (kept.deployed listed inside)

theorem factoryCall_keeps {address : Address} {function : DEXV2Factory → Except Exception DEXV2Factory}
    (pairs : ∀ old new, function old = .ok new → new.getPairs = old.getPairs ∧ new.allPairs = old.allPairs) :
    Keeps Registries (callContractFunction asFactory address function) := by
  intro world answer after registries done
  obtain ⟨old, new, known, computed, written⟩ := callContractFunction_yields done
  obtain ⟨same, all⟩ := pairs old new computed
  subst written
  intro home factory there
  by_cases equal : home = address
  · subst equal
    cases (at_put_self known).symm.trans there
    exact (registries home old known).fees same all
  · have kept := registries home factory ((at_put_of_ne _ equal).symm.trans there)
    refine { kept with initialised := ?_, here := there, deployed := ?_ }
    · intro tokenA tokenB registered
      obtain ⟨contract, found, initialised⟩ := kept.initialised tokenA tokenB registered
      exact ⟨contract, (at_put_of_ne _ (pair_ne_factory found known)).trans found, initialised⟩
    · rw [put_keys]
      exact kept.deployed

theorem initialize_keeps {caller pair token0 token1 : Address} {answer : Unit} (registries : Registries world)
    (outside : world.at_ asFactory caller = none)
    (done : Yields (callContractFunction asPair pair fun contract => contract.initializePair caller token0 token1) world answer after) :
    Registries after := by
  obtain ⟨old, new, known, computed, written⟩ := callContractFunction_yields done
  obtain ⟨isCreator, same⟩ := guard_eq_ok.mp computed
  subst written
  intro home factory there
  have elsewhere : home ≠ pair := by
    intro equal
    rw [equal, token_not_factory (pair_shares (at_put_self known))] at there
    cases there
  have kept := registries home factory ((at_put_of_ne _ elsewhere).symm.trans there)
  refine { kept with initialised := ?_, here := there, deployed := ?_ }
  · intro tokenA tokenB registered
    obtain ⟨contract, found, initialised⟩ := kept.initialised tokenA tokenB registered
    refine ⟨contract, (at_put_of_ne _ ?_).trans found, initialised⟩
    intro equal
    rw [equal, known] at found
    cases found
    rw [← not_not.mp isCreator, initialised.factory, kept.here] at outside
    cases outside
  · rw [put_keys]
    exact kept.deployed

theorem approve_keeps {caller token spender : Address} {value : Uint256} : Keeps Registries (approve caller token spender value) := by
  apply steady_keeps
  intro world answer after done
  obtain ⟨old, new, known, computed, written⟩ := callContractFunction_yields done
  cases computed
  rw [written]
  have idle : Idle world (world.put asERC20 token (old.approve caller spender value)) := tokenWrite_idle known rfl
  exact idle.steady

theorem callMint_keeps {around : Around} {pair «to» : Address} : Keeps Registries (DEXV2Pair.callMint around pair «to») := by
  apply steady_keeps
  intro world liquidity after done
  obtain ⟨_, _, issued⟩ := callMint_issued done
  exact issued.steady

theorem callBurn_keeps {around : Around} {pair «to» : Address} : Keeps Registries (DEXV2Pair.callBurn around pair «to») := by
  apply steady_keeps
  intro world amounts after done
  obtain ⟨_, _, redeemed⟩ := callBurn_redeemed done
  exact redeemed.steady

theorem callSwap_keeps {around : Around} {pair «to» : Address} {amount0Out amount1Out : Uint256} :
    Keeps Registries (DEXV2Pair.callSwap around pair amount0Out amount1Out «to») := by
  apply steady_keeps
  intro world answer after done
  obtain ⟨_, swapped⟩ := callSwap_swapped done
  exact swapped.steady

theorem callSkim_keeps {pair «to» : Address} : Keeps Registries (DEXV2Pair.callSkim pair «to») := by
  apply steady_keeps
  intro world answer after done
  obtain ⟨run⟩ := callSkim_run done
  exact ((transfer_booked run.paidFirst).2.trans (transfer_booked run.paidSecond).2).steady

theorem callSync_keeps {around : Around} {pair : Address} : Keeps Registries (DEXV2Pair.callSync around pair) := by
  apply steady_keeps
  intro world answer after done
  obtain ⟨run⟩ := callSync_run done
  rw [run.written]
  exact pairWrite_steady run.trading.here (update_ok run.updated).1.toSamePlaces

theorem router_keeps (entry : DEXV2Router02.Entry) (call : DEXV2Router02.Call) : Keeps Registries (DEXV2Router02.perform entry call) := by
  apply RouterKeeps.perform_keeps
  exact {
    transferFrom := fun _ _ _ _ => steady_keeps fun _ _ _ done => (transferFrom_booked done).2.steady
    transfer := fun _ _ _ => steady_keeps fun _ _ _ done => (transfer_booked done).2.steady
    deposit := fun _ _ => steady_keeps fun _ _ _ done => (deposit_booked done).2.steady
    withdraw := fun _ _ => steady_keeps fun _ _ _ done => (withdraw_booked done).2.steady
    sendTokens := fun _ _ => steady_keeps fun _ _ _ done => (sendTokens_booked done).2.steady
    createPair := fun _ _ => createPair_keeps
    callMint := fun _ _ => callMint_keeps
    callBurn := fun _ _ => callBurn_keeps
    callSwap := fun _ _ _ _ => callSwap_keeps }

/-- New factories, and nothing at the zero address. -/
structure New (world : World) : Prop where
  factories : ∀ home factory, world.at_ asFactory home = some factory → ∃ feeToSetter : Address, factory = { feeToSetter }
  nobody : 0 ∉ world.contracts.keys

/-- Factories call nothing but what creating a pair calls, and no contract gets the zero address. -/
structure Allowed (world : World) (request : Call) : Prop where
  outside : world.at_ asFactory request.caller = none
  nobody : ∀ after, call world request = .ok after → 0 ∉ after.contracts.keys

theorem new_registries (new : New world) : Registries world := by
  intro home factory here
  obtain ⟨feeToSetter, same⟩ := new.factories home factory here
  rw [same] at here ⊢
  exact PairRegistry.new_kept here

theorem call_registries {request : Call} (registries : Registries world) (allowed : Allowed world request)
    (done : call world request = .ok after) : Registries after := by
  obtain ⟨answer, yields⟩ := call_yields done
  have registries : Registries { world with native := request.native } :=
    registries.steady ⟨rfl, fun _ => rfl, fun _ => rfl, fun _ pair here => ⟨pair, here, rfl, rfl, rfl⟩⟩
  obtain ⟨around, caller, native, request⟩ := request
  have keeps : ∀ {α : Type} {code : Run α}, Keeps Registries code → Keeps Registries (do let _ ← code; pure ()) :=
    fun kept => kept.bind fun _ => .pure _
  cases request with
  | transfer => exact registries.steady (transfer_booked yields).2.steady
  | transferFrom => exact registries.steady (transferFrom_booked yields).2.steady
  | approve => exact approve_keeps _ _ _ registries yields
  | deposit => exact registries.steady (deposit_booked yields).2.steady
  | withdraw => exact registries.steady (withdraw_booked yields).2.steady
  | initializePair => exact initialize_keeps registries allowed.outside yields
  | mint => exact keeps callMint_keeps _ _ _ registries yields
  | burn => exact keeps callBurn_keeps _ _ _ registries yields
  | swap => exact callSwap_keeps _ _ _ registries yields
  | skim => exact callSkim_keeps _ _ _ registries yields
  | sync => exact callSync_keeps _ _ _ registries yields
  | createPair => exact keeps createPair_keeps _ _ _ registries yields
  | setFeeTo =>
    apply factoryCall_keeps _ _ _ _ registries yields
    intro old new same
    cases same
    exact ⟨rfl, rfl⟩
  | setFeeToSetter =>
    apply factoryCall_keeps _ _ _ _ registries yields
    intro old new same
    cases same
    exact ⟨rfl, rfl⟩
  | router address value call =>
    obtain ⟨router, known, rest⟩ := yields_getContract_bind.mp yields
    exact keeps (router_keeps _ call) _ _ _ registries rest

private theorem reached_registries (reached : Reached call New Allowed world) : Registries world ∧ 0 ∉ world.contracts.keys := by
  apply reached.keeps
  · exact fun world new => ⟨new_registries new, new.nobody⟩
  · exact fun world request after before allowed done => ⟨call_registries before.1 allowed done, allowed.nobody after done⟩

/-- A call of a router with a value: the value first, then the function. -/
structure Served (entry : DEXV2Router02.Entry) (call : DEXV2Router02.Call) (world sent after : World) (amounts : List Uint256) : Prop where
  here : world.at_ asRouter entry.self = some entry.router
  outside : entry.caller ≠ entry.self
  value : Yields (sendTokens entry.caller entry.self entry.value) world () sent
  done : Yields (DEXV2Router02.perform entry call) sent amounts after

section Factory
open DEXV2Router02 DEXV2Library RouterPayments
variable {entry : Entry} {amounts : List Uint256} {path : List Address} {tokenA tokenB : Address}

/-- The factory that a router works with. -/
abbrev Known (entry : Entry) (world : World) : Prop := ∃ factory, world.at_ asFactory entry.router.factory = some factory

theorem getPair_known {next : Address → Run β} {answer : β} (done : Yields (getPair entry tokenA tokenB >>= next) world answer after) :
    Known entry world := by
  obtain ⟨_, _, found, _⟩ := yields_bind.mp done
  obtain ⟨factory, known, _⟩ := yields_getContract_bind.mp found
  exact ⟨factory, known⟩

private theorem addLiquidityAmounts_known {amountADesired amountBDesired amountAMin amountBMin : Uint256} {answer : Uint256 × Uint256}
    (done : Yields (addLiquidityAmounts entry tokenA tokenB amountADesired amountBDesired amountAMin amountBMin) world answer after) :
    Known entry world := by
  apply getPair_known done

theorem removeLiquidity_known {liquidity amountAMin amountBMin deadline : Uint256} {«to» : Address} {answer : Uint256 × Uint256}
    (done : Yields (removeLiquidity entry tokenA tokenB liquidity amountAMin amountBMin «to» deadline) world answer after) :
    Known entry world := by
  obtain ⟨_, done⟩ := yields_require_bind.mp done
  exact getPair_known done

private theorem payTokens_known {answer : Unit} (done : Yields (payTokens entry amounts path) world answer after) : Known entry world :=
  getPair_known done

theorem payNative_known {answer : Unit} (done : Yields (payNative entry amounts path) world answer after) : Known entry world := by
  obtain ⟨_, between, depositing, done⟩ := yields_bind.mp done
  obtain ⟨_, idle⟩ := depositNative_booked depositing
  obtain ⟨factory, known⟩ := getPair_known done
  exact ⟨factory, (idle.factories _).symm.trans known⟩

theorem pays_known {α : Type} {quote : Run (List Uint256)} {pay : List Uint256 → Run Unit} {rest : List Uint256 → Unit → Run α} {answer : α}
    (unchanged : ∀ {given : List Uint256} {between : World}, Yields quote world given between → between = world)
    (paying : ∀ {given : List Uint256} {paid : Unit} {between : World}, Yields (pay given) world paid between → Known entry world)
    (done : Yields (quote >>= fun given => pay given >>= rest given) world answer after) : Known entry world := by
  obtain ⟨_, _, quoting, done⟩ := yields_bind.mp done
  obtain ⟨_, _, paid, _⟩ := yields_bind.mp done
  rw [unchanged quoting] at paid
  exact paying paid

theorem perform_known (call : DEXV2Router02.Call) (done : Yields (DEXV2Router02.perform entry call) world amounts after) :
    Known entry world := by
  cases call with
  | addLiquidity | addLiquidityNative =>
    obtain ⟨_, _, running, _⟩ := yields_bind.mp done
    obtain ⟨_, running⟩ := yields_require_bind.mp running
    obtain ⟨_, _, first, _⟩ := yields_bind.mp running
    exact addLiquidityAmounts_known first
  | removeLiquidity =>
    obtain ⟨_, _, running, _⟩ := yields_bind.mp done
    exact removeLiquidity_known running
  | removeLiquidityNative =>
    obtain ⟨_, _, running, _⟩ := yields_bind.mp done
    obtain ⟨_, running⟩ := yields_require_bind.mp running
    obtain ⟨_, _, first, _⟩ := yields_bind.mp running
    exact removeLiquidity_known first
  | swapExactTokensForTokens =>
    exact pays_known (fun quoting => (quoteOut_quoted quoting).1) payTokens_known (yields_require_bind.mp done).2
  | swapTokensForExactTokens =>
    exact pays_known (fun quoting => (quoteIn_quoted quoting).1) payTokens_known (yields_require_bind.mp done).2
  | swapExactNativeForTokens =>
    exact pays_known (fun quoting => (quoteOut_quoted quoting).1) payNative_known (yields_require_bind.mp (yields_require_bind.mp done).2).2
  | swapTokensForExactNative =>
    exact pays_known (fun quoting => (quoteIn_quoted quoting).1) payTokens_known (yields_require_bind.mp (yields_require_bind.mp done).2).2
  | swapExactTokensForNative =>
    exact pays_known (fun quoting => (quoteOut_quoted quoting).1) payTokens_known (yields_require_bind.mp (yields_require_bind.mp done).2).2
  | swapNativeForExactTokens =>
    exact pays_known (fun quoting => (quoteIn_quoted quoting).1) payNative_known (yields_require_bind.mp (yields_require_bind.mp done).2).2

end Factory

/-- In every run, a router that is called with a value keeps nothing, takes from the caller
what it reports and gives it to the receiver, exactly if the call is clean. -/
theorem router_keeps_nothing (entry : DEXV2Router02.Entry) (call : DEXV2Router02.Call) (world sent after : World) (amounts : List Uint256)
    (reached : Reached PairSolvency.call New Allowed world) (served : Served entry call world sent after amounts) :
    (KeepsNothing entry.self world after ∧ Promised entry world after call amounts) ↔ Clean entry sent call := by
  obtain ⟨registries, nobody⟩ := reached_registries reached
  obtain ⟨start, idle⟩ := sendTokens_booked served.value
  obtain ⟨factory, there⟩ := perform_known call served.done
  have serving : Serving entry sent factory :=
    ⟨registries.steady idle.steady _ factory there, (idle.routers _).trans served.here, idle.keys ▸ nobody, served.outside⟩
  exact perform_clean start serving call served.done

def around : Around where
  sha3 _ := 3
  chainOwner := 4
  origin := 4
  timestamp := 0

def tokenA : ERC20 :=
  { name := "A", symbol := "A", decimals := 18, totalSupply := 10000
    balances := (default : Table Address Uint256).modify 9 fun _ => 10000 }

def newExchange : World where
  contracts := [(1, .erc20 tokenA), (2, .nativeWrapper { name := "W", symbol := "W", decimals := 18 }), (4, .factory { feeToSetter := 5 }),
    (6, .router { factory := 4, wrappedNative := 2 })]
  native _ := 0

/-- The account has a thousand coins left in the end. -/
def byAccount (request : Request) : Call :=
  { around, caller := 9, native := fun address => if address = 9 then 1000 else if address = 2 then 10000 else 0, request }

def fill : List Call :=
  [byAccount (.createPair 4 1 2), byAccount (.transfer 1 3 10000), byAccount (.deposit 2 10000), byAccount (.transfer 2 3 10000),
    byAccount (.mint 3 9)]

def filled : World := fill.foldl (attempt call) newExchange

theorem allowed_byAccount {request : Request} (outside : (world.at_ asFactory 9).isNone = true)
    (nobody : 0 ∉ (attempt call world (byAccount request)).contracts.keys) : Allowed world (byAccount request) := by
  refine ⟨Option.isNone_iff_eq_none.mp outside, fun after done => ?_⟩
  rw [← attempt_ok done]
  exact nobody

theorem filled_reached : Reached call New Allowed filled := by
  have new : New newExchange := by
    constructor
    · intro home factory here
      have inside : home ∈ ([1, 2, 4, 6] : List Address) := PairRegistry.at_mem_keys here
      simp only [List.mem_cons, List.not_mem_nil, or_false] at inside
      obtain rfl | rfl | rfl | rfl := inside
      · cases here
      · cases here
      · cases here
        exact ⟨5, rfl⟩
      · cases here
    · decide
  apply Throughout.reached fill (.start new)
  refine ⟨?_, ?_, ?_, ?_, ?_, trivial⟩
  all_goals exact allowed_byAccount (by decide +kernel) (by decide +kernel)

/-- The hundred are quoted for 102. -/
def purchase : DEXV2Router02.Call := .swapNativeForExactTokens 100 1000 [2, 1] 9 0

def paying (value : Uint256) : DEXV2Router02.Entry :=
  { around, self := 6, router := { factory := 4, wrappedNative := 2 }, caller := 9, value }

def valued (value : Uint256) : World := (((sendTokens 9 6 value).run filled).toOption.map Prod.snd).getD filled

def served (value : Uint256) : World :=
  (((DEXV2Router02.perform (paying value) purchase).run (valued value)).toOption.map Prod.snd).getD (valued value)

theorem purchase_served {value : Uint256} (sent : Yields (sendTokens 9 6 value) filled () (valued value))
    (done : Yields (DEXV2Router02.perform (paying value) purchase) (valued value) [102, 100] (served value)) :
    Served (paying value) purchase filled (valued value) (served value) [102, 100] := by
  have known : ((filled.at_ asRouter 6).map fun router => (router.factory, router.wrappedNative)) = some (4, 2) := by decide +kernel
  obtain ⟨⟨factory, wrappedNative⟩, here, same⟩ := Option.map_eq_some_iff.mp known
  cases same
  exact ⟨here, show (9 : Address) ≠ 6 by decide, sent, done⟩

/-- Who sends what is quoted leaves nothing behind. -/
theorem exact_purchase_keeps_nothing : KeepsNothing 6 filled (served 102) ∧ Promised (paying 102) filled (served 102) purchase [102, 100] := by
  have done : Served (paying 102) purchase filled (valued 102) (served 102) [102, 100] :=
    purchase_served (run_yields (by decide +kernel)) (run_yields (by decide +kernel))
  apply (router_keeps_nothing (paying 102) purchase filled (valued 102) (served 102) [102, 100] filled_reached done).mpr
  refine ⟨fun amounts quoting => ?_, by decide⟩
  have quoted : (((DEXV2Library.getAmountsIn 4 100 [2, 1]).run (valued 102)).toOption.map fun answer => answer.1.headD 0) = some 102 := by
    decide +kernel
  have same : _ = some (amounts.headD 0) := congrArg (fun answer => answer.toOption.map fun answer => answer.1.headD 0) quoting
  exact Option.some.inj (quoted.symm.trans same)

/-- Of the 150 coins that are sent for it, the router keeps 48. -/
theorem overpaid_kept : Reached call New Allowed filled ∧ Served (paying 150) purchase filled (valued 150) (served 150) [102, 100] ∧
    filled.native 6 = 0 ∧ (served 150).native 6 = 48 ∧ (served 150).native 9 = 850 ∧
    ¬ (KeepsNothing 6 filled (served 150) ∧ Promised (paying 150) filled (served 150) purchase [102, 100]) := by
  have before : filled.native 6 = 0 := by decide +kernel
  have later : (served 150).native 6 = 48 := by decide +kernel
  have rest : (served 150).native 9 = 850 := by decide +kernel
  refine ⟨filled_reached, purchase_served (run_yields (by decide +kernel)) (run_yields (by decide +kernel)), before, later, rest, ?_⟩
  rintro ⟨keeps, _⟩
  have same := keeps none
  change ((served 150).native 6).toNat = (filled.native 6).toNat at same
  rw [before, later] at same
  exact absurd same (by decide)

end OrbiterSDK.Proofs.RouterRuns
