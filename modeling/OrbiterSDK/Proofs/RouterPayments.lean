import OrbiterSDK.Proofs.PairPayments

/-! What a router's functions pay on the way: the input to the first pair, each pair to the
next one, and what is wrapped and unwrapped. -/

namespace OrbiterSDK.Proofs.RouterPayments
open Lib Atomic DEXV2 DexCalls DEXV2Library DEXV2Router02 PairSteps Flow Payments PairPayments PairRegistry

variable {world between after : World} {home tokenA tokenB receiver : Address} {factory : DEXV2Factory} {entry : Entry}
  {amounts : List Uint256} {path : List Address} {β : Type} {answer : β}

theorem Kept.steady (kept : Kept home world factory) (steady : Steady world after) : Kept home after factory := by
  refine { kept with initialised := ?_, here := (steady.factories home).trans kept.here, deployed := ?_ }
  · intro tokenA tokenB registered
    obtain ⟨pair, there, initialised⟩ := kept.initialised tokenA tokenB registered
    obtain ⟨changed, there', places⟩ := steady.pairs _ pair there
    refine ⟨changed, there', places.factory.trans initialised.factory, ?_, ?_⟩
    · rw [places.token0, places.token1]
      exact initialised.sorted
    · rw [places.token0, places.token1]
      exact initialised.tokens
  · intro pair listed
    rw [steady.keys]
    exact kept.deployed pair listed

theorem pair_found (kept : Kept home world factory) {next : Address → Run β}
    (done : Yields (pairFor home tokenA tokenB >>= next) world answer after) :
    Yields (next (factory.getPair tokenA tokenB)) world answer after := (yields_pairFor_bind kept.here).mp done

/-- What the pairs along a path pay, each to the next one and the last one to the receiver. -/
def hops (pairs : Address → Address → Address) (receiver : Address) : List Uint256 → List Address → Flow Asset Address
  | amountOut :: amounts, input :: output :: rest =>
    let target := match rest with
      | [] => receiver
      | next :: _ => pairs output next
    pay (some output) (pairs input output) target amountOut.toNat + hops pairs receiver amounts (output :: rest)
  | _, _ => 0

/-- Each hop has a pair, and something to pay. -/
def Traded (pairs : Address → Address → Address) : List Uint256 → List Address → Prop
  | amountOut :: amounts, input :: output :: rest =>
    pairs input output ≠ 0 ∧ amountOut.toNat ≠ 0 ∧ Traded pairs amounts (output :: rest)
  | _, _ => True

theorem sortTokens_ok {sorted : Address × Address} (done : sortTokens tokenA tokenB = .ok sorted) :
    tokenA ≠ tokenB ∧ sorted = if tokenA < tokenB then (tokenA, tokenB) else (tokenB, tokenA) := by
  obtain ⟨apart, rest⟩ := guard_eq_ok.mp done
  obtain ⟨_, same⟩ := guard_eq_ok.mp rest
  exact ⟨apart, (Except.ok.inj same).symm⟩

/-- The tokens of a registered pair, in the order in which it has them. -/
theorem Initialised.sorted_tokens {pair : DEXV2Pair} (initialised : Initialised home tokenA tokenB pair) :
    if tokenA < tokenB then pair.token0 = tokenA ∧ pair.token1 = tokenB else pair.token0 = tokenB ∧ pair.token1 = tokenA := by
  have sorted := initialised.sorted
  obtain ⟨first, second⟩ | ⟨first, second⟩ := initialised.tokens
  · rw [first, second] at sorted
    rw [if_pos sorted]
    exact ⟨first, second⟩
  · rw [first, second] at sorted
    have reverse : ¬ tokenA < tokenB := by
      rw [BitVec.lt_def] at sorted ⊢
      omega
    rw [if_neg reverse]
    exact ⟨first, second⟩

theorem hop_pays {pair : DEXV2Pair} {input output source target : Address} {sorted : Address × Address} {amountOut : Uint256}
    (initialised : Initialised home input output pair) (order : sortTokens input output = .ok sorted) :
    (pay (some pair.token0) source target (if input = sorted.1 then (0 : Uint256) else amountOut).toNat +
      pay (some pair.token1) source target (if input = sorted.1 then amountOut else 0).toNat : Flow Asset Address) =
      pay (some output) source target amountOut.toNat := by
  obtain ⟨apart, same⟩ := sortTokens_ok order
  have tokens := Initialised.sorted_tokens initialised
  have nothing : (0 : Uint256).toNat = 0 := rfl
  by_cases less : input < output
  · rw [if_pos less] at tokens same
    rw [same, if_pos rfl, if_pos rfl, nothing, pay_zero, zero_add, tokens.2]
  · rw [if_neg less] at tokens same
    rw [same, if_neg apart, if_neg apart, nothing, pay_zero, add_zero, tokens.1]

theorem swap_booked (path : List Address) (amounts : List Uint256) {world : World} {answer : Unit}
    (kept : Kept entry.router.factory world factory) (done : Yields (swap entry receiver amounts path) world answer after) :
    Booked (hops factory.getPair receiver amounts path) world after ∧ Steady world after ∧ Traded factory.getPair amounts path := by
  induction path generalizing amounts world with
  | nil =>
    cases amounts with
    | nil | cons =>
      obtain ⟨_, same⟩ := pure_yields done
      rw [← same]
      exact ⟨.refl _, (Idle.refl _).steady, trivial⟩
  | cons input path ih =>
    cases path with
    | nil =>
      cases amounts with
      | nil | cons =>
        obtain ⟨_, same⟩ := pure_yields done
        rw [← same]
        exact ⟨.refl _, (Idle.refl _).steady, trivial⟩
    | cons output rest =>
      cases amounts with
      | nil =>
        obtain ⟨_, same⟩ := pure_yields done
        rw [← same]
        exact ⟨.refl _, (Idle.refl _).steady, trivial⟩
      | cons amountOut amounts =>
        have done := pair_found kept done
        obtain ⟨registered, done⟩ := yields_require_bind.mp done
        obtain ⟨sorted, order, done⟩ := yields_checked_bind.mp done
        obtain ⟨pair, here, initialised⟩ := kept.initialised input output registered
        -- the hop itself, whoever is paid
        have hop : ∀ target {rest : Run Unit}, Yields (DEXV2Pair.callSwap entry.around (factory.getPair input output)
              (if input = sorted.1 then 0 else amountOut) (if input = sorted.1 then amountOut else 0) target >>= fun _ => rest)
              world answer after →
            ∃ between, Booked (pay (some output) (factory.getPair input output) target amountOut.toNat) world between ∧
              Steady world between ∧ amountOut.toNat ≠ 0 ∧ Yields rest between answer after := by
          intro target rest done
          obtain ⟨_, between, swapping, rest⟩ := yields_bind.mp done
          obtain ⟨there, swapped⟩ := callSwap_swapped swapping
          cases here.symm.trans swapped.here
          refine ⟨between, swapped.booked.congr (hop_pays initialised order), swapped.steady, ?_, rest⟩
          intro zero
          have nothing : amountOut = 0 := BitVec.eq_of_toNat_eq zero
          apply swapped.some_
          rw [nothing, ite_self]
          exact ⟨rfl, rfl⟩
        cases rest with
        | nil =>
          obtain ⟨between, booked, steady, some_, rest⟩ := hop _ done
          obtain ⟨later, steady', traded⟩ := ih amounts (Kept.steady kept steady) rest
          exact ⟨booked.trans later, steady.trans steady', registered, some_, traded⟩
        | cons next rest =>
          have done := pair_found kept done
          obtain ⟨between, booked, steady, some_, rest⟩ := hop _ done
          obtain ⟨later, steady', traded⟩ := ih amounts (Kept.steady kept steady) rest
          exact ⟨booked.trans later, steady.trans steady', registered, some_, traded⟩

/-- Who is no pair gets the last amount, if the receiver. -/
theorem hops_outside {pairs : Address → Address → Address} {holder : Address} {asset : Asset}
    (outside : ∀ tokenA tokenB, pairs tokenA tokenB ≠ 0 → holder ≠ pairs tokenA tokenB) (input output : Address) (rest : List Address)
    (amountOut : Uint256) (amounts : List Uint256) (same : amounts.length = rest.length)
    (traded : Traded pairs (amountOut :: amounts) (input :: output :: rest)) :
    hops pairs receiver (amountOut :: amounts) (input :: output :: rest) asset holder =
      give (some (rest.getLastD output)) receiver (amounts.getLastD amountOut).toNat asset holder := by
  induction rest generalizing input output amountOut amounts with
  | nil =>
    cases amounts with
    | cons => cases same
    | nil =>
      obtain ⟨registered, _, _⟩ := traded
      change pay (some output) (pairs input output) receiver amountOut.toNat asset holder + 0 = _
      rw [add_zero, pay_apply, give_holder (outside _ _ registered), sub_zero]
      rfl
  | cons next rest ih =>
    cases amounts with
    | nil => cases same
    | cons second amounts =>
      obtain ⟨registered, _, traded⟩ := traded
      have onward : pairs output next ≠ 0 := traded.1
      change pay (some output) (pairs input output) (pairs output next) amountOut.toNat asset holder +
        hops pairs receiver (second :: amounts) (output :: next :: rest) asset holder = _
      rw [pay_holder (outside _ _ onward) (outside _ _ registered), zero_add,
        ih output next second amounts (Nat.succ.inj same) traded, List.getLastD_cons, List.getLastD_cons]

theorem traded_last {pairs : Address → Address → Address} (input output : Address) (rest : List Address) (amountOut : Uint256)
    (amounts : List Uint256) (same : amounts.length = rest.length) (traded : Traded pairs (amountOut :: amounts) (input :: output :: rest)) :
    (amounts.getLastD amountOut).toNat ≠ 0 := by
  induction rest generalizing input output amountOut amounts with
  | nil =>
    cases amounts with
    | cons => cases same
    | nil => exact traded.2.1
  | cons next rest ih =>
    cases amounts with
    | nil => cases same
    | cons second amounts =>
      rw [List.getLastD_cons]
      exact ih output next second amounts (Nat.succ.inj same) traded.2.2

theorem amountsOutFrom_length (path : List Address) {amountIn : Uint256} {world : World}
    (done : Yields (amountsOutFrom home amountIn path) world amounts after) : after = world ∧ amounts.length = path.length - 1 := by
  induction path generalizing amountIn amounts after world with
  | nil =>
    obtain ⟨none_, same⟩ := pure_yields done
    rw [← none_, same]
    exact ⟨rfl, rfl⟩
  | cons input path ih =>
    cases path with
    | nil =>
      obtain ⟨none_, same⟩ := pure_yields done
      rw [← none_, same]
      exact ⟨rfl, rfl⟩
    | cons output rest =>
      obtain ⟨reserves, between, read, done⟩ := yields_bind.mp done
      have kept : between = world := @getReserves_keeps (fun state => state = world) _ _ _ world reserves between rfl read
      obtain ⟨amountOut, _, done⟩ := yields_checked_bind.mp done
      obtain ⟨later, last, quoted, done⟩ := yields_bind.mp done
      obtain ⟨same, kept'⟩ := pure_yields done
      obtain ⟨unchanged, length⟩ := ih quoted
      rw [← same, ← kept', unchanged, kept]
      exact ⟨rfl, congrArg Nat.succ length⟩

theorem amountsInTo_length (path : List Address) {amountIn amountOut : Uint256} {world : World}
    (done : Yields (amountsInTo home amountOut path) world (amountIn, amounts) after) :
    after = world ∧ amounts.length = path.length - 1 ∧ amounts.getLastD amountIn = amountOut := by
  induction path generalizing amountIn amounts after world with
  | nil =>
    obtain ⟨none_, same⟩ := pure_yields done
    cases none_
    exact ⟨same.symm, rfl, rfl⟩
  | cons input path ih =>
    cases path with
    | nil =>
      obtain ⟨none_, same⟩ := pure_yields done
      cases none_
      exact ⟨same.symm, rfl, rfl⟩
    | cons output rest =>
      obtain ⟨⟨amount, later⟩, between, quoted, done⟩ := yields_bind.mp done
      obtain ⟨unchanged, length, last⟩ := ih quoted
      obtain ⟨reserves, between', read, done⟩ := yields_bind.mp done
      have kept : between' = between := @getReserves_keeps (fun state => state = between) _ _ _ between reserves between' rfl read
      obtain ⟨first, _, done⟩ := yields_checked_bind.mp done
      obtain ⟨same, kept'⟩ := pure_yields done
      cases same
      rw [← kept', kept, unchanged]
      refine ⟨rfl, congrArg Nat.succ length, ?_⟩
      rw [List.getLastD_cons]
      exact last

/-- The amounts for a path: one for each token of it. -/
structure Quoted (path : List Address) (amounts : List Uint256) : Prop where
  long : 2 ≤ path.length
  length : amounts.length = path.length

variable {amountIn amountOut limit amount : Uint256} {what : Exception}

theorem quoteOut_quoted (done : Yields (quoteOut entry amountIn limit path what) world amounts after) :
    after = world ∧ Quoted path amounts ∧ amounts.headD 0 = amountIn := by
  obtain ⟨quoted, between, quoting, rest⟩ := yields_bind.mp done
  obtain ⟨long, quoting⟩ := yields_require_bind.mp quoting
  obtain ⟨behind, between', hopping, first⟩ := yields_bind.mp quoting
  obtain ⟨unchanged, length⟩ := amountsOutFrom_length path hopping
  obtain ⟨same, kept⟩ := pure_yields first
  obtain ⟨_, rest⟩ := yields_require_bind.mp rest
  obtain ⟨same', kept'⟩ := pure_yields rest
  rw [← kept', ← kept, unchanged, ← same', ← same]
  exact ⟨rfl, ⟨long, by rw [List.length_cons]; omega⟩, rfl⟩

/-- What an exact output needs does not depend on the limit. -/
theorem quoteIn_quoted (done : Yields (quoteIn entry amountOut limit path what) world amounts after) :
    after = world ∧ Quoted path amounts ∧ amounts.getLastD 0 = amountOut ∧
      Yields (getAmountsIn entry.router.factory amountOut path) world amounts world := by
  obtain ⟨quoted, between, quoting, rest⟩ := yields_bind.mp done
  obtain ⟨_, rest⟩ := yields_require_bind.mp rest
  obtain ⟨same', kept'⟩ := pure_yields rest
  have whole := quoting
  obtain ⟨long, quoting⟩ := yields_require_bind.mp quoting
  obtain ⟨⟨first, behind⟩, between', hopping, last⟩ := yields_bind.mp quoting
  obtain ⟨unchanged, length, final⟩ := amountsInTo_length path hopping
  obtain ⟨same, kept⟩ := pure_yields last
  have here : between = world := kept.symm.trans unchanged
  rw [same', here] at whole
  refine ⟨kept'.symm.trans here, ⟨long, ?_⟩, ?_, whole⟩
  · rw [← same', ← same, List.length_cons]
    omega
  · rw [← same', ← same, List.getLastD_cons]
    exact final

theorem payTokens_booked (kept : Kept entry.router.factory world factory) {answer : Unit}
    (done : Yields (payTokens entry amounts path) world answer after) :
    Booked (pay (some (path.headD 0)) entry.caller (factory.getPair (path.getD 0 0) (path.getD 1 0)) (amounts.headD 0).toNat) world after ∧
      Idle world after := transferFrom_booked (pair_found kept done)

theorem depositNative_booked {answer : Unit} (done : Yields (depositNative entry amount) world answer after) :
    Booked (pay none entry.self entry.router.wrappedNative amount.toNat + give (some entry.router.wrappedNative) entry.self amount.toNat)
      world after ∧ Idle world after := by
  unfold depositNative at done
  obtain ⟨between, sending, depositing⟩ := yields_when_bind.mp done
  have sent : Booked (pay none entry.self entry.router.wrappedNative amount.toNat) world between ∧ Idle world between := by
    split at sending
    case isTrue => exact sendTokens_booked sending
    case isFalse nothing =>
      rw [sending, not_not.mp nothing]
      exact ⟨(Books.refl _).congr pay_zero.symm, .refl _⟩
  obtain ⟨minted, idle⟩ := deposit_booked depositing
  exact ⟨sent.1.trans minted, sent.2.trans idle⟩

theorem depositNative_wrapper {answer : Unit} (done : Yields (depositNative entry amount) world answer after) :
    ∃ between token, Idle world between ∧ between.at_ asNativeWrapper entry.router.wrappedNative = some token := by
  unfold depositNative at done
  obtain ⟨between, sending, depositing⟩ := yields_when_bind.mp done
  obtain ⟨token, _, known, _⟩ := callContractFunction_yields depositing
  refine ⟨between, token, ?_, known⟩
  split at sending
  case isTrue => exact (sendTokens_booked sending).2
  case isFalse =>
    rw [sending]
    exact .refl _

theorem payNative_booked (kept : Kept entry.router.factory world factory) {answer : Unit}
    (done : Yields (payNative entry amounts path) world answer after) :
    Booked (pay none entry.self entry.router.wrappedNative (amounts.headD 0).toNat +
      give (some entry.router.wrappedNative) (factory.getPair (path.getD 0 0) (path.getD 1 0)) (amounts.headD 0).toNat) world after ∧
      Idle world after := by
  obtain ⟨_, between, depositing, rest⟩ := yields_bind.mp done
  obtain ⟨wrapped, idle⟩ := depositNative_booked depositing
  obtain ⟨sent, idle'⟩ := transfer_booked (pair_found (Kept.steady kept idle.steady) rest)
  refine ⟨(wrapped.trans sent).congr ?_, idle.trans idle'⟩
  unfold pay
  abel

theorem unwrapTo_booked {answer : Unit} (done : Yields (unwrapTo entry receiver amount) world answer after) :
    Booked (pay none entry.router.wrappedNative receiver amount.toNat - give (some entry.router.wrappedNative) entry.self amount.toNat)
      world after ∧ Idle world after := by
  obtain ⟨_, between, withdrawing, sending⟩ := yields_bind.mp done
  obtain ⟨unwrapped, idle⟩ := withdraw_booked withdrawing
  obtain ⟨sent, idle'⟩ := sendTokens_booked sending
  refine ⟨(unwrapped.trans sent).congr ?_, idle.trans idle'⟩
  unfold pay
  abel

/-- The pair for two tokens, if there is one. -/
def poolOf (world : World) (home tokenA tokenB : Address) : Option DEXV2Pair :=
  (world.at_ asFactory home).bind fun factory =>
    if factory.getPair tokenA tokenB = 0 then none else world.at_ asPair (factory.getPair tokenA tokenB)

/-- The shares that a holder gets as fees, whenever shares of the pair are made or destroyed. -/
def feeShares (world : World) (home tokenA tokenB holder : Address) : ℕ :=
  ((world.at_ asFactory home).bind fun factory => (poolOf world home tokenA tokenB).map fun pool =>
    if factory.feeTo = holder then feeOf holder pool else 0).getD 0

theorem pool_found (kept : Kept home world factory) (registered : factory.getPair tokenA tokenB ≠ 0) :
    poolOf world home tokenA tokenB = world.at_ asPair (factory.getPair tokenA tokenB) := by
  unfold poolOf
  rw [kept.here]
  exact if_neg registered

theorem pool_missing (kept : Kept home world factory) (unregistered : factory.getPair tokenA tokenB = 0) :
    poolOf world home tokenA tokenB = none := by
  unfold poolOf
  rw [kept.here]
  exact if_pos unregistered

theorem feeShares_found {pool : DEXV2Pair} {holder : Address} (kept : Kept home world factory)
    (found : poolOf world home tokenA tokenB = some pool) :
    feeShares world home tokenA tokenB holder = if factory.feeTo = holder then feeOf holder pool else 0 := by
  unfold feeShares
  rw [kept.here, found]
  rfl

theorem feeShares_missing {holder : Address} (missing : poolOf world home tokenA tokenB = none) :
    feeShares world home tokenA tokenB holder = 0 := by
  unfold feeShares
  rw [missing]
  cases world.at_ asFactory home with
  | none | some => rfl

/-- The pair that shares are made of, which may be a new one. -/
structure Ready (home tokenA tokenB : Address) (world after : World) (factory : DEXV2Factory) (pool : DEXV2Pair) : Prop where
  kept : Kept home after factory
  here : after.at_ asPair (factory.getPair tokenA tokenB) = some pool
  ofHome : pool.factory = home
  booked : Booked 0 world after
  routers : ∀ other router, world.at_ asRouter other = some router → after.at_ asRouter other = some router
  fees : ∀ holder, (if factory.feeTo = holder then feeOf holder pool else 0) = feeShares world home tokenA tokenB holder

theorem ready_found (kept : Kept home world factory) (registered : factory.getPair tokenA tokenB ≠ 0) :
    ∃ pool, Ready home tokenA tokenB world world factory pool := by
  obtain ⟨pool, here, initialised⟩ := kept.initialised tokenA tokenB registered
  refine ⟨pool, kept, here, initialised.factory, .refl _, fun _ _ known => known, ?_⟩
  intro holder
  exact (feeShares_found kept ((pool_found kept registered).trans here)).symm

theorem ready_created {pair : Address} {around : Around} (kept : Kept home world factory)
    (unregistered : factory.getPair tokenA tokenB = 0)
    (done : Yields (DEXV2Factory.createPair around home tokenA tokenB) world pair after) :
    ∃ factory' pool, Ready home tokenA tokenB world after factory' pool := by
  obtain ⟨token0, token1, created, tokens⟩ := createPair_created done
  have opened := createPair_opened done
  obtain ⟨pool, here, kLast, _⟩ := opened.empty
  obtain ⟨contract, there, isHome, _⟩ := created.initialised
  cases there.symm.trans here
  have apart : token0 ≠ token1 := fun same => (BitVec.lt_irrefl token1) (same ▸ created.sorted)
  have found : (factory.register token0 token1 pair).getPair tokenA tokenB = pair := (register_getPair apart).trans (if_pos tokens)
  refine ⟨_, pool, Kept.created kept created, ?_, isHome, opened.booked, opened.routers, ?_⟩
  · rw [found]
    exact here
  · intro holder
    have due : feeDue pool = 0 := if_pos kLast
    rw [feeShares_missing (pool_missing kept unregistered)]
    unfold feeOf
    rw [due, ite_self, ite_self]

theorem addLiquidityAmounts_ready {amountADesired amountBDesired amountAMin amountBMin amountA amountB : Uint256}
    (kept : Kept entry.router.factory world factory)
    (done : Yields (addLiquidityAmounts entry tokenA tokenB amountADesired amountBDesired amountAMin amountBMin) world
      (amountA, amountB) after) :
    (∃ factory' pool, Ready entry.router.factory tokenA tokenB world after factory' pool) ∧
      ∃ reserveA reserveB, optimalAmounts reserveA reserveB amountADesired amountBDesired amountAMin amountBMin = .ok (amountA, amountB) := by
  have done := pair_found kept done
  split at done
  case isTrue unregistered =>
    obtain ⟨pair, between, creating, rest⟩ := yields_bind.mp done
    obtain ⟨pool, _, rest⟩ := yields_getContract_bind.mp rest
    obtain ⟨optimal, same⟩ := checked_yields rest
    rw [same]
    exact ⟨ready_created kept unregistered creating, _, _, optimal⟩
  case isFalse registered =>
    simp only [pure_bind] at done
    obtain ⟨pool, _, rest⟩ := yields_getContract_bind.mp done
    obtain ⟨optimal, same⟩ := checked_yields rest
    rw [same]
    exact ⟨⟨factory, ready_found kept registered⟩, _, _, optimal⟩

/-- Asking for no less than one would give is asking for exactly that. -/
theorem optimal_exact {reserveA reserveB amountADesired amountAMin amountA amountB : Uint256}
    (done : optimalAmounts reserveA reserveB amountADesired amount amountAMin amount = .ok (amountA, amountB)) : amountB = amount := by
  unfold optimalAmounts at done
  split at done
  case isTrue =>
    cases done
    rfl
  case isFalse =>
    obtain ⟨optimal, _, rest⟩ := bind_eq_ok.mp done
    split at rest
    case isTrue most =>
      obtain ⟨least, same⟩ := guard_eq_ok.mp rest
      cases same
      apply BitVec.eq_of_toNat_eq
      rw [BitVec.lt_def] at least
      rw [BitVec.le_def] at most
      omega
    case isFalse =>
      obtain ⟨_, _, rest⟩ := bind_eq_ok.mp rest
      split at rest
      case isTrue =>
        obtain ⟨_, same⟩ := guard_eq_ok.mp rest
        cases same
        rfl
      case isFalse => cases rest

/-- What a mint issues after payments, to everyone. -/
structure Made (pair : Address) (world between after : World) (home tokenA tokenB «to» : Address) (liquidity : Uint256) : Prop where
  some_ : liquidity.toNat ≠ 0
  steady : Steady between after
  booked : ∃ feeTo fee locked, Booked (give (some pair) feeTo fee + give (some pair) 0 locked + give (some pair) «to» liquidity.toNat)
    between after ∧ ∀ holder, (if feeTo = holder then fee else 0) = feeShares world home tokenA tokenB holder

theorem ready_made {prepared : World} {pool : DEXV2Pair} {around : Around} {liquidity : Uint256}
    (ready : Ready home tokenA tokenB world prepared factory pool) (idle : Idle prepared between)
    (done : Yields (DEXV2Pair.callMint around (factory.getPair tokenA tokenB) receiver) between liquidity after) :
    Made (factory.getPair tokenA tokenB) world between after home tokenA tokenB receiver liquidity := by
  obtain ⟨pair, factory', issued⟩ := callMint_issued done
  obtain ⟨changed, there, due⟩ := idle.pairs _ pool ready.here
  cases issued.here.symm.trans there
  have charged := issued.charged
  rw [due.factory, ready.ofHome] at charged
  cases charged.symm.trans ((idle.factories home).trans ready.kept.here)
  refine ⟨issued.some_, issued.steady, _, _, _, issued.booked, ?_⟩
  intro holder
  rw [← ready.fees holder, SameDue.feeOf due]
  by_cases isHolder : factory.feeTo = holder
  · rw [if_pos isHolder, if_pos isHolder, isHolder]
  · rw [if_neg isHolder, if_neg isHolder]

/-- What a burn pays, in the order of the tokens that it is for. -/
theorem burn_pays {pair : DEXV2Pair} {source target : Address} {sorted : Address × Address} {amount0 amount1 : Uint256}
    (initialised : Initialised home tokenA tokenB pair) (order : sortTokens tokenA tokenB = .ok sorted) :
    (pay (some pair.token0) source target amount0.toNat + pay (some pair.token1) source target amount1.toNat : Flow Asset Address) =
      pay (some tokenA) source target (if tokenA = sorted.1 then amount0 else amount1).toNat +
        pay (some tokenB) source target (if tokenA = sorted.1 then amount1 else amount0).toNat := by
  obtain ⟨apart, same⟩ := sortTokens_ok order
  have tokens := Initialised.sorted_tokens initialised
  by_cases less : tokenA < tokenB
  · rw [if_pos less] at tokens same
    rw [same, if_pos rfl, if_pos rfl, tokens.1, tokens.2]
  · rw [if_neg less] at tokens same
    rw [same, if_neg apart, if_neg apart, tokens.1, tokens.2, add_comm]

/-- Liquidity that is taken out: what the caller gives up, what the fees are, and what is paid for it. -/
structure Withdrawn (pair caller «to» : Address) (liquidity amountA amountB : Uint256) (world after : World)
    (home tokenA tokenB : Address) : Prop where
  someA : amountA.toNat ≠ 0
  someB : amountB.toNat ≠ 0
  steady : Steady world after
  booked : ∃ feeTo fee burnt, Booked (pay (some pair) caller pair liquidity.toNat +
      (give (some pair) feeTo fee - give (some pair) pair burnt) +
      (pay (some tokenA) pair «to» amountA.toNat + pay (some tokenB) pair «to» amountB.toNat)) world after ∧
    ∀ holder, (if feeTo = holder then fee else 0) = feeShares world home tokenA tokenB holder

theorem removeLiquidity_withdrawn {liquidity amountAMin amountBMin amountA amountB deadline : Uint256}
    (kept : Kept entry.router.factory world factory) (nobody : 0 ∉ world.contracts.keys)
    (done : Yields (removeLiquidity entry tokenA tokenB liquidity amountAMin amountBMin receiver deadline) world (amountA, amountB) after) :
    factory.getPair tokenA tokenB ≠ 0 ∧
      Withdrawn (factory.getPair tokenA tokenB) entry.caller receiver liquidity amountA amountB world after entry.router.factory
        tokenA tokenB := by
  obtain ⟨_, done⟩ := yields_require_bind.mp done
  have done := pair_found kept done
  obtain ⟨_, between, paying, done⟩ := yields_bind.mp done
  obtain ⟨paid, idle⟩ := transferFrom_booked paying
  obtain ⟨⟨amount0, amount1⟩, burnt, burning, done⟩ := yields_bind.mp done
  obtain ⟨pair, factory', redeemed⟩ := callBurn_redeemed burning
  obtain ⟨sorted, order, done⟩ := yields_checked_bind.mp done
  obtain ⟨_, done⟩ := yields_require_bind.mp done
  obtain ⟨_, done⟩ := yields_require_bind.mp done
  obtain ⟨same, kept'⟩ := pure_yields done
  obtain ⟨sameA, sameB⟩ := Prod.mk.inj same
  have registered : factory.getPair tokenA tokenB ≠ 0 := by
    intro unregistered
    have there := at_mem_keys redeemed.here
    rw [idle.keys, unregistered] at there
    exact nobody there
  obtain ⟨pool, here, initialised⟩ := kept.initialised tokenA tokenB registered
  obtain ⟨changed, there, due⟩ := idle.pairs _ pool here
  cases redeemed.here.symm.trans there
  have charged := redeemed.charged
  rw [due.factory, initialised.factory] at charged
  cases charged.symm.trans ((idle.factories _).trans kept.here)
  have pool_ := (pool_found kept registered).trans here
  rw [← kept', ← sameA, ← sameB]
  refine ⟨registered, ?_, ?_, idle.steady.trans redeemed.steady, factory.feeTo, feeOf factory.feeTo pair,
    (pair.balanceOf (factory.getPair tokenA tokenB)).toNat, (paid.trans redeemed.booked).congr ?_, ?_⟩
  · split
    · exact redeemed.some0
    · exact redeemed.some1
  · split
    · exact redeemed.some1
    · exact redeemed.some0
  · rw [due.token0, due.token1, ← burn_pays initialised order]
    abel
  · intro holder
    rw [feeShares_found kept pool_, SameDue.feeOf due]
    by_cases isHolder : factory.feeTo = holder
    · rw [if_pos isHolder, if_pos isHolder, isHolder]
    · rw [if_neg isHolder, if_neg isHolder]

end OrbiterSDK.Proofs.RouterPayments
