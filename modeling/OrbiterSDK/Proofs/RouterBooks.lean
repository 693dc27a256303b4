import OrbiterSDK.Proofs.RouterPayments

/-! What a router keeps. Whatever goes through its hands, the books of a call say what it is
for: the caller pays, the receiver gets, and pairs give and take in between. -/

namespace OrbiterSDK.Proofs.RouterBooks
open Lib Atomic DEXV2 DexCalls DEXV2Library DEXV2Router02 Markets Flow Payments PairPayments RouterPayments
open PairRegistry (Kept)

def pairOf (world : World) (home tokenA tokenB : Address) : Address :=
  ((world.at_ asFactory home).map fun factory => factory.getPair tokenA tokenB).getD 0

/-- Native coins that become wrapped ones, and back. -/
def wrap (wrapper source target : Address) (amount : ℕ) : Flow Asset Address :=
  pay none source wrapper amount + give (some wrapper) target amount

def unwrap (wrapper source target : Address) (amount : ℕ) : Flow Asset Address :=
  pay none wrapper target amount - give (some wrapper) source amount

/-- Shares that are made: as fees, for nobody, and for who asked for them. -/
def shares (pair feeTo : Address) (fee locked : ℕ) («to» : Address) (liquidity : ℕ) : Flow Asset Address :=
  give (some pair) feeTo fee + give (some pair) 0 locked + give (some pair) «to» liquidity

/-- Shares that the caller gives up for being destroyed, with those that are made as fees. -/
def returned (pair caller : Address) (liquidity : ℕ) (feeTo : Address) (fee burnt : ℕ) : Flow Asset Address :=
  pay (some pair) caller pair liquidity + (give (some pair) feeTo fee - give (some pair) pair burnt)

/-- The router has of everything what it had. -/
def KeepsNothing (router : Address) (world after : World) : Prop := ∀ asset, holding after asset router = holding world asset router

variable (entry : Entry)

/-- What the books of a call are to be, with the amounts that it reports. -/
def Promised (world after : World) : Call → List Uint256 → Prop
  | .addLiquidity tokenA tokenB _ _ _ _ «to» _, [amountA, amountB, liquidity] =>
    let pair := pairOf after entry.router.factory tokenA tokenB
    ∃ feeTo fee locked, Booked (pay (some tokenA) entry.caller pair amountA.toNat + pay (some tokenB) entry.caller pair amountB.toNat +
      shares pair feeTo fee locked «to» liquidity.toNat) world after
  | .addLiquidityNative token _ _ _ «to» _, [amountToken, amountNative, liquidity] =>
    let pair := pairOf after entry.router.factory token entry.router.wrappedNative
    ∃ feeTo fee locked, Booked (pay (some token) entry.caller pair amountToken.toNat +
      wrap entry.router.wrappedNative entry.caller pair amountNative.toNat + shares pair feeTo fee locked «to» liquidity.toNat) world after
  | .removeLiquidity tokenA tokenB liquidity _ _ «to» _, [amountA, amountB] =>
    let pair := pairOf after entry.router.factory tokenA tokenB
    ∃ feeTo fee burnt, Booked (returned pair entry.caller liquidity.toNat feeTo fee burnt +
      (pay (some tokenA) pair «to» amountA.toNat + pay (some tokenB) pair «to» amountB.toNat)) world after
  | .removeLiquidityNative token liquidity _ _ «to» _, [amountToken, amountNative] =>
    let pair := pairOf after entry.router.factory token entry.router.wrappedNative
    ∃ feeTo fee burnt, Booked (returned pair entry.caller liquidity.toNat feeTo fee burnt +
      (pay (some token) pair «to» amountToken.toNat + unwrap entry.router.wrappedNative pair «to» amountNative.toNat)) world after
  | .swapExactTokensForTokens _ _ path «to» _, amounts | .swapTokensForExactTokens _ _ path «to» _, amounts =>
    let pairs := pairOf after entry.router.factory
    Booked (pay (some (path.headD 0)) entry.caller (pairs (path.getD 0 0) (path.getD 1 0)) (amounts.headD 0).toNat +
      hops pairs «to» amounts.tail path) world after
  | .swapExactNativeForTokens _ path «to» _, amounts | .swapNativeForExactTokens _ _ path «to» _, amounts =>
    let pairs := pairOf after entry.router.factory
    Booked (wrap entry.router.wrappedNative entry.caller (pairs (path.getD 0 0) (path.getD 1 0)) (amounts.headD 0).toNat +
      hops pairs «to» amounts.tail path) world after
  | .swapTokensForExactNative _ _ path «to» _, amounts | .swapExactTokensForNative _ _ path «to» _, amounts =>
    let pairs := pairOf after entry.router.factory
    Booked (pay (some (path.headD 0)) entry.caller (pairs (path.getD 0 0) (path.getD 1 0)) (amounts.headD 0).toNat +
      (hops pairs entry.self amounts.tail path + unwrap entry.router.wrappedNative entry.self «to» (amounts.getLastD 0).toNat)) world after
  | _, _ => False

/-- Nothing is left with the router if no more value comes than is spent or sent back, no less
than is spent, the router is not the receiver, and no fees are due to it. -/
def Clean (world : World) : Call → Prop
  | .addLiquidity tokenA tokenB _ _ _ _ «to» _ | .removeLiquidity tokenA tokenB _ _ _ «to» _ =>
    entry.value = 0 ∧ «to» ≠ entry.self ∧ feeShares world entry.router.factory tokenA tokenB entry.self = 0
  | .addLiquidityNative token _ _ amountNativeMin «to» _ => amountNativeMin.toNat ≤ entry.value.toNat ∧ «to» ≠ entry.self ∧
    feeShares world entry.router.factory token entry.router.wrappedNative entry.self = 0
  | .removeLiquidityNative token _ _ _ «to» _ => entry.value = 0 ∧ «to» = entry.caller ∧
    feeShares world entry.router.factory token entry.router.wrappedNative entry.self = 0
  | .swapExactTokensForTokens _ _ _ «to» _ | .swapTokensForExactTokens _ _ _ «to» _ | .swapTokensForExactNative _ _ _ «to» _
  | .swapExactTokensForNative _ _ _ «to» _ => entry.value = 0 ∧ «to» ≠ entry.self
  | .swapExactNativeForTokens _ _ «to» _ => «to» ≠ entry.self
  | .swapNativeForExactTokens amountOut _ path «to» _ =>
    (∀ amounts, Yields (getAmountsIn entry.router.factory amountOut path) world amounts world → entry.value = amounts.headD 0) ∧
      «to» ≠ entry.self

/-- A router where it is called, by someone else. -/
structure Serving (world : World) (factory : DEXV2Factory) : Prop where
  kept : Kept entry.router.factory world factory
  here : world.at_ asRouter entry.self = some entry.router
  nobody : 0 ∉ world.contracts.keys
  outside : entry.caller ≠ entry.self

variable {entry} {world sent between after : World} {factory : DEXV2Factory} {router wrapper pair : Address} {flow : Flow Asset Address}
  {amounts : List Uint256} {path : List Address} {β : Type}

theorem keepsNothing_iff (booked : Booked flow world after) : KeepsNothing router world after ↔ ∀ asset, flow asset router = 0 := by
  constructor
  · intro same asset
    have here := booked asset router
    rw [same asset] at here
    omega
  · intro nothing asset
    have here := booked asset router
    rw [nothing asset, add_zero] at here
    exact Int.natCast_inj.mp here

theorem pairOf_eq (kept : Kept entry.router.factory world factory) : pairOf world entry.router.factory = factory.getPair := by
  funext tokenA tokenB
  unfold pairOf
  rw [kept.here]
  rfl

theorem Serving.steady (serving : Serving entry world factory) (steady : Steady world after) : Serving entry after factory :=
  ⟨RouterPayments.Kept.steady serving.kept steady, (steady.routers _).trans serving.here, steady.keys ▸ serving.nobody, serving.outside⟩

theorem router_not_pair {address : Address} {contract : DEXV2Pair} {given : DEXV2Router02} (isRouter : world.at_ asRouter router = some given)
    (isPair : world.at_ asPair address = some contract) : router ≠ address := by
  intro same
  have isToken := pair_shares isPair
  rw [← same, (router_other isRouter).1] at isToken
  cases isToken

theorem Serving.apart (serving : Serving entry world factory) (tokenA tokenB : Address) (registered : factory.getPair tokenA tokenB ≠ 0) :
    entry.self ≠ factory.getPair tokenA tokenB := by
  obtain ⟨contract, there, _⟩ := serving.kept.initialised tokenA tokenB registered
  exact router_not_pair serving.here there

theorem router_not_wrapper {token : ERC20} {given : DEXV2Router02} (isRouter : world.at_ asRouter router = some given)
    (isWrapper : world.at_ asNativeWrapper wrapper = some token) : router ≠ wrapper := by
  intro same
  have isToken := (wrapper_token isWrapper).1
  rw [← same, (router_other isRouter).1] at isToken
  cases isToken

/-- The hops of a swap, and what they leave with the router. -/
structure Swept (entry : Entry) (factory : DEXV2Factory) (receiver : Address) (amounts : List Uint256) (path : List Address)
    (between after : World) : Prop where
  booked : Booked (hops factory.getPair receiver amounts.tail path) between after
  steady : Steady between after
  first : entry.self ≠ factory.getPair (path.getD 0 0) (path.getD 1 0)
  some_ : (amounts.getLastD 0).toNat ≠ 0
  left : ∀ asset, hops factory.getPair receiver amounts.tail path asset entry.self =
    (give (some (path.getLastD 0)) receiver (amounts.getLastD 0).toNat : Flow Asset Address) asset entry.self

theorem swap_swept {receiver : Address} {answer : Unit} (serving : Serving entry between factory) (quoted : Quoted path amounts)
    (done : Yields (swap entry receiver amounts.tail path) between answer after) : Swept entry factory receiver amounts path between after := by
  obtain ⟨booked, steady, traded⟩ := swap_booked path amounts.tail serving.kept done
  obtain ⟨long, length⟩ := quoted
  -- two tokens at least, and two amounts
  obtain ⟨input, output, rest, same⟩ : ∃ input output rest, path = input :: output :: rest := by
    match path, long with
    | input :: output :: rest, _ => exact ⟨input, output, rest, rfl⟩
  subst same
  obtain ⟨first, amountOut, behind, same⟩ : ∃ first amountOut behind, amounts = first :: amountOut :: behind := by
    match amounts, length with
    | first :: amountOut :: behind, _ => exact ⟨first, amountOut, behind, rfl⟩
  subst same
  have aligned : behind.length = rest.length := Nat.succ.inj (Nat.succ.inj length)
  have registered : factory.getPair input output ≠ 0 := traded.1
  refine ⟨booked, steady, serving.apart input output registered, ?_, ?_⟩
  · rw [List.getLastD_cons, List.getLastD_cons]
    exact traded_last input output rest amountOut behind aligned traded
  · intro asset
    rw [List.getLastD_cons, List.getLastD_cons, List.getLastD_cons, List.getLastD_cons]
    exact hops_outside serving.apart input output rest amountOut behind aligned traded

/-- What a caller pays into the first pair of a path. -/
abbrev paidIn (entry : Entry) (pairs : Address → Address → Address) (amounts : List Uint256) (path : List Address) : Flow Asset Address :=
  pay (some (path.headD 0)) entry.caller (pairs (path.getD 0 0) (path.getD 1 0)) (amounts.headD 0).toNat

/-- Of a flow that takes from the router what it spends, nothing stays exactly if as much comes
in and the rest of it passes by. -/
theorem balanced_iff {spent value : ℕ} {rest : Flow Asset Address} (elsewhere : rest none router = 0)
    (same : ∀ asset, flow asset router = (rest - give none router spent : Flow Asset Address) asset router) :
    (∀ asset, (give none router value + flow : Flow Asset Address) asset router = 0) ↔ value = spent ∧ ∀ asset, rest asset router = 0 := by
  rw [← balance_none_iff elsewhere]
  refine forall_congr' fun asset => ?_
  change give _ _ _ asset router + flow asset router = 0 ↔ give _ _ _ asset router - give _ _ _ asset router + rest asset router = 0
  rw [same]
  change _ + (rest asset router - give _ _ _ asset router) = 0 ↔ _
  omega

/-- Coins that come in and are spent, and tokens for a receiver. -/
theorem clean_iff {spent amount value : ℕ} {token receiver : Address} (some_ : amount ≠ 0)
    (same : ∀ asset, flow asset router = (give (some token) receiver amount - give none router spent : Flow Asset Address) asset router) :
    (∀ asset, (give none router value + flow : Flow Asset Address) asset router = 0) ↔ value = spent ∧ receiver ≠ router := by
  rw [balanced_iff (give_asset (Option.some_ne_none token).symm) same, give_none_iff]
  constructor
  · rintro ⟨balanced, free⟩
    exact ⟨balanced, fun equal => some_ (free equal.symm)⟩
  · rintro ⟨balanced, apart⟩
    exact ⟨balanced, fun equal => absurd equal.symm apart⟩

theorem toNat_eq_zero {amount : Uint256} : amount.toNat = 0 ↔ amount = 0 :=
  ⟨fun zero => BitVec.eq_of_toNat_eq zero, fun zero => congrArg BitVec.toNat zero⟩

theorem Serving.somewhere (serving : Serving entry world factory) : entry.self ≠ 0 := by
  intro same
  exact serving.nobody (same ▸ PairRegistry.at_mem_keys serving.here)

/-- Shares that are made leave nothing with a holder who is neither the receiver nor due any fees. -/
theorem shares_none_iff {fee locked liquidity : ℕ} {feeTo receiver : Address} (somewhere : router ≠ 0) (some_ : liquidity ≠ 0) :
    (∀ asset, shares pair feeTo fee locked receiver liquidity asset router = 0) ↔
      receiver ≠ router ∧ (if feeTo = router then fee else 0) = 0 := by
  have nonneg : ∀ {holder : Address} {amount : ℕ} asset, 0 ≤ (give (some pair) holder amount : Flow Asset Address) asset router :=
    fun _ => give_nonneg
  have early : ∀ asset, 0 ≤ (give (some pair) feeTo fee + give (some pair) 0 locked : Flow Asset Address) asset router :=
    fun asset => Int.add_nonneg (nonneg asset) (nonneg asset)
  unfold shares
  rw [add_none_iff early nonneg, add_none_iff nonneg nonneg, give_none_iff, give_none_iff, give_none_iff]
  constructor
  · rintro ⟨⟨fees, _⟩, free⟩
    refine ⟨fun equal => some_ (free equal.symm), ?_⟩
    split
    case isTrue equal => exact fees equal.symm
    case isFalse => rfl
  · rintro ⟨apart, fees⟩
    refine ⟨⟨fun equal => ?_, fun equal => absurd equal somewhere⟩, fun equal => absurd equal.symm apart⟩
    rw [if_pos equal.symm] at fees
    exact fees

/-- What is sent back of a value. -/
def dust (value amount : Uint256) : ℕ := value.toNat - amount.toNat

theorem refund_booked {value amount : Uint256} {source target : Address} {result : β} {next : Unit → Run β}
    (done : Yields (if amount < value then do
        let rest ← Atomic.checked (Uint256.sub value amount)
        let answer ← sendTokens source target rest
        next answer
      else next ()) world result after) :
    ∃ between, Booked (pay none source target (dust value amount)) world between ∧ Idle world between ∧
      Yields (next ()) between result after := by
  unfold dust
  split at done
  case isTrue more =>
    obtain ⟨rest, taken, done⟩ := yields_checked_bind.mp done
    obtain ⟨_, between, sending, done⟩ := yields_bind.mp done
    have taken := Uint256.sub_eq_ok.mp taken
    obtain ⟨booked, idle⟩ := sendTokens_booked sending
    have same : rest.toNat = value.toNat - amount.toNat := by omega
    rw [same] at booked
    exact ⟨between, booked, idle, done⟩
  case isFalse enough =>
    rw [BitVec.lt_def] at enough
    have nothing : value.toNat - amount.toNat = 0 := by omega
    rw [nothing, pay_zero]
    exact ⟨world, .refl _, .refl _, done⟩

variable {tokenA tokenB token receiver : Address} {amountADesired amountBDesired amountAMin amountBMin amountA amountB liquidity deadline
  amountTokenDesired amountTokenMin amountNativeMin amountToken amountNative : Uint256}

section Called
variable (start : Booked (pay none entry.caller entry.self entry.value.toNat) world sent) (serving : Serving entry sent factory)
include start serving

/-- The router keeps the value and what the rest of the call leaves with it. -/
theorem keepsNothing_sent (booked : Booked flow sent after) : KeepsNothing entry.self world after ↔
    ∀ asset, (give none entry.self entry.value.toNat + flow : Flow Asset Address) asset entry.self = 0 := by
  rw [keepsNothing_iff (start.trans booked)]
  refine forall_congr' fun asset => ?_
  change pay _ _ _ _ asset entry.self + flow asset entry.self = 0 ↔ give _ _ _ asset entry.self + flow asset entry.self = 0
  rw [pay_apply, give_holder serving.outside.symm, sub_zero]

omit serving in
theorem booked_sent (booked : Booked flow sent after) (nothing : entry.value = 0) : Booked flow world after := by
  apply (start.trans booked).congr
  rw [toNat_eq_zero.mpr nothing, pay_zero, zero_add]

theorem tokensIn_clean (paid : Booked (paidIn entry factory.getPair amounts path) sent between)
    (swept : Swept entry factory receiver amounts path between after) :
    (KeepsNothing entry.self world after ∧ Booked (paidIn entry factory.getPair amounts path +
      hops factory.getPair receiver amounts.tail path) world after) ↔ entry.value = 0 ∧ receiver ≠ entry.self := by
  have booked := paid.trans swept.booked
  have left : ∀ asset, (paidIn entry factory.getPair amounts path + hops factory.getPair receiver amounts.tail path) asset entry.self =
      (give (some (path.getLastD 0)) receiver (amounts.getLastD 0).toNat - give none entry.self 0 : Flow Asset Address) asset entry.self := by
    intro asset
    change pay _ _ _ _ asset entry.self + hops _ _ _ _ asset entry.self = _
    rw [swept.left, pay_holder swept.first serving.outside.symm, give_zero, sub_zero, zero_add]
  rw [keepsNothing_sent start serving booked, clean_iff swept.some_ left, toNat_eq_zero]
  exact and_iff_left_of_imp fun clean => booked_sent start booked clean.1

/-- A swap for which the router pays with wrapped coins. -/
theorem coinsIn_clean (apart : entry.self ≠ entry.router.wrappedNative)
    (paid : Booked (wrap entry.router.wrappedNative entry.self (factory.getPair (path.getD 0 0) (path.getD 1 0)) (amounts.headD 0).toNat)
      sent between) (swept : Swept entry factory receiver amounts path between after) :
    (KeepsNothing entry.self world after ∧ Booked (wrap entry.router.wrappedNative entry.caller
        (factory.getPair (path.getD 0 0) (path.getD 1 0)) (amounts.headD 0).toNat + hops factory.getPair receiver amounts.tail path)
        world after) ↔ entry.value = amounts.headD 0 ∧ receiver ≠ entry.self := by
  have booked := paid.trans swept.booked
  have left : ∀ asset, (wrap entry.router.wrappedNative entry.self (factory.getPair (path.getD 0 0) (path.getD 1 0))
      (amounts.headD 0).toNat + hops factory.getPair receiver amounts.tail path) asset entry.self =
      (give (some (path.getLastD 0)) receiver (amounts.getLastD 0).toNat -
        give none entry.self (amounts.headD 0).toNat : Flow Asset Address) asset entry.self := by
    intro asset
    change pay _ _ _ _ asset entry.self + give _ _ _ asset entry.self + hops _ _ _ _ asset entry.self =
      give _ _ _ asset entry.self - give _ _ _ asset entry.self
    rw [swept.left, pay_apply, give_holder apart, give_holder swept.first]
    abel
  rw [keepsNothing_sent start serving booked, clean_iff swept.some_ left, BitVec.toNat_inj]
  refine and_iff_left_of_imp fun clean => (start.trans booked).congr ?_
  rw [clean.1]
  unfold wrap pay
  abel

theorem coinsOut_clean {last : World} (apart : entry.self ≠ entry.router.wrappedNative)
    (paid : Booked (paidIn entry factory.getPair amounts path) sent between)
    (swept : Swept entry factory entry.self amounts path between last) (wrapped : path.getLastD 0 = entry.router.wrappedNative)
    (unwrapped : Booked (unwrap entry.router.wrappedNative entry.self receiver (amounts.getLastD 0).toNat) last after) :
    (KeepsNothing entry.self world after ∧ Booked (paidIn entry factory.getPair amounts path +
        (hops factory.getPair entry.self amounts.tail path +
          unwrap entry.router.wrappedNative entry.self receiver (amounts.getLastD 0).toNat)) world after) ↔
      entry.value = 0 ∧ receiver ≠ entry.self := by
  have booked := paid.trans (swept.booked.trans unwrapped)
  have left : ∀ asset, (paidIn entry factory.getPair amounts path + (hops factory.getPair entry.self amounts.tail path +
      unwrap entry.router.wrappedNative entry.self receiver (amounts.getLastD 0).toNat)) asset entry.self =
      (give none receiver (amounts.getLastD 0).toNat : Flow Asset Address) asset entry.self := by
    intro asset
    change pay _ _ _ _ asset entry.self + (hops _ _ _ _ asset entry.self +
      (pay _ _ _ _ asset entry.self - give _ _ _ asset entry.self)) = _
    rw [swept.left, wrapped, pay_holder swept.first serving.outside.symm, pay_apply, give_holder apart]
    abel
  rw [keepsNothing_sent start serving booked, add_none_iff (fun _ => give_nonneg) (fun asset => (left asset).symm ▸ give_nonneg)]
  simp only [left]
  rw [give_none_iff, give_none_iff]
  constructor
  · rintro ⟨⟨nothing, free⟩, _⟩
    exact ⟨toNat_eq_zero.mp (nothing rfl), fun same => swept.some_ (free same.symm)⟩
  · rintro ⟨nothing, elsewhere⟩
    exact ⟨⟨fun _ => toNat_eq_zero.mpr nothing, fun same => absurd same.symm elsewhere⟩, booked_sent start booked nothing⟩

/-- The books of shares that are made, for payments that take from the router what it spends. -/
theorem made_clean {spent fee locked liquidity : ℕ} {feeTo : Address} {moved : Flow Asset Address} (some_ : liquidity ≠ 0)
    (booked : Booked (moved + shares pair feeTo fee locked receiver liquidity) sent after)
    (out : ∀ asset, moved asset entry.self = -(give none entry.self spent : Flow Asset Address) asset entry.self) :
    KeepsNothing entry.self world after ↔
      entry.value.toNat = spent ∧ receiver ≠ entry.self ∧ (if feeTo = entry.self then fee else 0) = 0 := by
  have elsewhere : shares pair feeTo fee locked receiver liquidity none entry.self = 0 := by
    change give _ _ _ none entry.self + give _ _ _ none entry.self + give _ _ _ none entry.self = 0
    rw [give_asset (Option.some_ne_none _).symm, give_asset (Option.some_ne_none _).symm, give_asset (Option.some_ne_none _).symm]
    rfl
  have left : ∀ asset, (moved + shares pair feeTo fee locked receiver liquidity) asset entry.self =
      (shares pair feeTo fee locked receiver liquidity - give none entry.self spent : Flow Asset Address) asset entry.self := by
    intro asset
    change moved asset entry.self + shares _ _ _ _ _ _ asset entry.self = shares _ _ _ _ _ _ asset entry.self - give _ _ _ asset entry.self
    rw [out]
    abel
  rw [keepsNothing_sent start serving booked, balanced_iff elsewhere left, shares_none_iff serving.somewhere some_]

theorem addLiquidity_clean (done : Yields (addLiquidity entry tokenA tokenB amountADesired amountBDesired amountAMin amountBMin receiver
      deadline) sent (amountA, amountB, liquidity) after) :
    (KeepsNothing entry.self world after ∧ Promised entry world after
        (.addLiquidity tokenA tokenB amountADesired amountBDesired amountAMin amountBMin receiver deadline) [amountA, amountB, liquidity]) ↔
      entry.value = 0 ∧ receiver ≠ entry.self ∧ feeShares sent entry.router.factory tokenA tokenB entry.self = 0 := by
  obtain ⟨_, done⟩ := yields_require_bind.mp done
  obtain ⟨⟨amountA, amountB⟩, prepared, preparing, done⟩ := yields_bind.mp done
  obtain ⟨⟨factory', pool, ready⟩, _⟩ := addLiquidityAmounts_ready serving.kept preparing
  have done := pair_found ready.kept done
  obtain ⟨_, between, payingA, done⟩ := yields_bind.mp done
  obtain ⟨_, between', payingB, done⟩ := yields_bind.mp done
  obtain ⟨paidA, idleA⟩ := transferFrom_booked payingA
  obtain ⟨paidB, idleB⟩ := transferFrom_booked payingB
  obtain ⟨made, last, minting, done⟩ := yields_bind.mp done
  have issued := ready_made ready (idleA.trans idleB) minting
  obtain ⟨same, kept⟩ := pure_yields done
  cases same
  rw [kept] at issued
  obtain ⟨feeTo, fee, locked, booked, fees⟩ := issued.booked
  have pairs : pairOf after entry.router.factory = factory'.getPair :=
    pairOf_eq (RouterPayments.Kept.steady ready.kept ((idleA.trans idleB).steady.trans issued.steady))
  have apart := router_not_pair (ready.routers _ _ serving.here) ready.here
  have whole : Booked (pay (some tokenA) entry.caller (factory'.getPair tokenA tokenB) amountA.toNat +
      pay (some tokenB) entry.caller (factory'.getPair tokenA tokenB) amountB.toNat +
      shares (factory'.getPair tokenA tokenB) feeTo fee locked receiver liquidity.toNat) sent after := by
    apply (ready.booked.trans (paidA.trans (paidB.trans booked))).congr
    unfold shares
    abel
  have out : ∀ asset, (pay (some tokenA) entry.caller (factory'.getPair tokenA tokenB) amountA.toNat +
      pay (some tokenB) entry.caller (factory'.getPair tokenA tokenB) amountB.toNat : Flow Asset Address) asset entry.self =
      -(give none entry.self 0 : Flow Asset Address) asset entry.self := by
    intro asset
    change pay _ _ _ _ asset entry.self + pay _ _ _ _ asset entry.self = -give _ _ _ asset entry.self
    rw [pay_holder apart serving.outside.symm, pay_holder apart serving.outside.symm, give_zero]
    rfl
  rw [made_clean start serving issued.some_ whole out, fees, toNat_eq_zero]
  refine and_iff_left_of_imp fun clean => ⟨feeTo, fee, locked, ?_⟩
  rw [pairs]
  exact booked_sent start whole clean.1

theorem addLiquidityNative_clean (done : Yields (addLiquidityNative entry token amountTokenDesired amountTokenMin amountNativeMin receiver
      deadline) sent (amountToken, amountNative, liquidity) after) :
    (KeepsNothing entry.self world after ∧ Promised entry world after
        (.addLiquidityNative token amountTokenDesired amountTokenMin amountNativeMin receiver deadline)
        [amountToken, amountNative, liquidity]) ↔
      amountNativeMin.toNat ≤ entry.value.toNat ∧ receiver ≠ entry.self ∧
        feeShares sent entry.router.factory token entry.router.wrappedNative entry.self = 0 := by
  obtain ⟨_, done⟩ := yields_require_bind.mp done
  obtain ⟨⟨amountToken, amountNative⟩, prepared, preparing, done⟩ := yields_bind.mp done
  obtain ⟨⟨factory', pool, ready⟩, _, _, optimal⟩ := addLiquidityAmounts_ready serving.kept preparing
  have exact_ := optimal_exact optimal
  have done := pair_found ready.kept done
  obtain ⟨_, between, paying, done⟩ := yields_bind.mp done
  obtain ⟨_, wrapping, depositing, done⟩ := yields_bind.mp done
  obtain ⟨_, wrapped, transferring, done⟩ := yields_bind.mp done
  obtain ⟨paid, idle⟩ := transferFrom_booked paying
  obtain ⟨deposited, idle'⟩ := depositNative_booked depositing
  obtain ⟨passed, idle''⟩ := transfer_booked transferring
  obtain ⟨made, last, minting, done⟩ := yields_bind.mp done
  have issued := ready_made ready ((idle.trans idle').trans idle'') minting
  obtain ⟨settled, refunded, unchanged, done⟩ := refund_booked done
  obtain ⟨same, kept⟩ := pure_yields done
  cases same
  rw [kept] at refunded unchanged
  obtain ⟨feeTo, fee, locked, booked, fees⟩ := issued.booked
  have steady := (((idle.trans idle').trans idle'').steady.trans issued.steady).trans unchanged.steady
  have pairs : pairOf after entry.router.factory = factory'.getPair := pairOf_eq (RouterPayments.Kept.steady ready.kept steady)
  have isRouter := ready.routers _ _ serving.here
  have apart := router_not_pair isRouter ready.here
  -- the wrapper is another contract than the router
  obtain ⟨funded, wrapper, funding, isWrapper⟩ := depositNative_wrapper depositing
  have apart' : entry.self ≠ entry.router.wrappedNative :=
    router_not_wrapper (((idle.trans funding).routers _).trans isRouter) isWrapper
  have whole : Booked (pay (some token) entry.caller (factory'.getPair token entry.router.wrappedNative) amountToken.toNat +
      wrap entry.router.wrappedNative entry.self (factory'.getPair token entry.router.wrappedNative) amountNative.toNat +
      pay none entry.self entry.caller (dust entry.value amountNative) +
      shares (factory'.getPair token entry.router.wrappedNative) feeTo fee locked receiver liquidity.toNat) sent after := by
    apply (ready.booked.trans (paid.trans (deposited.trans (passed.trans (booked.trans refunded))))).congr
    unfold shares wrap pay
    abel
  have out : ∀ asset, (pay (some token) entry.caller (factory'.getPair token entry.router.wrappedNative) amountToken.toNat +
      wrap entry.router.wrappedNative entry.self (factory'.getPair token entry.router.wrappedNative) amountNative.toNat +
      pay none entry.self entry.caller (dust entry.value amountNative) : Flow Asset Address) asset entry.self =
      -(give none entry.self (amountNative.toNat + dust entry.value amountNative) : Flow Asset Address) asset entry.self := by
    intro asset
    rw [give_add]
    change pay _ _ _ _ asset entry.self + (pay _ _ _ _ asset entry.self + give _ _ _ asset entry.self) + pay _ _ _ _ asset entry.self =
      -(give _ _ _ asset entry.self + give _ _ _ asset entry.self)
    rw [pay_holder apart serving.outside.symm, pay_apply, pay_apply, give_holder apart', give_holder apart,
      give_holder serving.outside.symm]
    abel
  have enough : entry.value.toNat = amountNative.toNat + dust entry.value amountNative ↔ amountNativeMin.toNat ≤ entry.value.toNat := by
    rw [← exact_]
    unfold dust
    omega
  rw [made_clean start serving issued.some_ whole out, fees, enough]
  refine and_iff_left_of_imp fun clean => ⟨feeTo, fee, locked, ?_⟩
  rw [pairs]
  apply (start.trans whole).congr
  rw [enough.mpr clean.1, pay_add]
  unfold wrap pay
  abel

/-- The books of shares that are given up, for two payments of the pair. -/
theorem returned_clean {fee burnt liquidity amountA amountB : ℕ} {feeTo : Address} {moved : Flow Asset Address}
    (apart : entry.self ≠ pair) (some_ : amountA ≠ 0) (booked : Booked (returned pair entry.caller liquidity feeTo fee burnt + moved)
      sent after) (paid : ∀ asset, moved asset entry.self =
      (give (some tokenA) receiver amountA + give (some tokenB) receiver amountB : Flow Asset Address) asset entry.self) :
    KeepsNothing entry.self world after ↔ entry.value = 0 ∧ receiver ≠ entry.self ∧ (if feeTo = entry.self then fee else 0) = 0 := by
  have nonneg : ∀ {asset holder : _} {amount : ℕ} other, 0 ≤ (give asset holder amount : Flow Asset Address) other entry.self :=
    fun _ => give_nonneg
  have left : ∀ asset, (give none entry.self entry.value.toNat +
      (returned pair entry.caller liquidity feeTo fee burnt + moved) : Flow Asset Address) asset entry.self =
      (give none entry.self entry.value.toNat + (give (some pair) feeTo fee +
        (give (some tokenA) receiver amountA + give (some tokenB) receiver amountB)) : Flow Asset Address) asset entry.self := by
    intro asset
    change _ + (pay _ _ _ _ asset entry.self + (give _ _ _ asset entry.self - give _ _ _ asset entry.self) + moved asset entry.self) =
      give _ _ _ asset entry.self + (give _ _ _ asset entry.self + _)
    rw [paid, pay_holder apart serving.outside.symm, give_holder apart, zero_add, sub_zero]
  have late : ∀ asset, 0 ≤ (give (some tokenA) receiver amountA + give (some tokenB) receiver amountB : Flow Asset Address)
      asset entry.self := fun asset => Int.add_nonneg (nonneg asset) (nonneg asset)
  have later : ∀ asset, 0 ≤ (give (some pair) feeTo fee + (give (some tokenA) receiver amountA + give (some tokenB) receiver amountB) :
      Flow Asset Address) asset entry.self := fun asset => Int.add_nonneg (nonneg asset) (late asset)
  rw [keepsNothing_sent start serving booked]
  simp only [left]
  rw [add_none_iff nonneg later, add_none_iff nonneg late, add_none_iff nonneg nonneg, give_none_iff, give_none_iff, give_none_iff,
    give_none_iff]
  constructor
  · rintro ⟨nothing, fees, free, _⟩
    refine ⟨toNat_eq_zero.mp (nothing rfl), fun equal => some_ (free equal.symm), ?_⟩
    split
    case isTrue equal => exact fees equal.symm
    case isFalse => rfl
  · rintro ⟨nothing, elsewhere, fees⟩
    refine ⟨fun _ => toNat_eq_zero.mpr nothing, fun equal => ?_, fun equal => absurd equal.symm elsewhere,
      fun equal => absurd equal.symm elsewhere⟩
    rw [if_pos equal.symm] at fees
    exact fees

theorem removeLiquidity_clean (done : Yields (removeLiquidity entry tokenA tokenB liquidity amountAMin amountBMin receiver deadline) sent
      (amountA, amountB) after) :
    (KeepsNothing entry.self world after ∧ Promised entry world after
        (.removeLiquidity tokenA tokenB liquidity amountAMin amountBMin receiver deadline) [amountA, amountB]) ↔
      entry.value = 0 ∧ receiver ≠ entry.self ∧ feeShares sent entry.router.factory tokenA tokenB entry.self = 0 := by
  obtain ⟨registered, withdrawn⟩ := removeLiquidity_withdrawn serving.kept serving.nobody done
  obtain ⟨feeTo, fee, burnt, booked, fees⟩ := withdrawn.booked
  have apart := serving.apart tokenA tokenB registered
  have pairs : pairOf after entry.router.factory = factory.getPair :=
    pairOf_eq (RouterPayments.Kept.steady serving.kept withdrawn.steady)
  have paid : ∀ asset, (pay (some tokenA) (factory.getPair tokenA tokenB) receiver amountA.toNat +
      pay (some tokenB) (factory.getPair tokenA tokenB) receiver amountB.toNat : Flow Asset Address) asset entry.self =
      (give (some tokenA) receiver amountA.toNat + give (some tokenB) receiver amountB.toNat : Flow Asset Address) asset entry.self := by
    intro asset
    change pay _ _ _ _ asset entry.self + pay _ _ _ _ asset entry.self = give _ _ _ asset entry.self + give _ _ _ asset entry.self
    rw [pay_apply, pay_apply, give_holder apart, give_holder apart, sub_zero, sub_zero]
  rw [returned_clean start serving apart withdrawn.someA booked paid, fees]
  refine and_iff_left_of_imp fun clean => ⟨feeTo, fee, burnt, ?_⟩
  rw [pairs]
  exact booked_sent start booked clean.1

theorem removeLiquidityNative_clean (done : Yields (removeLiquidityNative entry token liquidity amountTokenMin amountNativeMin receiver
      deadline) sent (amountToken, amountNative) after) :
    (KeepsNothing entry.self world after ∧ Promised entry world after
        (.removeLiquidityNative token liquidity amountTokenMin amountNativeMin receiver deadline) [amountToken, amountNative]) ↔
      entry.value = 0 ∧ receiver = entry.caller ∧ feeShares sent entry.router.factory token entry.router.wrappedNative entry.self = 0 := by
  obtain ⟨_, done⟩ := yields_require_bind.mp done
  obtain ⟨⟨amountToken, amountNative⟩, between, removing, done⟩ := yields_bind.mp done
  obtain ⟨_, passed, transferring, done⟩ := yields_bind.mp done
  obtain ⟨_, unwrapped, withdrawing, done⟩ := yields_bind.mp done
  obtain ⟨_, last, sending, done⟩ := yields_bind.mp done
  obtain ⟨same, kept⟩ := pure_yields done
  cases same
  rw [kept] at sending
  obtain ⟨registered, withdrawn⟩ := removeLiquidity_withdrawn serving.kept serving.nobody removing
  obtain ⟨feeTo, fee, burnt, booked, fees⟩ := withdrawn.booked
  obtain ⟨paid, idle⟩ := transfer_booked transferring
  obtain ⟨coins, idle'⟩ := withdraw_booked withdrawing
  obtain ⟨given, idle''⟩ := sendTokens_booked sending
  have steady := ((withdrawn.steady.trans idle.steady).trans idle'.steady).trans idle''.steady
  have apart := serving.apart token entry.router.wrappedNative registered
  have pairs : pairOf after entry.router.factory = factory.getPair := pairOf_eq (RouterPayments.Kept.steady serving.kept steady)
  have apart' : entry.self ≠ entry.router.wrappedNative := by
    obtain ⟨_, middle, burning, _⟩ := yields_bind.mp withdrawing
    obtain ⟨wrapper, _, isWrapper, _⟩ := callContractFunction_yields burning
    exact router_not_wrapper (((withdrawn.steady.trans idle.steady).routers _).trans serving.here) isWrapper
  have whole : Booked (returned (factory.getPair token entry.router.wrappedNative) entry.caller liquidity.toNat feeTo fee burnt +
      (pay (some token) (factory.getPair token entry.router.wrappedNative) receiver amountToken.toNat +
        unwrap entry.router.wrappedNative (factory.getPair token entry.router.wrappedNative) entry.caller amountNative.toNat))
      sent after := by
    apply (booked.trans (paid.trans (coins.trans given))).congr
    unfold returned unwrap pay
    abel
  have left : ∀ asset, (pay (some token) (factory.getPair token entry.router.wrappedNative) receiver amountToken.toNat +
      unwrap entry.router.wrappedNative (factory.getPair token entry.router.wrappedNative) entry.caller amountNative.toNat :
      Flow Asset Address) asset entry.self =
      (give (some token) receiver amountToken.toNat + give (some token) receiver 0 : Flow Asset Address) asset entry.self := by
    intro asset
    change pay _ _ _ _ asset entry.self + (pay _ _ _ _ asset entry.self - give _ _ _ asset entry.self) = _ + give _ _ _ asset entry.self
    rw [pay_holder serving.outside.symm apart', pay_apply, give_holder apart, give_holder apart, give_zero, sub_zero, sub_zero]
    rfl
  have outcome := returned_clean start serving apart withdrawn.someA whole left
  rw [fees] at outcome
  constructor
  · rintro ⟨keeps, promised⟩
    obtain ⟨nothing, _, noFees⟩ := outcome.mp keeps
    obtain ⟨feeTo', fee', burnt', booked'⟩ := promised
    rw [pairs] at booked'
    -- the two books tell whose coins they are
    have same := congrFun (congrFun ((booked_sent start whole nothing).unique booked') none) receiver
    refine ⟨nothing, ?_, noFees⟩
    by_contra elsewhere
    have native : ∀ {pair : Address} {feeTo : Address} {fee burnt : ℕ} {target : Address},
        (returned pair entry.caller liquidity.toNat feeTo fee burnt + (pay (some token) pair receiver amountToken.toNat +
          unwrap entry.router.wrappedNative pair target amountNative.toNat) : Flow Asset Address) none receiver =
        (pay none entry.router.wrappedNative target amountNative.toNat : Flow Asset Address) none receiver := by
      intro pair feeTo fee burnt target
      change (pay _ _ _ _ none receiver + (give _ _ _ none receiver - give _ _ _ none receiver)) + (pay _ _ _ _ none receiver +
        (pay _ _ _ _ none receiver - give _ _ _ none receiver)) = _
      rw [pay_asset (Option.some_ne_none _).symm, pay_asset (Option.some_ne_none _).symm, give_asset (Option.some_ne_none _).symm,
        give_asset (Option.some_ne_none _).symm, give_asset (Option.some_ne_none _).symm]
      abel
    rw [native, native, pay_apply, pay_apply, give_holder elsewhere, give_here] at same
    have some_ := withdrawn.someB
    omega
  · rintro ⟨nothing, isCaller, noFees⟩
    refine ⟨outcome.mpr ⟨nothing, isCaller ▸ serving.outside, noFees⟩, feeTo, fee, burnt, ?_⟩
    rw [pairs, ← isCaller]
    rw [← isCaller] at whole
    exact booked_sent start whole nothing

omit start serving in
theorem swept_pairs {last : World} (serving : Serving entry between factory) (swept : Swept entry factory receiver amounts path between last)
    (steady : Steady last after) : pairOf after entry.router.factory = factory.getPair :=
  pairOf_eq (RouterPayments.Kept.steady serving.kept (swept.steady.trans steady))

variable {given : List Uint256} (quoted : Quoted path given)
include quoted

theorem tokensForTokens_clean (done : Yields (do
      payTokens entry given path
      swap entry receiver given.tail path
      pure given) sent amounts after) :
    (KeepsNothing entry.self world after ∧ Booked (paidIn entry (pairOf after entry.router.factory) amounts path +
      hops (pairOf after entry.router.factory) receiver amounts.tail path) world after) ↔ entry.value = 0 ∧ receiver ≠ entry.self := by
  obtain ⟨_, between, paying, done⟩ := yields_bind.mp done
  obtain ⟨_, last, swapping, done⟩ := yields_bind.mp done
  obtain ⟨rfl, rfl⟩ := pure_yields done
  obtain ⟨paid, idle⟩ := payTokens_booked serving.kept paying
  have serving' := serving.steady idle.steady
  have swept := swap_swept serving' quoted swapping
  rw [swept_pairs serving' swept (Idle.refl _).steady]
  exact tokensIn_clean start serving paid swept

theorem nativeForTokens_clean (done : Yields (do
      payNative entry given path
      swap entry receiver given.tail path
      pure given) sent amounts after) :
    (KeepsNothing entry.self world after ∧ Booked (wrap entry.router.wrappedNative entry.caller
        (pairOf after entry.router.factory (path.getD 0 0) (path.getD 1 0)) (amounts.headD 0).toNat +
        hops (pairOf after entry.router.factory) receiver amounts.tail path) world after) ↔
      entry.value = given.headD 0 ∧ receiver ≠ entry.self := by
  obtain ⟨_, between, paying, done⟩ := yields_bind.mp done
  obtain ⟨_, last, swapping, done⟩ := yields_bind.mp done
  obtain ⟨rfl, rfl⟩ := pure_yields done
  obtain ⟨paid, idle⟩ := payNative_booked serving.kept paying
  obtain ⟨_, _, depositing, _⟩ := yields_bind.mp paying
  obtain ⟨funded, wrapper, funding, isWrapper⟩ := depositNative_wrapper depositing
  have apart := router_not_wrapper ((funding.routers _).trans serving.here) isWrapper
  have serving' := serving.steady idle.steady
  have swept := swap_swept serving' quoted swapping
  rw [swept_pairs serving' swept (Idle.refl _).steady]
  exact coinsIn_clean start serving apart paid swept

theorem tokensForNative_clean {amount : Uint256} (wrapped : path.getLast? = some entry.router.wrappedNative)
    (same : given.getLastD 0 = amount) (done : Yields (do
      payTokens entry given path
      swap entry entry.self given.tail path
      unwrapTo entry receiver amount
      pure given) sent amounts after) :
    (KeepsNothing entry.self world after ∧ Booked (paidIn entry (pairOf after entry.router.factory) amounts path +
        (hops (pairOf after entry.router.factory) entry.self amounts.tail path +
          unwrap entry.router.wrappedNative entry.self receiver (amounts.getLastD 0).toNat)) world after) ↔
      entry.value = 0 ∧ receiver ≠ entry.self := by
  subst same
  obtain ⟨_, between, paying, done⟩ := yields_bind.mp done
  obtain ⟨_, swapped, swapping, done⟩ := yields_bind.mp done
  obtain ⟨_, last, unwrapping, done⟩ := yields_bind.mp done
  obtain ⟨rfl, rfl⟩ := pure_yields done
  obtain ⟨paid, idle⟩ := payTokens_booked serving.kept paying
  have serving' := serving.steady idle.steady
  have swept := swap_swept serving' quoted swapping
  obtain ⟨unwrapped, idle'⟩ := unwrapTo_booked unwrapping
  have apart : entry.self ≠ entry.router.wrappedNative := by
    obtain ⟨_, _, withdrawing, _⟩ := yields_bind.mp unwrapping
    obtain ⟨_, _, burning, _⟩ := yields_bind.mp withdrawing
    obtain ⟨wrapper, _, isWrapper, _⟩ := callContractFunction_yields burning
    exact router_not_wrapper (serving'.steady swept.steady).here isWrapper
  have final : path.getLastD 0 = entry.router.wrappedNative := by
    rw [List.getLastD_eq_getLast?, wrapped]
    rfl
  rw [swept_pairs serving' swept idle'.steady]
  exact coinsOut_clean start serving apart paid swept final unwrapped

omit quoted

theorem perform_clean (call : Call) (done : Yields (perform entry call) sent amounts after) :
    (KeepsNothing entry.self world after ∧ Promised entry world after call amounts) ↔ Clean entry sent call := by
  cases call with
  | addLiquidity =>
    obtain ⟨⟨amountA, amountB, liquidity⟩, between, running, rest⟩ := yields_bind.mp done
    obtain ⟨rfl, rfl⟩ := pure_yields rest
    exact addLiquidity_clean start serving running
  | addLiquidityNative =>
    obtain ⟨⟨amountToken, amountNative, liquidity⟩, between, running, rest⟩ := yields_bind.mp done
    obtain ⟨rfl, rfl⟩ := pure_yields rest
    exact addLiquidityNative_clean start serving running
  | removeLiquidity =>
    obtain ⟨⟨amountA, amountB⟩, between, running, rest⟩ := yields_bind.mp done
    obtain ⟨rfl, rfl⟩ := pure_yields rest
    exact removeLiquidity_clean start serving running
  | removeLiquidityNative =>
    obtain ⟨⟨amountToken, amountNative⟩, between, running, rest⟩ := yields_bind.mp done
    obtain ⟨rfl, rfl⟩ := pure_yields rest
    exact removeLiquidityNative_clean start serving running
  | swapExactTokensForTokens =>
    obtain ⟨_, done⟩ := yields_require_bind.mp done
    obtain ⟨given, between, quoting, paying⟩ := yields_bind.mp done
    obtain ⟨rfl, quoted, _⟩ := quoteOut_quoted quoting
    exact tokensForTokens_clean start serving quoted paying
  | swapTokensForExactTokens =>
    obtain ⟨_, done⟩ := yields_require_bind.mp done
    obtain ⟨given, between, quoting, paying⟩ := yields_bind.mp done
    obtain ⟨rfl, quoted, _⟩ := quoteIn_quoted quoting
    exact tokensForTokens_clean start serving quoted paying
  | swapExactNativeForTokens =>
    obtain ⟨_, done⟩ := yields_require_bind.mp done
    obtain ⟨_, done⟩ := yields_require_bind.mp done
    obtain ⟨given, between, quoting, paying⟩ := yields_bind.mp done
    obtain ⟨rfl, quoted, whole⟩ := quoteOut_quoted quoting
    exact (nativeForTokens_clean start serving quoted paying).trans (and_iff_right whole.symm)
  | swapTokensForExactNative =>
    obtain ⟨_, done⟩ := yields_require_bind.mp done
    obtain ⟨wrapped, done⟩ := yields_require_bind.mp done
    obtain ⟨given, between, quoting, paying⟩ := yields_bind.mp done
    obtain ⟨rfl, quoted, exact_, _⟩ := quoteIn_quoted quoting
    exact tokensForNative_clean start serving quoted wrapped exact_ paying
  | swapExactTokensForNative =>
    obtain ⟨_, done⟩ := yields_require_bind.mp done
    obtain ⟨wrapped, done⟩ := yields_require_bind.mp done
    obtain ⟨given, between, quoting, paying⟩ := yields_bind.mp done
    obtain ⟨rfl, quoted, _⟩ := quoteOut_quoted quoting
    exact tokensForNative_clean start serving quoted wrapped rfl paying
  | swapNativeForExactTokens =>
    obtain ⟨_, done⟩ := yields_require_bind.mp done
    obtain ⟨_, done⟩ := yields_require_bind.mp done
    obtain ⟨given, between, quoting, paying⟩ := yields_bind.mp done
    obtain ⟨rfl, quoted, _, exactly⟩ := quoteIn_quoted quoting
    -- the amounts of a quote are the same whenever it goes through
    refine (nativeForTokens_clean start serving quoted paying).trans (and_congr_left' ?_)
    constructor
    · intro same amounts quoting
      cases exactly.symm.trans quoting
      exact same
    · intro same
      exact same given exactly

end Called

end OrbiterSDK.Proofs.RouterBooks
