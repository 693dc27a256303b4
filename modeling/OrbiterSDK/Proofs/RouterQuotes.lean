import OrbiterSDK.Lib.ConstantProduct
import OrbiterSDK.Proofs.ReserveOrder
import OrbiterSDK.Proofs.PairSteps

/-! What the quotes of the library are worth: a pair trades at each of them, and amounts for a
deposit are within the bounds that the caller sets. -/

namespace OrbiterSDK.Proofs.RouterQuotes
open Lib Atomic DEXV2 DEXV2Library PairSteps ReserveOrder ConstantProduct

variable {amountIn amountOut reserveIn reserveOut : Uint256}

theorem getAmountOut_done (some_ : 0 < amountIn.toNat) (someIn : 0 < reserveIn.toNat) (someOut : 0 < reserveOut.toNat)
    (fits : amountIn.toNat < 2 ^ 112) (fitsIn : reserveIn.toNat < 2 ^ 112) (fitsOut : reserveOut.toNat < 2 ^ 112) :
    ∃ out, getAmountOut amountIn reserveIn reserveOut = .ok out ∧
      out.toNat = output 997 1000 reserveIn.toNat reserveOut.toNat amountIn.toNat := by
  have nonzero {value : Uint256} (positive : 0 < value.toNat) : value ≠ 0 := by
    intro zero
    rw [zero] at positive
    exact absurd positive (by decide)
  obtain ⟨amountInWithFee, fee, exactFee⟩ := mul_constant 997 997 rfl (constant_fits fits (by decide))
  obtain ⟨thousandfold, scaled, exactScaled⟩ := mul_constant 1000 1000 rfl (constant_fits fitsIn (by decide))
  have sumBound : thousandfold.toNat + amountInWithFee.toNat < 2 ^ 256 := by omega
  obtain ⟨denominator, added⟩ := Uint256.add_done sumBound
  have exactAdded := Uint256.add_eq_ok.mp added
  have held : denominator.toNat ≠ 0 := by omega
  have small : amountInWithFee.toNat ≤ 2 ^ 122 := by omega
  have product : amountInWithFee.toNat * reserveOut.toNat < 2 ^ 256 := by
    calc amountInWithFee.toNat * reserveOut.toNat ≤ 2 ^ 122 * 2 ^ 112 := Nat.mul_le_mul small fitsOut.le
      _ < 2 ^ 256 := by norm_num
  obtain ⟨numerator, multiplied⟩ := Uint256.mul_done product
  obtain ⟨out, divided⟩ : ∃ quotient, Uint256.div numerator denominator = .ok quotient := Uint256.div_done held
  have exactOut := (Uint256.div_eq_ok.mp divided).2
  refine ⟨out, ?_, ?_⟩
  · simp only [getAmountOut, if_neg (nonzero some_), if_neg (not_or.mpr ⟨nonzero someIn, nonzero someOut⟩), fee, multiplied, scaled, added,
      ok_bind, divided]
  · rw [exactOut, Uint256.mul_eq_ok.mp multiplied, exactAdded, exactScaled, exactFee, output]

theorem getAmountIn_done (some_ : 0 < amountOut.toNat) (below : amountOut.toNat < reserveOut.toNat) (someIn : 0 < reserveIn.toNat)
    (fitsIn : reserveIn.toNat < 2 ^ 112) (fitsOut : reserveOut.toNat < 2 ^ 112) :
    ∃ asked, getAmountIn amountOut reserveIn reserveOut = .ok asked ∧
      asked.toNat = input 997 1000 reserveIn.toNat reserveOut.toNat amountOut.toNat := by
  have nonzero {value : Uint256} (positive : 0 < value.toNat) : value ≠ 0 := by
    intro zero
    rw [zero] at positive
    exact absurd positive (by decide)
  have product : reserveIn.toNat * amountOut.toNat ≤ 2 ^ 112 * 2 ^ 112 := Nat.mul_le_mul fitsIn.le (below.trans fitsOut).le
  have small : reserveIn.toNat * amountOut.toNat < 2 ^ 256 := product.trans_lt (by norm_num)
  obtain ⟨amount, multiplied⟩ := Uint256.mul_done small
  have exactProduct := Uint256.mul_eq_ok.mp multiplied
  have scaledBound := (Nat.le_mul_of_pos_right _ (by decide)).trans_lt (million_fits (exactProduct ▸ product))
  obtain ⟨numerator, scaled, exactNumerator⟩ := mul_constant 1000 1000 rfl scaledBound
  obtain ⟨rest, taken⟩ := Uint256.sub_done below.le
  have exactRest := Uint256.sub_eq_ok.mp taken
  have few : rest.toNat < 2 ^ 112 := by omega
  obtain ⟨denominator, fee, exactDenominator⟩ := mul_constant 997 997 rfl (constant_fits few (by decide))
  have held : denominator.toNat ≠ 0 := by omega
  obtain ⟨quotient, divided⟩ : ∃ quotient, Uint256.div numerator denominator = .ok quotient := Uint256.div_done held
  have exactQuotient := (Uint256.div_eq_ok.mp divided).2
  have one : (1 : Uint256).toNat = 1 := rfl
  have bounded : quotient.toNat ≤ numerator.toNat := exactQuotient ▸ Nat.div_le_self _ _
  have sumBound : quotient.toNat + (1 : Uint256).toNat < 2 ^ 256 := by omega
  obtain ⟨asked, added⟩ := Uint256.add_done sumBound
  have exactAsked := Uint256.add_eq_ok.mp added
  refine ⟨asked, ?_, ?_⟩
  · simp only [getAmountIn, if_neg (nonzero some_), if_neg (not_or.mpr ⟨nonzero someIn, nonzero (some_.trans below)⟩), multiplied, scaled,
      taken, fee, divided, added, ok_bind]
  · have left : rest.toNat = reserveOut.toNat - amountOut.toNat := by omega
    rw [exactAsked, exactQuotient, exactNumerator, exactProduct, exactDenominator, left, one, input]

/-- The product of a trade at a quote, as a swap computes it. -/
theorem output_keeps (first second amount : ℕ) : first * second * 1000 * 1000 ≤
    ((first + amount) * 1000 - amount * 3) * ((second - output 997 1000 first second amount) * 1000 - 0 * 3) := by
  have kept : first * second * 1000 ≤ (first * 1000 + amount * 997) * (second - output 997 1000 first second amount) := product_le_output
  have paid : (first + amount) * 1000 - amount * 3 = first * 1000 + amount * 997 := by omega
  calc first * second * 1000 * 1000 ≤ (first * 1000 + amount * 997) * (second - output 997 1000 first second amount) * 1000 :=
        Nat.mul_le_mul_right _ kept
    _ = ((first + amount) * 1000 - amount * 3) * ((second - output 997 1000 first second amount) * 1000 - 0 * 3) := by
        rw [paid, Nat.zero_mul, Nat.sub_zero, Nat.mul_assoc]

section Trades
variable {pair : DEXV2Pair} {timestamp : UInt64} {balanceIn balanceOut : Uint256} {held wanted : Uint112}

/-- What came in for a quote, on the side that is paid for and on the other one. -/
private theorem paid_counted (paid : balanceIn.toNat = held.toNat + amountIn.toNat) : DEXV2Pair.amountIn balanceIn held 0 = .ok amountIn := by
  have zero : (0 : Uint256).toNat = 0 := rfl
  refine amountIn_eq_ok.mpr ⟨?_, .inr ?_, ?_⟩ <;> omega

private theorem taken_counted (below : amountOut.toNat ≤ wanted.toNat) (left : balanceOut.toNat = wanted.toNat - amountOut.toNat) :
    DEXV2Pair.amountIn balanceOut wanted amountOut = .ok 0 := by
  have zero : (0 : Uint256).toNat = 0 := rfl
  refine amountIn_eq_ok.mpr ⟨below, .inl ?_, ?_⟩ <;> omega

theorem quoted_swaps (some_ : 0 < amountIn.toNat) (fits : held.toNat + amountIn.toNat < 2 ^ 112) (below : amountOut.toNat ≤ wanted.toNat)
    (quoted : amountOut.toNat = output 997 1000 held.toNat wanted.toNat amountIn.toNat) (paid : balanceIn.toNat = held.toNat + amountIn.toNat)
    (left : balanceOut.toNat = wanted.toNat - amountOut.toNat) :
    (pair.reserve0 = held → pair.reserve1 = wanted →
      pair.swapEnd timestamp balanceIn balanceOut 0 amountOut = pair.update timestamp balanceIn balanceOut) ∧
    (pair.reserve1 = held → pair.reserve0 = wanted →
      pair.swapEnd timestamp balanceOut balanceIn amountOut 0 = pair.update timestamp balanceOut balanceIn) := by
  have zero : (0 : Uint256).toNat = 0 := rfl
  have nonzero : amountIn ≠ 0 := by
    intro none
    rw [none, zero] at some_
    exact absurd some_ (by decide)
  have fitsIn : balanceIn.toNat < 2 ^ 112 := paid.trans_lt fits
  have fitsOut : balanceOut.toNat < 2 ^ 112 := left.trans_lt ((Nat.sub_le _ _).trans_lt wanted.isLt)
  have part : amountIn.toNat ≤ balanceIn.toNat := by omega
  have none : (0 : Uint256).toNat ≤ balanceOut.toNat := Nat.zero_le _
  have kept := output_keeps held.toNat wanted.toNat amountIn.toNat
  rw [← quoted, ← paid, ← left] at kept
  constructor
  · rintro rfl rfl
    have counted : pair.amountsIn balanceIn balanceOut 0 amountOut = .ok (amountIn, 0) := by
      simp only [DEXV2Pair.amountsIn, paid_counted paid, taken_counted below left, ok_bind]
      rfl
    have enough : KeepsProduct pair balanceIn.toNat balanceOut.toNat amountIn.toNat (0 : Uint256).toNat := kept
    rw [swapEnd_eq counted fitsIn fitsOut part none, if_neg (fun both => nonzero both.1), if_pos enough]
  · rintro rfl rfl
    have counted : pair.amountsIn balanceOut balanceIn amountOut 0 = .ok (0, amountIn) := by
      simp only [DEXV2Pair.amountsIn, paid_counted paid, taken_counted below left, ok_bind]
      rfl
    have enough : KeepsProduct pair balanceOut.toNat balanceIn.toNat (0 : Uint256).toNat amountIn.toNat := by
      unfold KeepsProduct
      rw [Nat.mul_comm pair.reserve0.toNat, Nat.mul_comm (balanceOut.toNat * 1000 - _)]
      exact kept
    rw [swapEnd_eq counted fitsOut fitsIn none part, if_neg (fun both => nonzero both.2), if_pos enough]

end Trades

/-- Every quote can be traded: the end of a swap goes on to its update with it, and what is asked for an
amount out gets that amount, which two less would not. -/
theorem quotes_executable (reserveIn reserveOut : Uint112) (someIn : 0 < reserveIn.toNat) (someOut : 0 < reserveOut.toNat) :
    (∀ amountIn : Uint256, 0 < amountIn.toNat → reserveIn.toNat + amountIn.toNat < 2 ^ 112 →
      ∃ out, getAmountOut amountIn reserveIn.wide reserveOut.wide = .ok out ∧ out.toNat < reserveOut.toNat ∧
        ∀ (pair : DEXV2Pair) (timestamp : UInt64) (balanceIn balanceOut : Uint256), balanceIn.toNat = reserveIn.toNat + amountIn.toNat →
          balanceOut.toNat = reserveOut.toNat - out.toNat →
          (pair.reserve0 = reserveIn → pair.reserve1 = reserveOut →
            pair.swapEnd timestamp balanceIn balanceOut 0 out = pair.update timestamp balanceIn balanceOut) ∧
          (pair.reserve1 = reserveIn → pair.reserve0 = reserveOut →
            pair.swapEnd timestamp balanceOut balanceIn out 0 = pair.update timestamp balanceOut balanceIn)) ∧
    ∀ out : Uint256, 0 < out.toNat → out.toNat < reserveOut.toNat →
      ∃ amountIn, getAmountIn out reserveIn.wide reserveOut.wide = .ok amountIn ∧ (amountIn.toNat < 2 ^ 112 →
        (∃ enough, getAmountOut amountIn reserveIn.wide reserveOut.wide = .ok enough ∧ out.toNat ≤ enough.toNat) ∧
        (2 < amountIn.toNat → ∃ less, getAmountOut (amountIn - 2) reserveIn.wide reserveOut.wide = .ok less ∧ less.toNat < out.toNat)) := by
  have fitsIn := reserveIn.isLt
  have fitsOut := reserveOut.isLt
  have quote {amount : Uint256} (some_ : 0 < amount.toNat) (fits : amount.toNat < 2 ^ 112) :
      ∃ out, getAmountOut amount reserveIn.wide reserveOut.wide = .ok out ∧
        out.toNat = output 997 1000 reserveIn.toNat reserveOut.toNat amount.toNat := by
    have done := @getAmountOut_done amount reserveIn.wide reserveOut.wide some_
    simp only [Uint112.wide_toNat] at done
    exact done someIn someOut fits fitsIn fitsOut
  constructor
  · intro amountIn some_ fits
    obtain ⟨out, done, quoted⟩ := quote some_ (by omega)
    have less : out.toNat < reserveOut.toNat := quoted ▸ output_lt (Nat.mul_pos someIn (by decide)) someOut
    exact ⟨out, done, less, fun _ _ _ _ paid left => quoted_swaps some_ fits less.le quoted paid left⟩
  · intro out some_ below
    have asks := @getAmountIn_done out reserveIn.wide reserveOut.wide some_
    simp only [Uint112.wide_toNat] at asks
    obtain ⟨amountIn, done, asked⟩ := asks below someIn fitsIn fitsOut
    refine ⟨amountIn, done, fun fits => ⟨?_, fun more => ?_⟩⟩
    · obtain ⟨enough, got, quoted⟩ := quote (asked ▸ Nat.succ_pos _) fits
      refine ⟨enough, got, ?_⟩
      rw [quoted, asked]
      exact le_output_input (by decide) below
    · have two : (amountIn - 2).toNat = amountIn.toNat - 2 := BitVec.toNat_sub_of_le (BitVec.le_def.mpr (by simpa using more.le))
      have someLess : 0 < (amountIn - 2).toNat := by omega
      obtain ⟨less, got, quoted⟩ := quote someLess (by omega)
      refine ⟨less, got, ?_⟩
      rw [quoted, two, asked]
      exact output_input_lt (by decide) below (asked ▸ more)

/-- Ten for a pool of a hundred and four hundred. -/
theorem pool_quoted : ∃ out, getAmountOut 10 (100 : Uint112).wide (400 : Uint112).wide = .ok out ∧ out.toNat < 400 := by
  obtain ⟨out, done, less, _⟩ := (quotes_executable 100 400 (by decide) (by decide)).1 10 (by decide) (by decide)
  exact ⟨out, done, less⟩

variable {reserveA reserveB amountADesired amountBDesired amountAMin amountBMin amountA amountB : Uint256}

/-- One of the amounts is what the caller wants, and the other one goes with it in a pool with these reserves. -/
def Proportional (reserveA reserveB amountADesired amountBDesired amountA amountB : Uint256) : Prop :=
  amountA = amountADesired ∧ amountB.toNat = amountA.toNat * reserveB.toNat / reserveA.toNat ∨
    amountB = amountBDesired ∧ amountA.toNat = amountB.toNat * reserveA.toNat / reserveB.toNat

theorem quote_ok {result : Uint256} (done : quote amountIn reserveIn reserveOut = .ok result) :
    result.toNat = proportional reserveIn.toNat reserveOut.toNat amountIn.toNat := by
  unfold quote at done
  split at done
  case isTrue => cases done
  case isFalse =>
    split at done
    case isTrue => cases done
    case isFalse =>
      obtain ⟨product, multiplied, divided⟩ := bind_eq_ok.mp done
      rw [(Uint256.div_eq_ok.mp divided).2, Uint256.mul_eq_ok.mp multiplied, proportional]

/-- What the optimal amount of the first asset is computed for is never too much of it. -/
theorem last_branch_unreachable {optimalA optimalB : Uint256} (first : quote amountADesired reserveA reserveB = .ok optimalB)
    (short : ¬ optimalB ≤ amountBDesired) (second : quote amountBDesired reserveB reserveA = .ok optimalA) : optimalA ≤ amountADesired := by
  have short := Nat.not_le.mp (mt BitVec.le_def.mpr short)
  apply BitVec.le_def.mpr
  rw [quote_ok second]
  rw [quote_ok first] at short
  exact proportional_le short

theorem optimalAmounts_ok (done : DEXV2Router02.optimalAmounts reserveA reserveB amountADesired amountBDesired amountAMin amountBMin =
    .ok (amountA, amountB)) (boundA : amountAMin ≤ amountADesired) (boundB : amountBMin ≤ amountBDesired) :
    (amountAMin ≤ amountA ∧ amountA ≤ amountADesired ∧ amountBMin ≤ amountB ∧ amountB ≤ amountBDesired) ∧
      (reserveA ≠ 0 → Proportional reserveA reserveB amountADesired amountBDesired amountA amountB) := by
  have least {low high : Uint256} (enough : ¬ low < high) : high ≤ low := BitVec.not_lt.mp enough
  unfold DEXV2Router02.optimalAmounts at done
  split at done
  case isTrue empty =>
    cases done
    exact ⟨⟨boundA, BitVec.le_refl _, boundB, BitVec.le_refl _⟩, fun held => absurd empty.1 held⟩
  case isFalse =>
    obtain ⟨optimalB, first, rest⟩ := bind_eq_ok.mp done
    split at rest
    case isTrue fits =>
      obtain ⟨enough, same⟩ := guard_eq_ok.mp rest
      cases same
      exact ⟨⟨boundA, BitVec.le_refl _, least enough, fits⟩, fun _ => .inl ⟨rfl, quote_ok first⟩⟩
    case isFalse =>
      obtain ⟨optimalA, second, rest⟩ := bind_eq_ok.mp rest
      split at rest
      case isTrue fits =>
        obtain ⟨enough, same⟩ := guard_eq_ok.mp rest
        cases same
        exact ⟨⟨least enough, fits, boundB, BitVec.le_refl _⟩, fun _ => .inr ⟨rfl, quote_ok second⟩⟩
      case isFalse => cases rest

theorem addLiquidityAmounts_ok {entry : DEXV2Router02.Entry} {world after : World} {tokenA tokenB : Address}
    (done : Yields (DEXV2Router02.addLiquidityAmounts entry tokenA tokenB amountADesired amountBDesired amountAMin amountBMin) world
      (amountA, amountB) after) : ∃ reserves : Uint256 × Uint256,
    DEXV2Router02.optimalAmounts reserves.1 reserves.2 amountADesired amountBDesired amountAMin amountBMin = .ok (amountA, amountB) := by
  obtain ⟨known, between, _, rest⟩ := yields_bind.mp done
  dsimp only at rest
  -- A pair that is there and a new one are read alike.
  split at rest
  all_goals
    obtain ⟨address, between, _, rest⟩ := yields_bind.mp rest
    obtain ⟨pair, between, _, rest⟩ := yields_bind.mp rest
    exact ⟨pair.getReserves, (checked_yields rest).1⟩

/-- A square over a number is that number only if they are the same. -/
theorem square_quotient {first second : ℕ} (some_ : 0 < second) (same : second = first * first / second) : first = second := by
  have low : second * second ≤ first * first := by
    have rounded := Nat.div_mul_le_self (first * first) second
    rwa [← same] at rounded
  have high : first * first < second * (second + 1) := by
    have rounded := Nat.lt_mul_div_succ (first * first) some_
    rwa [← same] at rounded
  have least : second ≤ first := Nat.mul_self_le_mul_self_iff.mp low
  have most : first < second + 1 := by
    by_contra more
    have squares := Nat.mul_le_mul (Nat.not_lt.mp more) (Nat.not_lt.mp more)
    have wider : second * (second + 1) ≤ (second + 1) * (second + 1) := Nat.mul_le_mul_right _ (Nat.le_succ _)
    omega
  omega

/-- The amounts for a deposit of two tokens go together by what the pair holds of each. -/
def OwnProportions (entry : DEXV2Router02.Entry) (world : World) (tokenA tokenB : Address) (pair : DEXV2Pair) : Prop :=
  ∀ amountADesired amountBDesired amountAMin amountBMin amountA amountB after, amountAMin ≤ amountADesired → amountBMin ≤ amountBDesired →
    Yields (DEXV2Router02.addLiquidityAmounts entry tokenA tokenB amountADesired amountBDesired amountAMin amountBMin) world
      (amountA, amountB) after →
    reserveOf pair tokenA ≠ 0 → reserveOf pair tokenB ≠ 0 →
      Proportional (reserveOf pair tokenA) (reserveOf pair tokenB) amountADesired amountBDesired amountA amountB

variable {entry : DEXV2Router02.Entry} {world : World} {tokenA tokenB : Address} {pair : DEXV2Pair}

/-- Asked for exactly its reserves, a pair whose tokens are out of order takes each for the other one. -/
theorem reserves_deposited (paired : Paired world entry.router.factory tokenA tokenB pair)
    (known : ∀ contract, world.at_ asFactory entry.router.factory = some contract → contract.getPair tokenA tokenB ≠ 0)
    (some0 : pair.reserve0.wide ≠ 0) (some1 : pair.reserve1.wide ≠ 0) :
    Yields (DEXV2Router02.addLiquidityAmounts entry tokenA tokenB pair.reserve0.wide pair.reserve1.wide 0 0) world
      (pair.reserve0.wide, pair.reserve1.wide) world := by
  refine (addLiquidityAmounts_paired rfl paired known).mpr ⟨?_, rfl⟩
  have narrow0 := pair.reserve0.isLt
  have narrow1 := pair.reserve1.isLt
  have positive : pair.reserve0.wide.toNat ≠ 0 := fun zero => some0 (BitVec.eq_of_toNat_eq zero)
  have small : pair.reserve0.wide.toNat * pair.reserve1.wide.toNat < 2 ^ 256 := by
    rw [Uint112.wide_toNat, Uint112.wide_toNat]
    calc pair.reserve0.toNat * pair.reserve1.toNat ≤ 2 ^ 112 * 2 ^ 112 := Nat.mul_le_mul narrow0.le narrow1.le
      _ < 2 ^ 256 := by norm_num
  obtain ⟨product, multiplied⟩ := Uint256.mul_done small
  have divided : Uint256.div product pair.reserve0.wide = .ok pair.reserve1.wide := by
    refine Uint256.div_eq_ok.mpr ⟨positive, ?_⟩
    rw [Uint256.mul_eq_ok.mp multiplied, Nat.mul_div_cancel_left _ (Nat.pos_of_ne_zero positive)]
  have asked : quote pair.reserve0.wide pair.reserve0.wide pair.reserve1.wide = .ok pair.reserve1.wide := by
    simp only [quote, if_neg some0, if_neg (not_or.mpr ⟨some0, some1⟩), multiplied, ok_bind, divided]
  have enough : ¬ pair.reserve1.wide < 0 := BitVec.not_lt.mpr (BitVec.le_def.mpr (Nat.zero_le _))
  simp only [DEXV2Router02.optimalAmounts, DEXV2Pair.getReserves, if_neg (fun both : _ ∧ _ => some0 both.1), asked, ok_bind,
    if_pos (BitVec.le_refl pair.reserve1.wide), if_neg enough]

theorem own_proportions_iff (paired : Paired world entry.router.factory tokenA tokenB pair)
    (known : ∀ contract, world.at_ asFactory entry.router.factory = some contract → contract.getPair tokenA tokenB ≠ 0) :
    OwnProportions entry world tokenA tokenB pair ↔ InOrder pair tokenA tokenB ∨ pair.reserve0 = 0 ∨ pair.reserve1 = 0 := by
  have held {reserve : Uint112} : reserve.wide ≠ 0 ↔ reserve ≠ 0 := not_congr ⟨fun zero => wide_injective zero, fun zero => zero ▸ rfl⟩
  constructor
  · intro own
    by_contra neither
    obtain ⟨outOfOrder, some_⟩ := not_or.mp neither
    obtain ⟨some0, some1⟩ := not_or.mp some_
    obtain ⟨descending, apart⟩ := not_or.mp outOfOrder
    have ownA : reserveOf pair tokenA = pair.reserve1.wide := by
      simp only [reserveOf, paired.token0, if_neg descending, if_neg paired.apart]
    have ownB : reserveOf pair tokenB = pair.reserve0.wide := by
      simp only [reserveOf, paired.token0, if_neg descending, if_true]
    have least {amount : Uint256} : 0 ≤ amount := BitVec.le_def.mpr (Nat.zero_le _)
    have quoted := own _ _ _ _ _ _ _ least least
      (reserves_deposited paired known (held.mpr some0) (held.mpr some1)) (ownA ▸ held.mpr some1) (ownB ▸ held.mpr some0)
    rw [ownA, ownB] at quoted
    simp only [Proportional, Uint112.wide_toNat, true_and] at quoted
    have positive {reserve : Uint112} (some_ : reserve ≠ 0) : 0 < reserve.toNat :=
      Nat.pos_of_ne_zero fun zero => some_ (BitVec.eq_of_toNat_eq zero)
    cases quoted with
    | inl first => exact apart (BitVec.eq_of_toNat_eq (square_quotient (positive some1) first))
    | inr second => exact apart (BitVec.eq_of_toNat_eq (square_quotient (positive some0) second).symm)
  · intro fine amountADesired amountBDesired amountAMin amountBMin amountA amountB after boundA boundB done some0 some1
    obtain ⟨computed, _⟩ := (addLiquidityAmounts_paired rfl paired known).mp done
    have stored := (optimalAmounts_ok computed boundA boundB).2
    cases fine with
    | inl inOrder =>
      rw [(reserves_own_iff paired).mpr inOrder] at stored
      exact stored some0
    | inr empty =>
      -- One reserve is none, and both tokens have one.
      have none : reserveOf pair tokenA = 0 ∨ reserveOf pair tokenB = 0 := by
        have apart := paired.apart
        have wide {reserve : Uint112} (zero : reserve = 0) : reserve.wide = 0 := by rw [zero]; rfl
        by_cases sorted : tokenA < tokenB
        · simp only [reserveOf, paired.token0, if_pos sorted, if_true, if_neg apart.symm]
          exact empty.imp wide wide
        · simp only [reserveOf, paired.token0, if_neg sorted, if_true, if_neg apart]
          exact (empty.imp wide wide).symm
      exact absurd none (not_or.mpr ⟨some0, some1⟩)

/-- Amounts for a deposit are within the caller's bounds, and the last branch is never taken. They go together by the
reserves as the pair stores them, and by those of the two tokens if and only if the tokens are in order, the two reserves are the
same or one of them is none. -/
theorem deposits_quoted_iff (entry : DEXV2Router02.Entry) :
    (∀ world tokenA tokenB amountADesired amountBDesired amountAMin amountBMin amountA amountB after,
      amountAMin ≤ amountADesired → amountBMin ≤ amountBDesired →
      Yields (DEXV2Router02.addLiquidityAmounts entry tokenA tokenB amountADesired amountBDesired amountAMin amountBMin) world
        (amountA, amountB) after →
      amountAMin ≤ amountA ∧ amountA ≤ amountADesired ∧ amountBMin ≤ amountB ∧ amountB ≤ amountBDesired) ∧
    (∀ reserveA reserveB amountADesired amountBDesired optimalA optimalB, quote amountADesired reserveA reserveB = .ok optimalB →
      ¬ optimalB ≤ amountBDesired → quote amountBDesired reserveB reserveA = .ok optimalA → optimalA ≤ amountADesired) ∧
    ∀ world tokenA tokenB pair, Paired world entry.router.factory tokenA tokenB pair →
      (∀ contract, world.at_ asFactory entry.router.factory = some contract → contract.getPair tokenA tokenB ≠ 0) →
      (∀ amountADesired amountBDesired amountAMin amountBMin amountA amountB after,
        amountAMin ≤ amountADesired → amountBMin ≤ amountBDesired →
        Yields (DEXV2Router02.addLiquidityAmounts entry tokenA tokenB amountADesired amountBDesired amountAMin amountBMin) world
          (amountA, amountB) after → pair.getReserves.1 ≠ 0 →
        Proportional pair.getReserves.1 pair.getReserves.2 amountADesired amountBDesired amountA amountB) ∧
      (OwnProportions entry world tokenA tokenB pair ↔ InOrder pair tokenA tokenB ∨ pair.reserve0 = 0 ∨ pair.reserve1 = 0) := by
  refine ⟨?_, fun _ _ _ _ _ _ first short second => last_branch_unreachable first short second, ?_⟩
  · intro world tokenA tokenB amountADesired amountBDesired amountAMin amountBMin amountA amountB after boundA boundB done
    obtain ⟨reserves, computed⟩ := addLiquidityAmounts_ok done
    exact (optimalAmounts_ok computed boundA boundB).1
  · intro world tokenA tokenB pair paired known
    refine ⟨?_, own_proportions_iff paired known⟩
    intro amountADesired amountBDesired amountAMin amountBMin amountA amountB after boundA boundB done some0
    obtain ⟨computed, _⟩ := (addLiquidityAmounts_paired rfl paired known).mp done
    exact (optimalAmounts_ok computed boundA boundB).2 some0

/-- A call of a router of the factory at 5. -/
def marketEntry : DEXV2Router02.Entry where
  around := { sha3 := fun _ => 0, chainOwner := 8, origin := 9, timestamp := 0 }
  self := 6
  router := { factory := 5, wrappedNative := 7 }
  caller := 9
  value := 0

theorem market_known (tokenA tokenB : Address) (tokens : tokenA = 1 ∧ tokenB = 2 ∨ tokenA = 2 ∧ tokenB = 1) :
    ∀ contract, market.at_ asFactory 5 = some contract → contract.getPair tokenA tokenB ≠ 0 := by
  intro contract known
  cases known
  rcases tokens with ⟨rfl, rfl⟩ | ⟨rfl, rfl⟩ <;> decide

theorem market_deposits_in_order : OwnProportions marketEntry market 1 2 pool := by
  have paired := market_paired 1 2 (.inl ⟨rfl, rfl⟩)
  have known := market_known 1 2 (.inl ⟨rfl, rfl⟩)
  exact ((deposits_quoted_iff marketEntry).2.2 market 1 2 pool paired known).2.mpr (.inl (.inl (by decide)))

/-- A hundred of token 2, of which the pair has four hundred, and four hundred of token 1, of which it has a hundred. -/
theorem market_deposits_out_of_order : Paired market 5 2 1 pool ∧ reserveOf pool 2 = 400 ∧ reserveOf pool 1 = 100 ∧
    Yields (DEXV2Router02.addLiquidityAmounts marketEntry 2 1 100 400 0 0) market (100, 400) market ∧
    ¬ Proportional (reserveOf pool 2) (reserveOf pool 1) 100 400 100 400 := by
  refine ⟨market_paired 2 1 (.inr ⟨rfl, rfl⟩), by decide, by decide, rfl, ?_⟩
  unfold Proportional
  decide

end OrbiterSDK.Proofs.RouterQuotes
