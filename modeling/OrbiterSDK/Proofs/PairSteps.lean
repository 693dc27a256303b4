import OrbiterSDK.Proofs.TokenSupply
import OrbiterSDK.Templates.DEXV2Pair
import OrbiterSDK.Lib.Reader

/-! What the computations of a pair write, one lemma for each. -/

namespace OrbiterSDK.Proofs.PairSteps
open Lib DEXV2Pair TokenSupply

/-- The contracts that a pair works with. -/
structure SamePlaces (before after : DEXV2Pair) : Prop where
  factory : after.factory = before.factory
  token0 : after.token0 = before.token0
  token1 : after.token1 = before.token1

/-- The shares are what changes at most. -/
structure SamePool (before after : DEXV2Pair) : Prop extends SamePlaces before after where
  reserve0 : after.reserve0 = before.reserve0
  reserve1 : after.reserve1 = before.reserve1

/-- The reserves are noted anew. -/
structure Noted (before after : DEXV2Pair) (balance0 balance1 : Uint256) : Prop extends SamePlaces before after where
  reserve0 : after.reserve0.toNat = balance0.toNat
  reserve1 : after.reserve1.toNat = balance1.toNat

/-- Nobody loses anything. -/
structure Grown (before after : ERC20) : Prop where
  allowed : after.allowed = before.allowed
  kept : ∀ account, (before.balanceOf account).toNat ≤ (after.balanceOf account).toNat

variable {pair after : DEXV2Pair} {timestamp : UInt64} {feeTo account holder «to» : Address} {balance0 balance1 amount : Uint256}

theorem SamePlaces.trans {between : DEXV2Pair} (first : SamePlaces pair between) (second : SamePlaces between after) :
    SamePlaces pair after :=
  ⟨second.factory.trans first.factory, second.token0.trans first.token0, second.token1.trans first.token1⟩

theorem SamePool.refl (pair : DEXV2Pair) : SamePool pair pair := ⟨⟨rfl, rfl, rfl⟩, rfl, rfl⟩

theorem SamePool.trans {between : DEXV2Pair} (first : SamePool pair between) (second : SamePool between after) : SamePool pair after :=
  ⟨first.toSamePlaces.trans second.toSamePlaces, second.reserve0.trans first.reserve0, second.reserve1.trans first.reserve1⟩

theorem Grown.refl (token : ERC20) : Grown token token := ⟨rfl, fun _ => Nat.le_refl _⟩

theorem Grown.trans {first second third : ERC20} (before : Grown first second) (later : Grown second third) : Grown first third :=
  ⟨later.allowed.trans before.allowed, fun account => (before.kept account).trans (later.kept account)⟩

theorem mint_grown {token minted : ERC20} (done : token.mintValue_ account amount = .ok minted) : Grown token minted := by
  obtain ⟨credited, _, allowed⟩ := mint_adds done
  refine ⟨allowed, fun other => ?_⟩
  rw [balanceOf_eq, balanceOf_eq, credit_adds credited]
  exact Nat.le_add_right _ _

theorem mintValue_ok (done : pair.mintValue_ account amount = .ok after) :
    SamePool pair after ∧ pair.toERC20.mintValue_ account amount = .ok after.toERC20 := by
  obtain ⟨token, minted, rfl⟩ := build_eq_ok.mp done
  exact ⟨⟨⟨rfl, rfl, rfl⟩, rfl, rfl⟩, minted⟩

private theorem burnValue_ok (done : pair.burnValue_ account amount = .ok after) :
    SamePool pair after ∧ pair.toERC20.burnValue_ account amount = .ok after.toERC20 := by
  obtain ⟨token, burnt, rfl⟩ := build_eq_ok.mp done
  exact ⟨⟨⟨rfl, rfl, rfl⟩, rfl, rfl⟩, burnt⟩

theorem noted_ok (priced : DEXV2Pair) {blockTimestamp : UInt32} (places : SamePlaces pair priced)
    (shares : priced.toERC20 = pair.toERC20) (done : (do
      let reserve0 ← Uint112.ofUint256 balance0
      let reserve1 ← Uint112.ofUint256 balance1
      pure { priced with reserve0, reserve1, blockTimestampLast := blockTimestamp }) = .ok after) :
    Noted pair after balance0 balance1 ∧ after.toERC20 = pair.toERC20 := by
  obtain ⟨reserve0, first, rest⟩ := bind_eq_ok.mp done
  obtain ⟨reserve1, second, rfl⟩ := build_eq_ok.mp rest
  exact ⟨⟨⟨places.factory, places.token0, places.token1⟩, Uint112.ofUint256_eq_ok.mp first, Uint112.ofUint256_eq_ok.mp second⟩, shares⟩

theorem update_ok (done : pair.update timestamp balance0 balance1 = .ok after) :
    Noted pair after balance0 balance1 ∧ after.toERC20 = pair.toERC20 := by
  unfold update at done
  dsimp only at done
  split at done
  case isTrue =>
    obtain ⟨price0, _, rest⟩ := bind_eq_ok.mp done
    obtain ⟨price1, _, rest⟩ := bind_eq_ok.mp rest
    obtain ⟨priced, same, rest⟩ := bind_eq_ok.mp rest
    refine noted_ok priced ?_ ?_ rest
    · cases pure_eq_ok.mp same
      exact ⟨rfl, rfl, rfl⟩
    · cases pure_eq_ok.mp same
      rfl
  case isFalse =>
    obtain ⟨priced, same, rest⟩ := bind_eq_ok.mp done
    cases pure_eq_ok.mp same
    exact noted_ok pair ⟨rfl, rfl, rfl⟩ rfl rest

theorem settle_ok {feeOn : Bool} (done : pair.settle timestamp feeOn balance0 balance1 = .ok after) :
    Noted pair after balance0 balance1 ∧ after.toERC20 = pair.toERC20 := by
  obtain ⟨updated, update, rest⟩ := bind_eq_ok.mp done
  obtain ⟨noted, shares⟩ := update_ok update
  split at rest
  case isTrue =>
    obtain ⟨kLast, _, rfl⟩ := build_eq_ok.mp rest
    exact ⟨⟨⟨noted.factory, noted.token0, noted.token1⟩, noted.reserve0, noted.reserve1⟩, shares⟩
  case isFalse =>
    cases pure_eq_ok.mp rest
    exact ⟨noted, shares⟩

/-- The shares that are due as fees, a sixth of what the root of the product grew by. -/
def feeDue (pair : DEXV2Pair) : ℕ :=
  if pair.kLast = 0 then 0
  else
    let rootK := (pair.reserve0.toNat * pair.reserve1.toNat).sqrt
    let rootKLast := pair.kLast.toNat.sqrt
    if rootKLast < rootK then pair.totalSupply.toNat * (rootK - rootKLast) / (rootK * 5 + rootKLast) else 0

/-- The shares after the fees: made if there is an account for them and some are due. -/
inductive Charged (pair : DEXV2Pair) (feeTo : Address) : ERC20 → Prop where
  | free (none_ : feeTo = 0 ∨ feeDue pair = 0) : Charged pair feeTo pair.toERC20
  | paid {fee : Uint256} {shares : ERC20} (someone : feeTo ≠ 0) (some_ : feeDue pair ≠ 0) (due : fee.toNat = feeDue pair)
      (minted : pair.toERC20.mintValue_ feeTo fee = .ok shares) : Charged pair feeTo shares

theorem mintFee_ok {feeOn : Bool} (done : pair.mintFee feeTo = .ok (feeOn, after)) :
    SamePool pair after ∧ Charged pair feeTo after.toERC20 := by
  unfold mintFee at done
  split at done
  case isFalse nobody =>
    cases done
    have free : Charged pair feeTo pair.toERC20 := .free (.inl (not_not.mp nobody))
    split
    · exact ⟨⟨⟨rfl, rfl, rfl⟩, rfl, rfl⟩, free⟩
    · exact ⟨.refl pair, free⟩
  case isTrue receiver =>
    split at done
    case isFalse noLast =>
      cases pure_eq_ok.mp done
      exact ⟨.refl pair, .free (.inr (if_pos (not_not.mp noLast)))⟩
    case isTrue last =>
      obtain ⟨product, multiplied, rest⟩ := bind_eq_ok.mp done
      have multiplied := Uint256.mul_eq_ok.mp multiplied
      rw [Uint112.wide_toNat, Uint112.wide_toNat] at multiplied
      dsimp only at rest
      have due : feeDue pair = if pair.kLast.toNat.sqrt < product.toNat.sqrt then pair.totalSupply.toNat *
          (product.toNat.sqrt - pair.kLast.toNat.sqrt) / (product.toNat.sqrt * 5 + pair.kLast.toNat.sqrt) else 0 := by
        unfold feeDue
        rw [if_neg last, multiplied]
      split at rest
      case isFalse noGrowth =>
        cases pure_eq_ok.mp rest
        rw [BitVec.lt_def, Uint256.sqrt_toNat, Uint256.sqrt_toNat] at noGrowth
        exact ⟨.refl pair, .free (.inr (due.trans (if_neg noGrowth)))⟩
      case isTrue grew =>
        rw [BitVec.lt_def, Uint256.sqrt_toNat, Uint256.sqrt_toNat] at grew
        rw [if_pos grew] at due
        obtain ⟨growth, difference, rest⟩ := bind_eq_ok.mp rest
        obtain ⟨numerator, scaled, rest⟩ := bind_eq_ok.mp rest
        obtain ⟨fivefold, five, rest⟩ := bind_eq_ok.mp rest
        obtain ⟨denominator, sum, rest⟩ := bind_eq_ok.mp rest
        obtain ⟨liquidity, divided, rest⟩ := bind_eq_ok.mp rest
        have difference := Uint256.sub_eq_ok.mp difference
        have scaled := Uint256.mul_eq_ok.mp scaled
        have five := Uint256.mul_eq_ok.mp five
        have sum := Uint256.add_eq_ok.mp sum
        have divided := (Uint256.div_eq_ok.mp divided).2
        rw [Uint256.sqrt_toNat, Uint256.sqrt_toNat] at difference
        rw [Uint256.sqrt_toNat] at five sum
        change fivefold.toNat = product.toNat.sqrt * 5 at five
        have grown : growth.toNat = product.toNat.sqrt - pair.kLast.toNat.sqrt := by omega
        rw [scaled, sum, five, grown, ← due] at divided
        split at rest
        case isFalse none_ =>
          cases pure_eq_ok.mp rest
          rw [BitVec.lt_def] at none_
          exact ⟨.refl pair, .free (.inr (divided.symm.trans (Nat.eq_zero_of_not_pos none_)))⟩
        case isTrue some_ =>
          obtain ⟨minted, mint, same⟩ := bind_eq_ok.mp rest
          cases pure_eq_ok.mp same
          obtain ⟨pool, shares⟩ := mintValue_ok mint
          rw [BitVec.lt_def] at some_
          exact ⟨pool, .paid receiver (divided ▸ Nat.ne_of_gt some_) divided shares⟩

theorem Charged.grown {shares : ERC20} (charged : Charged pair feeTo shares) : Grown pair.toERC20 shares := by
  cases charged with
  | free => exact .refl _
  | paid _ _ _ minted => exact mint_grown minted

theorem Charged.same {shares : ERC20} (charged : Charged pair feeTo shares) (nobody : feeTo = 0) : shares = pair.toERC20 := by
  cases charged with
  | free => rfl
  | paid someone => exact absurd nobody someone

theorem proportion_le {totalSupply share : Uint256} {reserve : Uint112} (done : proportion amount totalSupply reserve = .ok share) :
    share.toNat * reserve.toNat ≤ amount.toNat * totalSupply.toNat := by
  obtain ⟨product, multiplied, divided⟩ := bind_eq_ok.mp done
  obtain ⟨_, quotient⟩ := Uint256.div_eq_ok.mp divided
  rw [quotient, ← Uint256.mul_eq_ok.mp multiplied, Uint112.wide_toNat]
  exact Nat.div_mul_le_self _ _

/-- The shares for what came in: the first ones, or a part of those that there are. -/
def Provided (pair : DEXV2Pair) (amount0 amount1 liquidity : Uint256) (after : ERC20) : Prop :=
  if pair.totalSupply = 0 then pair.toERC20.mintValue_ 0 minimumLiquidity = .ok after
  else after = pair.toERC20 ∧ liquidity.toNat * pair.reserve0.toNat ≤ amount0.toNat * pair.totalSupply.toNat ∧
    liquidity.toNat * pair.reserve1.toNat ≤ amount1.toNat * pair.totalSupply.toNat

theorem liquidityFor_ok {amount0 amount1 liquidity : Uint256} (done : pair.liquidityFor amount0 amount1 = .ok (liquidity, after)) :
    SamePool pair after ∧ Provided pair amount0 amount1 liquidity after.toERC20 := by
  unfold liquidityFor at done
  unfold Provided
  split at done
  case isTrue empty =>
    obtain ⟨product, _, rest⟩ := bind_eq_ok.mp done
    obtain ⟨root, _, rest⟩ := bind_eq_ok.mp rest
    obtain ⟨minted, mint, same⟩ := bind_eq_ok.mp rest
    cases pure_eq_ok.mp same
    rw [if_pos empty]
    exact mintValue_ok mint
  case isFalse filled =>
    obtain ⟨share0, first, rest⟩ := bind_eq_ok.mp done
    obtain ⟨share1, second, same⟩ := bind_eq_ok.mp rest
    cases pure_eq_ok.mp same
    have first := proportion_le first
    have second := proportion_le second
    rw [if_neg filled]
    refine ⟨.refl pair, rfl, ?_⟩
    split
    case isTrue less => exact ⟨(Nat.mul_le_mul_right _ (BitVec.lt_def.mp less).le).trans first, second⟩
    case isFalse notLess => exact ⟨first, (Nat.mul_le_mul_right _ (Nat.not_lt.mp (mt BitVec.lt_def.mpr notLess))).trans second⟩

theorem Provided.grown {amount0 amount1 liquidity : Uint256} {token : ERC20} (provided : Provided pair amount0 amount1 liquidity token) :
    Grown pair.toERC20 token := by
  unfold Provided at provided
  split at provided
  case isTrue => exact mint_grown provided
  case isFalse =>
    rw [provided.1]
    exact .refl _

/-- What a mint does: the fees, the shares for what came in, and then the reserves. -/
structure Minted (pair : DEXV2Pair) (feeTo : Address) (amounts : Uint256 × Uint256) (balance0 balance1 : Uint256) («to» : Address)
    (liquidity : Uint256) (after : DEXV2Pair) : Prop where
  noted : Noted pair after balance0 balance1
  some_ : liquidity ≠ 0
  shares : ∃ charged provided : DEXV2Pair, SamePool pair charged ∧ Charged pair feeTo charged.toERC20 ∧
    Provided charged amounts.1 amounts.2 liquidity provided.toERC20 ∧ provided.toERC20.mintValue_ «to» liquidity = .ok after.toERC20

theorem mint_minted {amounts : Uint256 × Uint256} {liquidity : Uint256}
    (done : pair.mint timestamp feeTo amounts balance0 balance1 «to» = .ok (liquidity, after)) :
    Minted pair feeTo amounts balance0 balance1 «to» liquidity after := by
  obtain ⟨⟨feeOn, charged⟩, charge, rest⟩ := bind_eq_ok.mp done
  obtain ⟨⟨shares, provided⟩, provide, rest⟩ := bind_eq_ok.mp rest
  obtain ⟨some_, rest⟩ := guard_eq_ok.mp rest
  obtain ⟨minted, mint, rest⟩ := bind_eq_ok.mp rest
  obtain ⟨settled, settle, same⟩ := bind_eq_ok.mp rest
  cases pure_eq_ok.mp same
  obtain ⟨pool, fees⟩ := mintFee_ok charge
  obtain ⟨pool', filled⟩ := liquidityFor_ok provide
  obtain ⟨pool'', made⟩ := mintValue_ok mint
  obtain ⟨noted, kept⟩ := settle_ok settle
  have places := ((pool.trans pool').trans pool'').toSamePlaces.trans noted.toSamePlaces
  refine ⟨⟨places, noted.reserve0, noted.reserve1⟩, some_, charged, provided, pool, fees, filled, ?_⟩
  rw [kept]
  exact made

theorem mint_ok {amounts : Uint256 × Uint256} {liquidity : Uint256}
    (done : pair.mint timestamp feeTo amounts balance0 balance1 «to» = .ok (liquidity, after)) :
    Noted pair after balance0 balance1 ∧ Grown pair.toERC20 after.toERC20 ∧
      (feeTo = 0 → ∃ provided, Provided pair amounts.1 amounts.2 liquidity provided ∧
        provided.mintValue_ «to» liquidity = .ok after.toERC20) := by
  have minted := mint_minted done
  obtain ⟨charged, provided, pool, fees, filled, made⟩ := minted.shares
  refine ⟨minted.noted, fees.grown.trans (filled.grown.trans (mint_grown made)), ?_⟩
  intro nobody
  have before := fees.same nobody
  refine ⟨provided.toERC20, ?_, made⟩
  unfold Provided at filled ⊢
  rw [before, pool.reserve0, pool.reserve1] at filled
  exact filled

/-- What burning does before it pays. -/
structure Burnt (pair : DEXV2Pair) (holder feeTo : Address) (balance0 balance1 : Uint256) (burning : Burning) : Prop where
  pool : SamePool pair burning.pair
  some_ : burning.amount0 ≠ 0 ∧ burning.amount1 ≠ 0
  shares : ∃ charged, Charged pair feeTo charged ∧ charged.totalSupply.toNat ≠ 0 ∧
    charged.burnValue_ holder (pair.balanceOf holder) = .ok burning.pair.toERC20 ∧
    burning.amount0.toNat * charged.totalSupply.toNat ≤ (pair.balanceOf holder).toNat * balance0.toNat ∧
    burning.amount1.toNat * charged.totalSupply.toNat ≤ (pair.balanceOf holder).toNat * balance1.toNat

theorem part_le {liquidity balance product totalSupply : Uint256} (multiplied : Uint256.mul liquidity balance = .ok product)
    (divided : Uint256.div product totalSupply = .ok amount) :
    totalSupply.toNat ≠ 0 ∧ amount.toNat * totalSupply.toNat ≤ liquidity.toNat * balance.toNat := by
  obtain ⟨some_, quotient⟩ := Uint256.div_eq_ok.mp divided
  rw [quotient, ← Uint256.mul_eq_ok.mp multiplied]
  exact ⟨some_, Nat.div_mul_le_self _ _⟩

theorem burnShares_ok {burning : Burning} (done : pair.burnShares holder feeTo balance0 balance1 = .ok burning) :
    Burnt pair holder feeTo balance0 balance1 burning := by
  obtain ⟨⟨feeOn, charged⟩, charge, rest⟩ := bind_eq_ok.mp done
  obtain ⟨product0, multiplied0, rest⟩ := bind_eq_ok.mp rest
  obtain ⟨amount0, divided0, rest⟩ := bind_eq_ok.mp rest
  obtain ⟨product1, multiplied1, rest⟩ := bind_eq_ok.mp rest
  obtain ⟨amount1, divided1, rest⟩ := bind_eq_ok.mp rest
  obtain ⟨nonzero, rest⟩ := guard_eq_ok.mp rest
  obtain ⟨burnt, burn, rfl⟩ := build_eq_ok.mp rest
  obtain ⟨pool, fees⟩ := mintFee_ok charge
  obtain ⟨pool', shares⟩ := burnValue_ok burn
  obtain ⟨some_, part0⟩ := part_le multiplied0 divided0
  exact ⟨pool.trans pool', not_or.mp nonzero, charged.toERC20, fees, some_, shares, part0, (part_le multiplied1 divided1).2⟩

theorem amountIn_ok {amountOut result : Uint256} {reserve : Uint112} (done : amountIn amount reserve amountOut = .ok result) :
    amountOut.toNat ≤ reserve.toNat ∧ (amount.toNat + amountOut.toNat ≤ reserve.toNat ∨ reserve.toNat ≤ amount.toNat) ∧
      result.toNat = amount.toNat + amountOut.toNat - reserve.toNat := by
  obtain ⟨out, exact_, rest⟩ := bind_eq_ok.mp done
  obtain ⟨left, difference, rest⟩ := bind_eq_ok.mp rest
  have exact_ := Uint112.ofUint256_eq_ok.mp exact_
  have difference := Uint112.sub_eq_ok.mp difference
  refine ⟨by omega, ?_⟩
  split at rest
  case isTrue more =>
    obtain ⟨excess, over_, added⟩ := bind_eq_ok.mp rest
    have over_ := Uint256.sub_eq_ok.mp over_
    have added := Uint256.add_eq_ok.mp added
    rw [Uint112.wide_toNat] at over_ added
    exact ⟨.inr (by omega), by omega⟩
  case isFalse less =>
    have less := Nat.not_lt.mp (mt BitVec.lt_def.mpr less)
    have zero : result.toNat = 0 := (congrArg BitVec.toNat (pure_eq_ok.mp rest)).symm
    rw [Uint112.wide_toNat] at less
    exact ⟨.inl (by omega), by omega⟩

theorem amountIn_done {amountOut : Uint256} {reserve : Uint112} (small : amountOut.toNat ≤ reserve.toNat)
    (side : amount.toNat + amountOut.toNat ≤ reserve.toNat ∨ reserve.toNat ≤ amount.toNat) :
    ∃ result, amountIn amount reserve amountOut = .ok result := by
  have narrow := reserve.isLt
  have bound := amount.isLt
  have fits : amountOut.toNat < 2 ^ 112 := by omega
  obtain ⟨out, converted⟩ := Uint112.ofUint256_done fits
  have exact_ := Uint112.ofUint256_eq_ok.mp converted
  obtain ⟨left, difference⟩ := Uint112.sub_done (exact_ ▸ small)
  have rest := Uint112.sub_eq_ok.mp difference
  have last : ∃ result, (if left.wide < amount then do
      let excess ← Uint256.sub amount reserve.wide
      Uint256.add excess out.wide
    else pure 0 : Except Exception Uint256) = .ok result := by
    by_cases more : left.wide < amount
    · simp only [if_pos more]
      rw [BitVec.lt_def, Uint112.wide_toNat] at more
      have enough : reserve.wide.toNat ≤ amount.toNat := by
        rw [Uint112.wide_toNat]
        omega
      obtain ⟨excess, taken⟩ := Uint256.sub_done enough
      have exact_ := Uint256.sub_eq_ok.mp taken
      rw [Uint112.wide_toNat] at exact_
      have bounded : excess.toNat + out.wide.toNat < 2 ^ 256 := by
        rw [Uint112.wide_toNat]
        omega
      obtain ⟨result, added⟩ := Uint256.add_done bounded
      exact ⟨result, bind_eq_ok.mpr ⟨excess, taken, added⟩⟩
    · exact ⟨0, if_neg more⟩
  obtain ⟨result, last⟩ := last
  exact ⟨result, bind_eq_ok.mpr ⟨out, converted, bind_eq_ok.mpr ⟨left, difference, last⟩⟩⟩

/-- When it can be computed what came in, and what it is then. -/
theorem amountIn_eq_ok {amountOut result : Uint256} {reserve : Uint112} : amountIn amount reserve amountOut = .ok result ↔
    amountOut.toNat ≤ reserve.toNat ∧ (amount.toNat + amountOut.toNat ≤ reserve.toNat ∨ reserve.toNat ≤ amount.toNat) ∧
      result.toNat = amount.toNat + amountOut.toNat - reserve.toNat := by
  constructor
  · exact amountIn_ok
  · rintro ⟨small, side, exact_⟩
    obtain ⟨other, done⟩ := amountIn_done small side
    have same : result = other := BitVec.eq_of_toNat_eq (exact_.trans (amountIn_ok done).2.2.symm)
    rw [same]
    exact done

theorem adjusted_toNat {amountIn result : Uint256} (done : adjusted amount amountIn = .ok result) :
    result.toNat = amount.toNat * 1000 - amountIn.toNat * 3 := by
  obtain ⟨thousandfold, first, rest⟩ := bind_eq_ok.mp done
  obtain ⟨fee, second, rest⟩ := bind_eq_ok.mp rest
  have first := Uint256.mul_eq_ok.mp first
  have second := Uint256.mul_eq_ok.mp second
  have third := Uint256.sub_eq_ok.mp rest
  change thousandfold.toNat = amount.toNat * 1000 at first
  change fee.toNat = amountIn.toNat * 3 at second
  omega

theorem constant_fits {value factor : ℕ} (fits : value < 2 ^ 112) (small : factor < 2 ^ 144) : value * factor < 2 ^ 256 := by
  calc value * factor < 2 ^ 112 * 2 ^ 144 := Nat.mul_lt_mul'' fits small
    _ = 2 ^ 256 := by norm_num

theorem mul_constant {left : Uint256} (right : Uint256) (factor : ℕ) (same : right.toNat = factor) (fits : left.toNat * factor < 2 ^ 256) :
    ∃ product, Uint256.mul left right = .ok product ∧ product.toNat = left.toNat * factor := by
  rw [← same] at fits ⊢
  obtain ⟨product, done⟩ := Uint256.mul_done fits
  exact ⟨product, done, Uint256.mul_eq_ok.mp done⟩

theorem adjusted_done {amountIn : Uint256} (fits : amount.toNat < 2 ^ 112) (part : amountIn.toNat ≤ amount.toNat) :
    ∃ result, adjusted amount amountIn = .ok result := by
  obtain ⟨thousandfold, multiplied, exact_⟩ := mul_constant 1000 1000 rfl (constant_fits fits (by decide))
  obtain ⟨fee, taken, exactFee⟩ := mul_constant 3 3 rfl (constant_fits (part.trans_lt fits) (by decide))
  obtain ⟨result, difference⟩ := Uint256.sub_done (by omega : fee.toNat ≤ thousandfold.toNat)
  exact ⟨result, bind_eq_ok.mpr ⟨thousandfold, multiplied, bind_eq_ok.mpr ⟨fee, taken, difference⟩⟩⟩

/-- The product that a swap asks for, as its end computes it from what came in. -/
def KeepsProduct (pair : DEXV2Pair) (balance0 balance1 amount0In amount1In : ℕ) : Prop :=
  pair.reserve0.toNat * pair.reserve1.toNat * 1000 * 1000 ≤ (balance0 * 1000 - amount0In * 3) * (balance1 * 1000 - amount1In * 3)

instance (pair : DEXV2Pair) (balance0 balance1 amount0In amount1In : ℕ) : Decidable (KeepsProduct pair balance0 balance1 amount0In amount1In) :=
  inferInstanceAs (Decidable (_ ≤ _))

theorem million_fits {product : ℕ} (small : product ≤ 2 ^ 112 * 2 ^ 112) : product * 1000 * 1000 < 2 ^ 256 := by omega

/-- Once it is known what came in, a swap asks whether that is something and for the product, and is an update then. -/
theorem swapEnd_eq {amount0Out amount1Out amount0In amount1In : Uint256}
    (counted : pair.amountsIn balance0 balance1 amount0Out amount1Out = .ok (amount0In, amount1In))
    (fits0 : balance0.toNat < 2 ^ 112) (fits1 : balance1.toNat < 2 ^ 112) (part0 : amount0In.toNat ≤ balance0.toNat)
    (part1 : amount1In.toNat ≤ balance1.toNat) :
    pair.swapEnd timestamp balance0 balance1 amount0Out amount1Out =
      if amount0In = 0 ∧ amount1In = 0 then .error "DEXV2Pair: INSUFFICIENT_INPUT_AMOUNT"
      else if KeepsProduct pair balance0.toNat balance1.toNat amount0In.toNat amount1In.toNat then pair.update timestamp balance0 balance1
      else .error "DEXV2Pair: K" := by
  obtain ⟨adjusted0, first⟩ := adjusted_done fits0 part0
  obtain ⟨adjusted1, second⟩ := adjusted_done fits1 part1
  have exact0 := adjusted_toNat first
  have exact1 := adjusted_toNat second
  have narrow0 := pair.reserve0.isLt
  have narrow1 := pair.reserve1.isLt
  have product : adjusted0.toNat * adjusted1.toNat < 2 ^ 256 := by
    calc adjusted0.toNat * adjusted1.toNat ≤ 2 ^ 122 * 2 ^ 122 := Nat.mul_le_mul (by omega) (by omega)
      _ < 2 ^ 256 := by norm_num
  have reserves : pair.reserve0.toNat * pair.reserve1.toNat ≤ 2 ^ 112 * 2 ^ 112 := Nat.mul_le_mul narrow0.le narrow1.le
  have small : pair.reserve0.wide.toNat * pair.reserve1.wide.toNat < 2 ^ 256 := by
    rw [Uint112.wide_toNat, Uint112.wide_toNat]
    omega
  obtain ⟨after, multiplied⟩ := Uint256.mul_done product
  obtain ⟨before, held⟩ := Uint256.mul_done small
  have exactAfter := Uint256.mul_eq_ok.mp multiplied
  have exactBefore := Uint256.mul_eq_ok.mp held
  rw [Uint112.wide_toNat, Uint112.wide_toNat] at exactBefore
  have boundAgain := million_fits (exactBefore ▸ reserves)
  have bound : before.toNat * 1000 < 2 ^ 256 := (Nat.le_mul_of_pos_right _ (by decide)).trans_lt boundAgain
  obtain ⟨thousandfold, scaled, exactScaled⟩ := mul_constant 1000 1000 rfl bound
  rw [← exactScaled] at boundAgain
  obtain ⟨millionfold, scaledAgain, exactMillion⟩ := mul_constant 1000 1000 rfl boundAgain
  have kept : after < millionfold ↔ ¬ KeepsProduct pair balance0.toNat balance1.toNat amount0In.toNat amount1In.toNat := by
    simp only [BitVec.lt_def, exactAfter, exact0, exact1, exactMillion, exactScaled, exactBefore, KeepsProduct, Nat.not_le]
  simp only [swapEnd, counted, first, second, multiplied, held, scaled, scaledAgain, ok_bind, kept]
  by_cases none : amount0In = 0 ∧ amount1In = 0
  · simp only [if_pos none]
  · by_cases enough : KeepsProduct pair balance0.toNat balance1.toNat amount0In.toNat amount1In.toNat
    · simp only [if_neg none, if_neg (not_not.mpr enough), if_pos enough]
    · simp only [if_neg none, if_pos enough, if_neg enough]

/-- What the end of a swap has checked: the product, up to the fees. -/
theorem swapEnd_ok {amount0Out amount1Out : Uint256}
    (done : pair.swapEnd timestamp balance0 balance1 amount0Out amount1Out = .ok after) :
    Noted pair after balance0 balance1 ∧ after.toERC20 = pair.toERC20 ∧ ∃ fee0 fee1,
      pair.reserve0.toNat * pair.reserve1.toNat * 1000 * 1000 ≤
        (balance0.toNat * 1000 - fee0) * (balance1.toNat * 1000 - fee1) := by
  obtain ⟨⟨amount0In, amount1In⟩, _, rest⟩ := bind_eq_ok.mp done
  obtain ⟨_, rest⟩ := guard_eq_ok.mp rest
  obtain ⟨balance0Adjusted, first, rest⟩ := bind_eq_ok.mp rest
  obtain ⟨balance1Adjusted, second, rest⟩ := bind_eq_ok.mp rest
  obtain ⟨product, multiplied, rest⟩ := bind_eq_ok.mp rest
  obtain ⟨before, reserves, rest⟩ := bind_eq_ok.mp rest
  obtain ⟨thousandfold, scaled, rest⟩ := bind_eq_ok.mp rest
  obtain ⟨millionfold, scaledAgain, rest⟩ := bind_eq_ok.mp rest
  obtain ⟨enough, update⟩ := guard_eq_ok.mp rest
  obtain ⟨noted, shares⟩ := update_ok update
  refine ⟨noted, shares, amount0In.toNat * 3, amount1In.toNat * 3, ?_⟩
  have reserves := Uint256.mul_eq_ok.mp reserves
  have scaled := Uint256.mul_eq_ok.mp scaled
  have scaledAgain := Uint256.mul_eq_ok.mp scaledAgain
  change thousandfold.toNat = before.toNat * 1000 at scaled
  change millionfold.toNat = thousandfold.toNat * 1000 at scaledAgain
  rw [Uint112.wide_toNat, Uint112.wide_toNat] at reserves
  rw [← adjusted_toNat first, ← adjusted_toNat second, ← Uint256.mul_eq_ok.mp multiplied, ← reserves, ← scaled, ← scaledAgain]
  exact Nat.not_lt.mp (mt BitVec.lt_def.mpr enough)

end OrbiterSDK.Proofs.PairSteps
