import OrbiterSDK.Proofs.PairSolvency
import OrbiterSDK.Proofs.PriceAccumulators

/-! When a swap goes through. It asks for less than it should of the outputs, and for more of what
a pair holds besides its reserves. -/

namespace OrbiterSDK.Proofs.SwapConditions
open Lib Atomic DEXV2 DexCalls PairCalls PairSteps Markets MarketCalls TokenSupply PairSolvency PriceAccumulators

/-- The arguments of a swap, and what it is called with. -/
structure Swap where
  around : Around
  caller : Address
  native : Address → Uint256
  amount0Out : Uint256
  amount1Out : Uint256
  «to» : Address

def Swap.call (swap : Swap) (market : Market) : Call where
  around := swap.around
  caller := swap.caller
  native := swap.native
  request := .swap market.pair swap.amount0Out swap.amount1Out swap.to

variable (market : Market)

/-- What a pair has of a token once it has paid. -/
def left (token : ERC20) («to» : Address) (amountOut : Uint256) : ℕ :=
  (token.balanceOf market.pair).toNat - if «to» = market.pair then 0 else amountOut.toNat

/-- What came in of a token. -/
def cameIn (token : ERC20) (reserve : Uint112) («to» : Address) (amountOut : Uint256) : ℕ :=
  left market token «to» amountOut + amountOut.toNat - reserve.toNat

/-- What a swap has to respect besides the bounds of its outputs. -/
structure Respects (pair : DEXV2Pair) (first second : ERC20) (swap : Swap) : Prop where
  wanted : ¬ (swap.amount0Out = 0 ∧ swap.amount1Out = 0)
  receiver : ¬ (market.token0 = swap.to ∨ market.token1 = swap.to)
  paid : 0 < cameIn market first pair.reserve0 swap.to swap.amount0Out ∨ 0 < cameIn market second pair.reserve1 swap.to swap.amount1Out
  product : KeepsProduct pair (left market first swap.to swap.amount0Out) (left market second swap.to swap.amount1Out)
    (cameIn market first pair.reserve0 swap.to swap.amount0Out) (cameIn market second pair.reserve1 swap.to swap.amount1Out)
  fits0 : left market first swap.to swap.amount0Out < 2 ^ 112
  fits1 : left market second swap.to swap.amount1Out < 2 ^ 112

/-- Each output is less than its reserve. -/
def Below (pair : DEXV2Pair) (swap : Swap) : Prop :=
  swap.amount0Out.toNat < pair.reserve0.toNat ∧ swap.amount1Out.toNat < pair.reserve1.toNat

/-- What the code asks for in the place of that: one output is less than its reserve, what came in can be computed, and the prices
have room. -/
structure Computes (pair : DEXV2Pair) (first second : ERC20) (swap : Swap) : Prop where
  below : swap.amount0Out.toNat < pair.reserve0.toNat ∨ swap.amount1Out.toNat < pair.reserve1.toNat
  counts0 : CountsIn pair.reserve0.toNat (first.balanceOf market.pair).toNat swap.amount0Out.toNat (swap.to = market.pair)
  counts1 : CountsIn pair.reserve1.toNat (second.balanceOf market.pair).toNat swap.amount1Out.toNat (swap.to = market.pair)
  room : Room pair swap.around.timestamp

variable {market} {world after : World} {pair : DEXV2Pair} {first second : ERC20} {swap : Swap}

theorem swapGuard_ok {amount0Out amount1Out : Uint256} {«to» : Address} (done : pair.swapGuard amount0Out amount1Out «to» = .ok ()) :
    ¬ (amount0Out = 0 ∧ amount1Out = 0) ∧ (amount0Out.toNat < pair.reserve0.toNat ∨ amount1Out.toNat < pair.reserve1.toNat) ∧
      ¬ (pair.token0 = «to» ∨ pair.token1 = «to») := by
  obtain ⟨wanted, rest⟩ := guard_eq_ok.mp done
  obtain ⟨out0, converted0, rest⟩ := bind_eq_ok.mp rest
  have exact0 := Uint112.ofUint256_eq_ok.mp converted0
  refine ⟨wanted, ?_⟩
  dsimp only at rest
  by_cases much : pair.reserve0 ≤ out0
  · simp only [if_pos much] at rest
    obtain ⟨out1, converted1, rest⟩ := bind_eq_ok.mp rest
    have exact1 := Uint112.ofUint256_eq_ok.mp converted1
    obtain ⟨short, rest⟩ := guard_eq_ok.mp rest
    obtain ⟨receiver, _⟩ := guard_eq_ok.mp rest
    have less : out1.toNat < pair.reserve1.toNat := BitVec.not_le.mp (by simpa using short)
    exact ⟨.inr (exact1 ▸ less), receiver⟩
  · simp only [if_neg much] at rest
    obtain ⟨receiver, _⟩ := guard_eq_ok.mp rest
    have less : out0.toNat < pair.reserve0.toNat := BitVec.not_le.mp much
    exact ⟨.inl (exact0 ▸ less), receiver⟩

theorem swapGuard_done {amount0Out amount1Out : Uint256} {«to» : Address} (wanted : ¬ (amount0Out = 0 ∧ amount1Out = 0))
    (below : amount0Out.toNat < pair.reserve0.toNat ∨ amount1Out.toNat < pair.reserve1.toNat)
    (most0 : amount0Out.toNat ≤ pair.reserve0.toNat) (most1 : amount1Out.toNat ≤ pair.reserve1.toNat)
    (receiver : ¬ (pair.token0 = «to» ∨ pair.token1 = «to»)) : pair.swapGuard amount0Out amount1Out «to» = .ok () := by
  obtain ⟨out0, converted0⟩ := Uint112.ofUint256_done (most0.trans_lt pair.reserve0.isLt)
  obtain ⟨out1, converted1⟩ := Uint112.ofUint256_done (most1.trans_lt pair.reserve1.isLt)
  have exact0 := Uint112.ofUint256_eq_ok.mp converted0
  have exact1 := Uint112.ofUint256_eq_ok.mp converted1
  have short : ¬ (pair.reserve0 ≤ out0 ∧ pair.reserve1 ≤ out1) := by
    rintro ⟨much0, much1⟩
    have much0 := BitVec.le_def.mp much0
    have much1 := BitVec.le_def.mp much1
    omega
  simp only [DEXV2Pair.swapGuard, if_neg wanted, converted0, converted1, ok_bind]
  by_cases much : pair.reserve0 ≤ out0
  · have less : ¬ pair.reserve1 ≤ out1 := fun both => short ⟨much, both⟩
    simp only [if_pos much, less, decide_false, if_neg receiver]
    rfl
  · simp only [if_neg much, if_neg receiver]
    rfl

theorem left_eq {token paid : ERC20} {«to» : Address} {amount : Uint256} (done : PaidToken market.pair «to» amount token paid) :
    (paid.balanceOf market.pair).toNat = left market token «to» amount := by
  have rest := (paidToken_left done).1
  unfold left
  omega

theorem paid_done {token : ERC20} {address «to» : Address} {amount : Uint256} (known : world.at_ asERC20 address = some token)
    (balanced : Balanced token) (covered : amount.toNat ≤ (token.balanceOf market.pair).toNat) :
    ∃ after, Paid market.pair address «to» amount world after := by
  unfold Paid
  split
  case isTrue =>
    obtain ⟨paid, done⟩ := transfer_done balanced covered
    refine ⟨world.put asERC20 address paid, ?_⟩
    exact yields_getContract_bind.mpr ⟨token, known, yields_checked_bind.mpr ⟨paid, done, rfl⟩⟩
  case isFalse => exact ⟨world, rfl⟩

/-- When the end of a swap goes through, with the balances after it paid. -/
theorem swapEnd_iff {timestamp : UInt64} {balance0 balance1 amount0Out amount1Out : Uint256} :
    (∃ changed, pair.swapEnd timestamp balance0 balance1 amount0Out amount1Out = .ok changed) ↔
      ((∃ amount, DEXV2Pair.amountIn balance0 pair.reserve0 amount0Out = .ok amount) ∧
        ∃ amount, DEXV2Pair.amountIn balance1 pair.reserve1 amount1Out = .ok amount) ∧
      (0 < balance0.toNat + amount0Out.toNat - pair.reserve0.toNat ∨ 0 < balance1.toNat + amount1Out.toNat - pair.reserve1.toNat) ∧
      KeepsProduct pair balance0.toNat balance1.toNat (balance0.toNat + amount0Out.toNat - pair.reserve0.toNat)
        (balance1.toNat + amount1Out.toNat - pair.reserve1.toNat) ∧
      balance0.toNat < 2 ^ 112 ∧ balance1.toNat < 2 ^ 112 ∧ Room pair timestamp := by
  have nonzero {amount : Uint256} : amount = 0 ↔ ¬ 0 < amount.toNat :=
    ⟨fun zero => zero ▸ Nat.lt_irrefl 0, fun none => BitVec.eq_of_toNat_eq (Nat.eq_zero_of_not_pos none)⟩
  have whole {amount0In amount1In : Uint256} (first : DEXV2Pair.amountIn balance0 pair.reserve0 amount0Out = .ok amount0In)
      (second : DEXV2Pair.amountIn balance1 pair.reserve1 amount1Out = .ok amount1In) (fits0 : balance0.toNat < 2 ^ 112)
      (fits1 : balance1.toNat < 2 ^ 112) := by
    have counted : pair.amountsIn balance0 balance1 amount0Out amount1Out = .ok (amount0In, amount1In) :=
      bind_eq_ok.mpr ⟨amount0In, first, bind_eq_ok.mpr ⟨amount1In, second, rfl⟩⟩
    obtain ⟨small0, _, exact0⟩ := amountIn_ok first
    obtain ⟨small1, _, exact1⟩ := amountIn_ok second
    have ended := @swapEnd_eq pair timestamp balance0 balance1 amount0Out amount1Out amount0In amount1In counted fits0 fits1
      (by omega) (by omega)
    simp only [nonzero, exact0, exact1] at ended
    exact ended
  constructor
  · rintro ⟨changed, done⟩
    obtain ⟨amounts, counted, _⟩ := bind_eq_ok.mp done
    obtain ⟨⟨amount0In, first⟩, amount1In, second⟩ := amountsIn_iff.mp ⟨amounts, counted⟩
    have noted := (swapEnd_ok done).1
    have fits0 := noted.reserve0.symm.trans_lt changed.reserve0.isLt
    have fits1 := noted.reserve1.symm.trans_lt changed.reserve1.isLt
    rw [whole first second fits0 fits1] at done
    obtain ⟨paid, done⟩ := guard_eq_ok.mp done
    split at done
    case isTrue enough =>
      exact ⟨⟨⟨amount0In, first⟩, amount1In, second⟩, by omega, enough, fits0, fits1, (update_room done).1⟩
    case isFalse => cases done
  · rintro ⟨⟨⟨amount0In, first⟩, amount1In, second⟩, paid, enough, fits0, fits1, room⟩
    obtain ⟨after, updated, _⟩ := update_done room fits0 fits1
    refine ⟨after, ?_⟩
    rw [whole first second fits0 fits1, if_neg (by omega), if_pos enough]
    exact updated

theorem accepted_respects {answer : Unit} (placed : Placed market world pair first second) (covered : Covered market pair first second)
    (done : Yields (DEXV2Pair.callSwap swap.around market.pair swap.amount0Out swap.amount1Out swap.to) world answer after) :
    Respects market pair first second swap ∧ Computes market pair first second swap := by
  obtain ⟨run⟩ := callSwap_run done
  obtain ⟨same, pays0, pays1, ended, _⟩ := swap_market placed run
  have guarded := run.guarded
  rw [same] at guarded
  obtain ⟨wanted, below, receiver⟩ := swapGuard_ok guarded
  rw [placed.token0, placed.token1] at receiver
  obtain ⟨⟨counted0, counted1⟩, paid, product, fits0, fits1, room⟩ := swapEnd_iff.mp ⟨_, ended⟩
  simp only [left_eq pays0, left_eq pays1] at paid product fits0 fits1
  have counts0 := (counts_iff covered.first pays0).mp counted0
  have counts1 := (counts_iff covered.second pays1).mp counted1
  exact ⟨⟨wanted, receiver, paid, product, fits0, fits1⟩, below, counts0, counts1, room⟩

theorem respecting_accepted (placed : Placed market world pair first second) (covered : Covered market pair first second)
    (balanced0 : Balanced first) (balanced1 : Balanced second) (respects : Respects market pair first second swap)
    (computes : Computes market pair first second swap) :
    ∃ after, Yields (DEXV2Pair.callSwap swap.around market.pair swap.amount0Out swap.amount1Out swap.to) world () after := by
  have most0 := computes.counts0.1
  have most1 := computes.counts1.1
  have guarded : pair.swapGuard swap.amount0Out swap.amount1Out swap.to = .ok () := by
    apply swapGuard_done respects.wanted computes.below most0 most1
    rw [placed.token0, placed.token1]
    exact respects.receiver
  obtain ⟨between, paid0⟩ := paid_done placed.first balanced0 (most0.trans covered.first)
  obtain ⟨first', pays0, placed'⟩ := paid0_placed placed paid0
  obtain ⟨paid, paid1⟩ := paid_done placed'.second balanced1 (most1.trans covered.second)
  obtain ⟨second', pays1, placed''⟩ := paid1_placed placed' paid1
  have counted0 := (counts_iff covered.first pays0).mpr computes.counts0
  have counted1 := (counts_iff covered.second pays1).mpr computes.counts1
  have ends := @swapEnd_iff pair swap.around.timestamp (first'.balanceOf market.pair) (second'.balanceOf market.pair)
    swap.amount0Out swap.amount1Out
  simp only [left_eq pays0, left_eq pays1] at ends
  obtain ⟨changed, ended⟩ := ends.mpr ⟨⟨counted0, counted1⟩, respects.paid, respects.product, respects.fits0, respects.fits1, computes.room⟩
  rw [← placed.token0] at paid0
  rw [← placed.token1] at paid1
  have found0 := placed''.first
  have found1 := placed''.second
  rw [← placed.token0] at found0
  rw [← placed.token1] at found1
  refine ⟨paid.put asPair market.pair changed, ?_⟩
  apply yields_getContract_bind.mpr ⟨pair, placed.here, ?_⟩
  apply yields_checked_bind.mpr ⟨(), guarded, ?_⟩
  apply yields_when_bind.mpr ⟨between, paid0, ?_⟩
  apply yields_when_bind.mpr ⟨paid, paid1, ?_⟩
  apply yields_balanceOf_bind.mpr ⟨first', found0, ?_⟩
  apply yields_balanceOf_bind.mpr ⟨second', found1, ?_⟩
  exact yields_getContract_bind.mpr ⟨pair, placed''.here, yields_checked_bind.mpr ⟨changed, ended, rfl⟩⟩

theorem accepted_iff (placed : Placed market world pair first second) (covered : Covered market pair first second)
    (balanced0 : Balanced first) (balanced1 : Balanced second) : (∃ after, call world (swap.call market) = .ok after) ↔
      Respects market pair first second swap ∧ Computes market pair first second swap := by
  have placed : Placed market { world with native := swap.native } pair first second :=
    ⟨placed.here, placed.token0, placed.token1, placed.first, placed.second, placed.unapproved⟩
  constructor
  · rintro ⟨after, done⟩
    obtain ⟨answer, yields⟩ := run_eq_ok.mp done
    exact accepted_respects placed covered yields
  · rintro ⟨respects, computes⟩
    obtain ⟨after, yields⟩ := respecting_accepted placed covered balanced0 balanced1 respects computes
    exact ⟨after, run_eq_ok.mpr ⟨(), yields⟩⟩

variable (market world pair first second swap) in
/-- The swaps that are accepted are the ones that respect the pair, with outputs below its reserves, and others change nothing. -/
def Decided : Prop :=
  ((∃ after, call world (swap.call market) = .ok after) ↔ Respects market pair first second swap ∧ Below pair swap) ∧
    (¬ (Respects market pair first second swap ∧ Below pair swap) → attempt call world (swap.call market) = world)

/-- A swap is decided as it should be if and only if, for a swap that respects the pair, what the code asks for comes to the same as
outputs below the reserves. -/
theorem decided_iff (placed : Placed market world pair first second) (covered : Covered market pair first second)
    (balanced0 : Balanced first) (balanced1 : Balanced second) : Decided market world pair first second swap ↔
      (Respects market pair first second swap → (Below pair swap ↔ Computes market pair first second swap)) := by
  unfold Decided
  rw [accepted_iff placed covered balanced0 balanced1]
  constructor
  · rintro ⟨same, _⟩ respects
    constructor
    · exact fun below => (same.mpr ⟨respects, below⟩).2
    · exact fun computes => (same.mp ⟨respects, computes⟩).2
  · intro agree
    have same : Respects market pair first second swap ∧ Computes market pair first second swap ↔
        Respects market pair first second swap ∧ Below pair swap :=
      ⟨fun both => ⟨both.1, (agree both.1).mpr both.2⟩, fun both => ⟨both.1, (agree both.1).mp both.2⟩⟩
    refine ⟨same, ?_⟩
    intro not
    cases result : call world (swap.call market) with
    | error what => exact attempt_error result
    | ok after => exact absurd (same.mp ((accepted_iff placed covered balanced0 balanced1).mp ⟨after, result⟩)) not

/-- A hundred of the second token, paid ahead. -/
def prepayment : Call where
  around := { sha3 := fun _ => 0, chainOwner := 8, origin := 9, timestamp := 1000000 }
  caller := 9
  native _ := 0
  request := .transfer 2 3 100

def prepaid : World := attempt call presented prepayment

theorem prepaid_covered : ∃ pair first second, Placed newMarket prepaid pair first second ∧ Covered newMarket pair first second := by
  have allowed : Allowed newMarket presented prepayment := by
    constructor
    · decide
    · intro _ _ _ same
      cases same
  exact reached_solvent (presented_reached.step prepayment allowed)

theorem prepaid_balanced : (∀ token, prepaid.at_ asERC20 1 = some token → Balanced token) ∧
    ∀ token, prepaid.at_ asERC20 2 = some token → Balanced token := by
  have first : ∃ token, prepaid.at_ asERC20 1 = some token ∧ Balanced token := ⟨_, rfl, by unfold TokenSupply.Balanced; decide⟩
  have second : ∃ token, prepaid.at_ asERC20 2 = some token ∧ Balanced token := ⟨_, rfl, by unfold TokenSupply.Balanced; decide⟩
  obtain ⟨token0, here0, balanced0⟩ := first
  obtain ⟨token1, here1, balanced1⟩ := second
  constructor
  · intro token known
    rw [Option.some.inj (known.symm.trans here0)]
    exact balanced0
  · intro token known
    rw [Option.some.inj (known.symm.trans here1)]
    exact balanced1

/-- Some of the first token for them. -/
def outOf (amount0Out : Uint256) : Swap where
  around := { sha3 := fun _ => 0, chainOwner := 8, origin := 9, timestamp := 1000000 }
  caller := 9
  native _ := 0
  amount0Out
  amount1Out := 0
  «to» := 9

theorem fourOut_accepted : ∃ pair first second, Placed newMarket prepaid pair first second ∧
    Decided newMarket prepaid pair first second (outOf 4) ∧ ∃ after, call prepaid ((outOf 4).call newMarket) = .ok after := by
  obtain ⟨pair, first, second, placed, covered⟩ := prepaid_covered
  have balanced0 := prepaid_balanced.1 first placed.first
  have balanced1 := prepaid_balanced.2 second placed.second
  have reserves : ((prepaid.at_ asPair newMarket.pair).map fun pair => (pair.reserve0, pair.reserve1)) = some (100, 400) := by decide
  have runs : (call prepaid ((outOf 4).call newMarket)).isOk = true := by decide
  cases result : call prepaid ((outOf 4).call newMarket) with
  | error what =>
    rw [result] at runs
    cases runs
  | ok after =>
    have below : Below pair (outOf 4) := by
      rw [placed.here] at reserves
      obtain ⟨reserve0, reserve1⟩ := Prod.mk.inj (Option.some.inj reserves)
      unfold Below
      rw [reserve0, reserve1]
      decide
    refine ⟨pair, first, second, placed, (decided_iff placed covered balanced0 balanced1).mpr fun _ => ?_, after, rfl⟩
    exact iff_of_true below ((accepted_iff placed covered balanced0 balanced1).mp ⟨after, result⟩).2

/-- Ten of them keep the product, but the pair holds five more of the first token than its reserve, and pays more than these. -/
theorem tenOut_rejected : ∃ pair first second, Placed newMarket prepaid pair first second ∧ Covered newMarket pair first second ∧
    Balanced first ∧ Balanced second ∧ ¬ Decided newMarket prepaid pair first second (outOf 10) := by
  have sound : ∃ pair first second, prepaid.at_ asPair 3 = some pair ∧ prepaid.at_ asERC20 1 = some first ∧
      prepaid.at_ asERC20 2 = some second ∧ Respects newMarket pair first second (outOf 10) ∧ Below pair (outOf 10) := by
    refine ⟨_, _, _, rfl, rfl, rfl, ⟨by decide, by decide, ?_, ?_, ?_, ?_⟩, ?_⟩
    · unfold cameIn left
      decide
    · unfold KeepsProduct cameIn left
      decide
    · unfold left
      decide
    · unfold left
      decide
    · unfold Below
      decide
  obtain ⟨pair, first, second, placed, covered⟩ := prepaid_covered
  obtain ⟨pair', first', second', here, here0, here1, respects, below⟩ := sound
  rw [Option.some.inj (here.symm.trans placed.here), Option.some.inj (here0.symm.trans placed.first),
    Option.some.inj (here1.symm.trans placed.second)] at respects
  rw [Option.some.inj (here.symm.trans placed.here)] at below
  refine ⟨pair, first, second, placed, covered, prepaid_balanced.1 first placed.first, prepaid_balanced.2 second placed.second, ?_⟩
  rintro ⟨same, _⟩
  obtain ⟨after, accepted⟩ := same.mpr ⟨respects, below⟩
  have failed : call prepaid ((outOf 10).call newMarket) = .error Uint256.negative := rfl
  cases failed.symm.trans accepted

end OrbiterSDK.Proofs.SwapConditions
