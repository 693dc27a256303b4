import OrbiterSDK.Proofs.PairSteps

/-! The cumulative prices of a pair. Each update adds the price of the reserves that it finds for
the seconds since the last one, and the seconds of a run bound what it adds in all. -/

namespace OrbiterSDK.Proofs.PriceAccumulators
open Lib DEXV2Pair PairSteps

/-- The price of an asset in the other one, in parts of `2 ^ 112`. -/
def price (numerator denominator : ℕ) : ℕ := numerator * 2 ^ 112 / denominator

theorem price_le (numerator denominator : ℕ) : price numerator denominator ≤ numerator * 2 ^ 112 := Nat.div_le_self _ _

variable {pair after : DEXV2Pair} {timestamp : UInt64} {balance0 balance1 cumulative grown : Uint256} {numerator denominator : Uint112}
  {timeElapsed : UInt32}

theorem uqdiv_toNat (some_ : denominator ≠ 0) : ∃ quotient, UQ112x112.uqdiv (UQ112x112.encode numerator) denominator = .ok quotient ∧
    quotient.toNat = price numerator.toNat denominator.toNat := by
  have numeratorFits := numerator.isLt
  have denominatorFits := denominator.isLt
  refine ⟨_, if_neg some_, ?_⟩
  have small : numerator.toNat * 2 ^ 112 < 2 ^ 224 := by omega
  have encoded : (UQ112x112.encode numerator).toNat = numerator.toNat * 2 ^ 112 := by
    simp only [UQ112x112.encode, BitVec.toNat_ofNat, Nat.mod_eq_of_lt small]
  have wide : (denominator.setWidth 224).toNat = denominator.toNat := BitVec.toNat_setWidth_of_le (by decide)
  simp only [BitVec.toNat_udiv, encoded, wide, price]

theorem accumulate_eq_ok (some_ : denominator ≠ 0) : accumulate cumulative numerator denominator timeElapsed = .ok grown ↔
    grown.toNat = cumulative.toNat + price numerator.toNat denominator.toNat * timeElapsed.toNat := by
  obtain ⟨quotient, divided, exact_⟩ : ∃ quotient, UQ112x112.uqdiv (UQ112x112.encode numerator) denominator = .ok quotient ∧
    quotient.toNat = price numerator.toNat denominator.toNat := uqdiv_toNat some_
  have elapsedFits := timeElapsed.toNat_lt
  have small := price_le numerator.toNat denominator.toNat
  have numeratorFits := numerator.isLt
  have wide : (quotient.setWidth 256).toNat = price numerator.toNat denominator.toNat := by
    rw [BitVec.toNat_setWidth_of_le (by decide), exact_]
  have few : timeElapsed.toNat < 2 ^ 256 := by omega
  have seconds : (BitVec.ofNat 256 timeElapsed.toNat).toNat = timeElapsed.toNat := by
    simp only [BitVec.toNat_ofNat, Nat.mod_eq_of_lt few]
  have bounded : price numerator.toNat denominator.toNat * timeElapsed.toNat < 2 ^ 256 := by
    calc price numerator.toNat denominator.toNat * timeElapsed.toNat ≤ 2 ^ 224 * timeElapsed.toNat := Nat.mul_le_mul_right _ (by omega)
      _ < 2 ^ 224 * 2 ^ 32 := Nat.mul_lt_mul_of_pos_left elapsedFits (by decide)
      _ = 2 ^ 256 := by norm_num
  have fits : (quotient.setWidth 256).toNat * (BitVec.ofNat 256 timeElapsed.toNat).toNat < 2 ^ 256 := by
    rw [wide, seconds]
    exact bounded
  obtain ⟨product, multiplied⟩ := Uint256.mul_done fits
  have exactProduct := Uint256.mul_eq_ok.mp multiplied
  rw [wide, seconds] at exactProduct
  have same : accumulate cumulative numerator denominator timeElapsed = SafeUint.addAssign cumulative product := by
    unfold accumulate
    rw [divided]
    exact congrArg (fun result => result >>= fun product => SafeUint.addAssign cumulative product) multiplied
  rw [same, SafeUint.addAssign_eq_ok, exactProduct]

/-- What an update adds to the price of an asset. -/
def accrued (pair : DEXV2Pair) (timestamp : UInt64) (numerator denominator : ℕ) : ℕ :=
  if pair.reserve0 ≠ 0 ∧ pair.reserve1 ≠ 0 then
    price numerator denominator * ((timestamp / 1000000).toUInt32 - pair.blockTimestampLast).toNat
  else 0

/-- The prices that an update finds fit into their sums. -/
def Room (pair : DEXV2Pair) (timestamp : UInt64) : Prop :=
  pair.price0CumulativeLast.toNat + accrued pair timestamp pair.reserve1.toNat pair.reserve0.toNat < 2 ^ 256 ∧
    pair.price1CumulativeLast.toNat + accrued pair timestamp pair.reserve0.toNat pair.reserve1.toNat < 2 ^ 256

/-- What an update writes. -/
structure Updated (pair : DEXV2Pair) (timestamp : UInt64) (balance0 balance1 : Uint256) (after : DEXV2Pair) : Prop where
  reserve0 : after.reserve0.toNat = balance0.toNat
  reserve1 : after.reserve1.toNat = balance1.toNat
  last : after.blockTimestampLast = (timestamp / 1000000).toUInt32
  price0 : after.price0CumulativeLast.toNat = pair.price0CumulativeLast.toNat + accrued pair timestamp pair.reserve1.toNat pair.reserve0.toNat
  price1 : after.price1CumulativeLast.toNat = pair.price1CumulativeLast.toNat + accrued pair timestamp pair.reserve0.toNat pair.reserve1.toNat

/-- The end of an update, once the prices have been added. -/
theorem noted_updated (priced : DEXV2Pair)
    (price0 : priced.price0CumulativeLast.toNat = pair.price0CumulativeLast.toNat + accrued pair timestamp pair.reserve1.toNat pair.reserve0.toNat)
    (price1 : priced.price1CumulativeLast.toNat = pair.price1CumulativeLast.toNat + accrued pair timestamp pair.reserve0.toNat pair.reserve1.toNat)
    (fits0 : balance0.toNat < 2 ^ 112) (fits1 : balance1.toNat < 2 ^ 112) : ∃ after, (do
      let reserve0 ← Uint112.ofUint256 balance0
      let reserve1 ← Uint112.ofUint256 balance1
      pure { priced with reserve0, reserve1, blockTimestampLast := (timestamp / 1000000).toUInt32 } : Except Exception DEXV2Pair) = .ok after ∧
    Updated pair timestamp balance0 balance1 after := by
  obtain ⟨reserve0, converted0⟩ := Uint112.ofUint256_done fits0
  obtain ⟨reserve1, converted1⟩ := Uint112.ofUint256_done fits1
  refine ⟨_, bind_eq_ok.mpr ⟨reserve0, converted0, bind_eq_ok.mpr ⟨reserve1, converted1, rfl⟩⟩, ?_⟩
  exact ⟨Uint112.ofUint256_eq_ok.mp converted0, Uint112.ofUint256_eq_ok.mp converted1, rfl, price0, price1⟩

/-- An update goes through if the prices have room and the balances fit. -/
theorem update_done (room : Room pair timestamp) (fits0 : balance0.toNat < 2 ^ 112) (fits1 : balance1.toNat < 2 ^ 112) :
    ∃ after, pair.update timestamp balance0 balance1 = .ok after ∧ Updated pair timestamp balance0 balance1 after := by
  unfold update
  dsimp only
  by_cases traded : 0 < (timestamp / 1000000).toUInt32 - pair.blockTimestampLast ∧ pair.reserve0 ≠ 0 ∧ pair.reserve1 ≠ 0
  · obtain ⟨later, held0, held1⟩ := traded
    have counted (numerator denominator : ℕ) : accrued pair timestamp numerator denominator =
        price numerator denominator * ((timestamp / 1000000).toUInt32 - pair.blockTimestampLast).toNat := if_pos ⟨held0, held1⟩
    have sum0 : (BitVec.ofNat 256 (pair.price0CumulativeLast.toNat + accrued pair timestamp pair.reserve1.toNat pair.reserve0.toNat)).toNat =
        pair.price0CumulativeLast.toNat + accrued pair timestamp pair.reserve1.toNat pair.reserve0.toNat := by
      simp only [BitVec.toNat_ofNat, Nat.mod_eq_of_lt room.1]
    have sum1 : (BitVec.ofNat 256 (pair.price1CumulativeLast.toNat + accrued pair timestamp pair.reserve0.toNat pair.reserve1.toNat)).toNat =
        pair.price1CumulativeLast.toNat + accrued pair timestamp pair.reserve0.toNat pair.reserve1.toNat := by
      simp only [BitVec.toNat_ofNat, Nat.mod_eq_of_lt room.2]
    have first : accumulate pair.price0CumulativeLast pair.reserve1 pair.reserve0 ((timestamp / 1000000).toUInt32 - pair.blockTimestampLast) =
        .ok (BitVec.ofNat 256 (pair.price0CumulativeLast.toNat + accrued pair timestamp pair.reserve1.toNat pair.reserve0.toNat)) :=
      (accumulate_eq_ok held0).mpr (sum0.trans (by rw [counted]))
    have second : accumulate pair.price1CumulativeLast pair.reserve0 pair.reserve1 ((timestamp / 1000000).toUInt32 - pair.blockTimestampLast) =
        .ok (BitVec.ofNat 256 (pair.price1CumulativeLast.toNat + accrued pair timestamp pair.reserve0.toNat pair.reserve1.toNat)) :=
      (accumulate_eq_ok held1).mpr (sum1.trans (by rw [counted]))
    simp only [if_pos (And.intro later (And.intro held0 held1)), first, second]
    exact noted_updated _ sum0 sum1 fits0 fits1
  · have idle (numerator denominator : ℕ) : accrued pair timestamp numerator denominator = 0 := by
      unfold accrued
      split
      case isTrue held =>
        have still : (timestamp / 1000000).toUInt32 - pair.blockTimestampLast = 0 := by
          by_contra moved
          exact traded ⟨UInt32.pos_iff_ne_zero.mpr moved, held⟩
        rw [still]
        rfl
      case isFalse => rfl
    simp only [if_neg traded]
    refine noted_updated pair ?_ ?_ fits0 fits1
    · rw [idle, Nat.add_zero]
    · rw [idle, Nat.add_zero]

theorem update_room (done : pair.update timestamp balance0 balance1 = .ok after) :
    Room pair timestamp ∧ balance0.toNat < 2 ^ 112 ∧ balance1.toNat < 2 ^ 112 := by
  obtain ⟨noted, _⟩ := update_ok done
  have fits0 := noted.reserve0.symm.trans_lt after.reserve0.isLt
  have fits1 := noted.reserve1.symm.trans_lt after.reserve1.isLt
  refine ⟨?_, fits0, fits1⟩
  by_cases held : pair.reserve0 ≠ 0 ∧ pair.reserve1 ≠ 0
  · have counted (numerator denominator : ℕ) : accrued pair timestamp numerator denominator =
        price numerator denominator * ((timestamp / 1000000).toUInt32 - pair.blockTimestampLast).toNat := if_pos held
    unfold Room
    rw [counted, counted]
    by_cases later : 0 < (timestamp / 1000000).toUInt32 - pair.blockTimestampLast
    · simp only [update, if_pos (And.intro later held)] at done
      obtain ⟨price0, first, rest⟩ := bind_eq_ok.mp done
      obtain ⟨price1, second, _⟩ := bind_eq_ok.mp rest
      have first := (accumulate_eq_ok held.1).mp first
      have second := (accumulate_eq_ok held.2).mp second
      exact ⟨first.symm.trans_lt price0.isLt, second.symm.trans_lt price1.isLt⟩
    · have still : (timestamp / 1000000).toUInt32 - pair.blockTimestampLast = 0 := by
        by_contra moved
        exact later (UInt32.pos_iff_ne_zero.mpr moved)
      have zero : (0 : UInt32).toNat = 0 := rfl
      simp only [still, zero, Nat.mul_zero, Nat.add_zero]
      exact ⟨pair.price0CumulativeLast.isLt, pair.price1CumulativeLast.isLt⟩
  · have idle (numerator denominator : ℕ) : accrued pair timestamp numerator denominator = 0 := if_neg held
    simp only [Room, idle, Nat.add_zero]
    exact ⟨pair.price0CumulativeLast.isLt, pair.price1CumulativeLast.isLt⟩

theorem update_updated (done : pair.update timestamp balance0 balance1 = .ok after) : Updated pair timestamp balance0 balance1 after := by
  obtain ⟨room, fits0, fits1⟩ := update_room done
  obtain ⟨other, again, updated⟩ := update_done room fits0 fits1
  cases done.symm.trans again
  exact updated

/-- The arguments of an update, with the timestamp of its block in microseconds. -/
structure Update where
  timestamp : UInt64
  balance0 : Uint256
  balance1 : Uint256

def Update.second (update : Update) : ℕ := update.timestamp.toNat / 1000000

/-- What stands for the update before the first one. -/
def start : Update := ⟨0, 0, 0⟩

/-- An update that may come after some others, the latest of them first. -/
structure Admissible (history : List Update) (update : Update) : Prop where
  fits0 : update.balance0.toNat < 2 ^ 112
  fits1 : update.balance1.toNat < 2 ^ 112
  seconds : update.second < 2 ^ 32
  later : ∀ previous ∈ history.head?, previous.timestamp ≤ update.timestamp

/-- A pair without reserves or prices, as it is created. -/
structure New (pair : DEXV2Pair) : Prop where
  reserve0 : pair.reserve0 = 0
  reserve1 : pair.reserve1 = 0
  last : pair.blockTimestampLast = 0
  price0 : pair.price0CumulativeLast = 0
  price1 : pair.price1CumulativeLast = 0

/-- What the functions of a pair change besides its updates. -/
structure SamePrices (before after : DEXV2Pair) : Prop where
  reserve0 : after.reserve0 = before.reserve0
  reserve1 : after.reserve1 = before.reserve1
  last : after.blockTimestampLast = before.blockTimestampLast
  price0 : after.price0CumulativeLast = before.price0CumulativeLast
  price1 : after.price1CumulativeLast = before.price1CumulativeLast

/-- A pair after some updates, and whatever else it did between them. -/
inductive Run : List Update → DEXV2Pair → Prop where
  | new {pair : DEXV2Pair} (new : New pair) : Run [] pair
  | other {history : List Update} {pair after : DEXV2Pair} (run : Run history pair) (same : SamePrices pair after) : Run history after
  | update {history : List Update} {next : Update} {pair after : DEXV2Pair} (run : Run history pair) (admissible : Admissible history next)
      (done : pair.update next.timestamp next.balance0 next.balance1 = .ok after) : Run (next :: history) after

/-- The sum over updates of the rate at the reserves noted before, times the seconds since then. -/
def owed (rate : ℕ → ℕ → ℕ) : List Update → ℕ
  | [] => 0
  | update :: history =>
    let previous := history.headD start
    (if previous.balance0.toNat ≠ 0 ∧ previous.balance1.toNat ≠ 0 then
      rate previous.balance0.toNat previous.balance1.toNat * (update.second - previous.second)
    else 0) + owed rate history

/-- What a pair has noted of the updates. -/
structure Follows (history : List Update) (pair : DEXV2Pair) : Prop where
  reserve0 : pair.reserve0.toNat = (history.headD start).balance0.toNat
  reserve1 : pair.reserve1.toNat = (history.headD start).balance1.toNat
  last : pair.blockTimestampLast.toNat = (history.headD start).second
  price0 : pair.price0CumulativeLast.toNat = owed (fun reserve0 reserve1 => price reserve1 reserve0) history
  price1 : pair.price1CumulativeLast.toNat = owed price history
  bounded0 : pair.price0CumulativeLast.toNat ≤ 2 ^ 224 * (history.headD start).second
  bounded1 : pair.price1CumulativeLast.toNat ≤ 2 ^ 224 * (history.headD start).second

variable {history : List Update} {next : Update}

theorem new_follows (new : New pair) : Follows [] pair where
  reserve0 := by simp [new.reserve0, start]
  reserve1 := by simp [new.reserve1, start]
  last := congrArg UInt32.toNat new.last
  price0 := congrArg BitVec.toNat new.price0
  price1 := congrArg BitVec.toNat new.price1
  bounded0 := (congrArg BitVec.toNat new.price0).le
  bounded1 := (congrArg BitVec.toNat new.price1).le

private theorem created_new {creator : Address} (created : DEXV2Pair.create creator = .ok pair) : New pair := by
  obtain ⟨token, _, rfl⟩ := build_eq_ok.mp created
  exact ⟨rfl, rfl, rfl, rfl, rfl⟩

theorem same_follows (follows : Follows history pair) (same : SamePrices pair after) : Follows history after := by
  constructor
  · rw [same.reserve0, follows.reserve0]
  · rw [same.reserve1, follows.reserve1]
  · rw [same.last, follows.last]
  · rw [same.price0, follows.price0]
  · rw [same.price1, follows.price1]
  · rw [same.price0]
    exact follows.bounded0
  · rw [same.price1]
    exact follows.bounded1

/-- Times do not go back, and a microsecond less is not a second more. -/
theorem second_le (admissible : Admissible history next) : (history.headD start).second ≤ next.second := by
  cases history with
  | nil => exact Nat.zero_le _
  | cons previous rest =>
    have later := UInt64.le_iff_toNat_le.mp (admissible.later previous rfl)
    exact Nat.div_le_div_right later

theorem stamp_toNat (admissible : Admissible history next) : (next.timestamp / 1000000).toUInt32.toNat = next.second := by
  have seconds := admissible.seconds
  have million : (1000000 : UInt64).toNat = 1000000 := rfl
  have divided : (next.timestamp / 1000000).toNat = next.second := by
    rw [UInt64.toNat_div, million]
    rfl
  rw [UInt64.toNat_toUInt32, divided]
  exact Nat.mod_eq_of_lt seconds

theorem elapsed_toNat (follows : Follows history pair) (admissible : Admissible history next) :
    ((next.timestamp / 1000000).toUInt32 - pair.blockTimestampLast).toNat = next.second - (history.headD start).second := by
  have stamp := stamp_toNat admissible
  have before := second_le admissible
  have order : pair.blockTimestampLast ≤ (next.timestamp / 1000000).toUInt32 := by
    apply UInt32.le_iff_toNat_le.mpr
    rw [stamp, follows.last]
    exact before
  rw [UInt32.toNat_sub_of_le _ _ order, stamp, follows.last]

/-- What an update adds is what is owed for it, and at most the greatest price for each second. -/
theorem accrued_owed (follows : Follows history pair) (admissible : Admissible history next) (rate : ℕ → ℕ → ℕ)
    {numerator denominator : ℕ} (same : price numerator denominator = rate pair.reserve0.toNat pair.reserve1.toNat)
    (fits : numerator < 2 ^ 112) : accrued pair next.timestamp numerator denominator + owed rate history = owed rate (next :: history) ∧
      accrued pair next.timestamp numerator denominator ≤ 2 ^ 224 * (next.second - (history.headD start).second) := by
  have elapsed := elapsed_toNat follows admissible
  have held (reserve : Uint112) : reserve ≠ 0 ↔ reserve.toNat ≠ 0 :=
    not_congr ⟨congrArg BitVec.toNat, fun zero => BitVec.eq_of_toNat_eq zero⟩
  have counted : accrued pair next.timestamp numerator denominator =
      if (history.headD start).balance0.toNat ≠ 0 ∧ (history.headD start).balance1.toNat ≠ 0 then
        rate (history.headD start).balance0.toNat (history.headD start).balance1.toNat * (next.second - (history.headD start).second)
      else 0 := by
    unfold accrued
    rw [same, elapsed, ← follows.reserve0, ← follows.reserve1]
    simp only [held]
  have dear := price_le numerator denominator
  have bound : price numerator denominator ≤ 2 ^ 224 := by omega
  refine ⟨by rw [counted]; rfl, ?_⟩
  unfold accrued
  split
  · rw [elapsed]
    exact Nat.mul_le_mul_right _ bound
  · exact Nat.zero_le _

theorem follows_room (follows : Follows history pair) (admissible : Admissible history next) : Room pair next.timestamp := by
  obtain ⟨_, less0⟩ := accrued_owed follows admissible (fun reserve0 reserve1 => price reserve1 reserve0) rfl pair.reserve1.isLt
  obtain ⟨_, less1⟩ := accrued_owed follows admissible price rfl pair.reserve0.isLt
  have before := second_le admissible
  have seconds := admissible.seconds
  have bounded0 := follows.bounded0
  have bounded1 := follows.bounded1
  constructor <;> omega

theorem update_follows (follows : Follows history pair) (admissible : Admissible history next)
    (done : pair.update next.timestamp next.balance0 next.balance1 = .ok after) : Follows (next :: history) after := by
  have updated := update_updated done
  obtain ⟨sum0, less0⟩ := accrued_owed follows admissible (fun reserve0 reserve1 => price reserve1 reserve0) rfl pair.reserve1.isLt
  obtain ⟨sum1, less1⟩ := accrued_owed follows admissible price rfl pair.reserve0.isLt
  have before := second_le admissible
  have bounded0 := follows.bounded0
  have bounded1 := follows.bounded1
  constructor
  · exact updated.reserve0
  · exact updated.reserve1
  · rw [updated.last]
    exact stamp_toNat admissible
  · rw [updated.price0, follows.price0, Nat.add_comm]
    exact sum0
  · rw [updated.price1, follows.price1, Nat.add_comm]
    exact sum1
  · rw [updated.price0]
    have here : ((next :: history).headD start).second = next.second := rfl
    omega
  · rw [updated.price1]
    have here : ((next :: history).headD start).second = next.second := rfl
    omega

theorem run_follows (run : Run history pair) : Follows history pair := by
  induction run with
  | new new => exact new_follows new
  | other _ same ih => exact same_follows ih same
  | update _ admissible done ih => exact update_follows ih admissible done

/-- In every run of updates the cumulative prices are the sums of the prices over time, and the next update does not throw. -/
theorem accumulators_exact {history : List Update} {pair : DEXV2Pair} (run : Run history pair) :
    pair.price0CumulativeLast.toNat = owed (fun reserve0 reserve1 => reserve1 * 2 ^ 112 / reserve0) history ∧
      pair.price1CumulativeLast.toNat = owed (fun reserve0 reserve1 => reserve0 * 2 ^ 112 / reserve1) history ∧
      ∀ next, Admissible history next → ∃ after, pair.update next.timestamp next.balance0 next.balance1 = .ok after := by
  have follows := run_follows run
  refine ⟨follows.price0, follows.price1, fun next admissible => ?_⟩
  obtain ⟨after, done, _⟩ := update_done (follows_room follows admissible) admissible.fits0 admissible.fits1
  exact ⟨after, done⟩

/-- Reserves of 100 and 400 for two seconds. -/
theorem two_seconds_priced : ∃ pair, Run [⟨3999999, 200, 300⟩, ⟨1000000, 100, 400⟩] pair ∧ pair.price0CumulativeLast.toNat = 2 * (4 * 2 ^ 112) := by
  have created : ∃ pair, DEXV2Pair.create 9 = .ok pair := ⟨_, rfl⟩
  obtain ⟨pair, created⟩ := created
  have run := Run.new (created_new created)
  have first : Admissible [] ⟨1000000, 100, 400⟩ := ⟨by decide, by decide, by decide, by simp⟩
  obtain ⟨between, done⟩ := (accumulators_exact run).2.2 _ first
  have run := run.update first done
  have second : Admissible [⟨1000000, 100, 400⟩] ⟨3999999, 200, 300⟩ := ⟨by decide, by decide, by decide, by simp⟩
  obtain ⟨after, done⟩ := (accumulators_exact run).2.2 _ second
  have run := run.update second done
  exact ⟨after, run, (accumulators_exact run).1⟩

end OrbiterSDK.Proofs.PriceAccumulators
