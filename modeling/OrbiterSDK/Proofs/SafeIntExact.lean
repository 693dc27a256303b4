import OrbiterSDK.SafeIntArithmetic
import OrbiterSDK.Proofs.SafeUintExact

/-! When the operators of `SafeInt_t` are exact or throw. -/

namespace OrbiterSDK.Proofs.SafeIntExact
open Lib SafeInt_t SafeUintExact
variable {Size : Nat} {value other : Int}

/-- The widths whose expressions are not promoted, and may leave what the language defines. -/
def Word (Size : Nat) : Prop := Size = 32 ∨ Size = 64

theorem native_iff : Native Size ↔ Promoted Size ∨ Word Size := by
  unfold Native Promoted Word
  omega

theorem word_not_promoted (word : Word Size) : ¬ Promoted Size := by
  unfold Word at word
  unfold Promoted
  omega

/-- The limits are those of two's complement, or one apart from it on both sides. -/
theorem limits (Size : Nat) : 0 ≤ limits_max Size ∧
    (Native Size ∧ limits_min Size = -(limits_max Size) - 1 ∨ ¬ Native Size ∧ limits_min Size = -(limits_max Size)) := by
  have half : (0 : Int) < 2 ^ (Size - 1) := by positivity
  have full := limit_positive Size
  unfold limits_max limits_min
  by_cases native : Native Size
  · rw [if_pos native, if_pos native]
    exact ⟨by omega, .inl ⟨native, by omega⟩⟩
  · rw [if_neg native, if_neg native]
    exact ⟨by omega, .inr ⟨native, rfl⟩⟩

theorem promoted_limits (promoted : Promoted Size) : limits_max Size ≤ 2 ^ 15 - 1 ∧ -2 ^ 15 ≤ limits_min Size := by
  rcases promoted with rfl | rfl
  · decide
  · decide

theorem inRange_iff {exact : Int} : InRange Size exact ↔ limits_min Size ≤ exact ∧ exact ≤ limits_max Size := Iff.rfl

theorem expression_inRange {exact : Int} (inRange : InRange Size exact) : expression Size exact = .ok exact := by
  by_cases promoted : Promoted Size
  · have bounds := promoted_limits promoted
    have small : -2 ^ 31 ≤ exact ∧ exact < 2 ^ 31 := by
      obtain ⟨low, high⟩ := inRange
      omega
    rw [expression, if_pos promoted, intExpression, if_pos small]
  · rw [expression, if_neg promoted, if_pos inRange]

theorem store_inRange {exact : Int} (inRange : InRange Size exact) : store Size exact = .ok exact := by
  unfold store
  by_cases promoted : Promoted Size
  · rw [if_pos promoted]
    obtain ⟨low, high⟩ := inRange
    congr 1
    rcases promoted with rfl | rfl
    · have low : -128 ≤ exact := low
      have high : exact ≤ 127 := high
      simp only [Int.bmod]
      omega
    · have low : -32768 ≤ exact := low
      have high : exact ≤ 32767 := high
      simp only [Int.bmod]
      omega
  · rw [if_neg promoted]

theorem evaluate {exact : Int} (inRange : InRange Size exact) :
    (expression Size exact >>= store Size) = .ok exact := by
  rw [expression_inRange inRange, ok_bind, store_inRange inRange]

variable {allowed : Prop} {exact : Option Int} {next : Unit → Arithmetic} {bound : Int} {what : Exception}

theorem exact_refuseAbove {applies : Prop} [Decidable applies] {computed : Arithmetic}
    (computes : applies → computed = .ok bound) :
    Fault.Exact (InRange Size) allowed exact (refuseAbove applies computed value what >>= next) ↔
      (applies → bound < value → allowed ∨ ∀ result, exact = some result → ¬ InRange Size result) ∧
      (¬ (applies ∧ bound < value) → Fault.Exact (InRange Size) allowed exact (next ())) := by
  by_cases applied : applies
  · rw [refuseAbove, if_pos applied, computes applied, ok_bind, Fault.exact_refuse]
    simp [applied]
  · rw [refuseAbove, if_neg applied, ok_bind]
    simp [applied]

theorem exact_refuseBelow {applies : Prop} [Decidable applies] {computed : Arithmetic}
    (computes : applies → computed = .ok bound) :
    Fault.Exact (InRange Size) allowed exact (refuseBelow applies computed value what >>= next) ↔
      (applies → value < bound → allowed ∨ ∀ result, exact = some result → ¬ InRange Size result) ∧
      (¬ (applies ∧ value < bound) → Fault.Exact (InRange Size) allowed exact (next ())) := by
  by_cases applied : applies
  · rw [refuseBelow, if_pos applied, computes applied, ok_bind, Fault.exact_refuse]
    simp [applied]
  · rw [refuseBelow, if_neg applied, ok_bind]
    simp [applied]

theorem outside {result : Int} (notInRange : ¬ InRange Size result) :
    False ∨ ∀ other, some result = some other → ¬ InRange Size other := by
  refine .inr fun other same => ?_
  rwa [← Option.some.inj same]

section Sums
variable (inRange : InRange Size value) (otherInRange : InRange Size other)
include inRange otherInRange

theorem plus_exact (overflow underflow : Exception) :
    Fault.Exact (InRange Size) False (some (value + other)) (plus Size overflow underflow value other) := by
  obtain ⟨low, high⟩ := inRange
  obtain ⟨otherLow, otherHigh⟩ := otherInRange
  have bounds := limits Size
  have above : 0 < other → expression Size (limits_max Size - other) = .ok (limits_max Size - other) := by
    intro positive
    exact expression_inRange ⟨by omega, by omega⟩
  have below : other < 0 → expression Size (limits_min Size - other) = .ok (limits_min Size - other) := by
    intro negative
    exact expression_inRange ⟨by omega, by omega⟩
  rw [plus, exact_refuseAbove above, exact_refuseBelow below]
  refine ⟨fun _ full => outside ?_, fun notFull => ⟨fun _ empty => outside ?_, fun notEmpty => ?_⟩⟩
  · rw [inRange_iff]
    omega
  · rw [inRange_iff]
    omega
  · have fits : InRange Size (value + other) := by
      rw [inRange_iff]
      omega
    rw [evaluate fits]
    exact ⟨rfl, fits⟩

theorem minus_exact (overflow underflow : Exception) :
    Fault.Exact (InRange Size) False (some (value - other)) (minus Size overflow underflow value other) := by
  obtain ⟨low, high⟩ := inRange
  obtain ⟨otherLow, otherHigh⟩ := otherInRange
  have bounds := limits Size
  have above : other < 0 → expression Size (limits_max Size + other) = .ok (limits_max Size + other) := by
    intro negative
    exact expression_inRange ⟨by omega, by omega⟩
  have below : 0 < other → expression Size (limits_min Size + other) = .ok (limits_min Size + other) := by
    intro positive
    exact expression_inRange ⟨by omega, by omega⟩
  rw [minus, exact_refuseAbove above, exact_refuseBelow below]
  refine ⟨fun _ full => outside ?_, fun notFull => ⟨fun _ empty => outside ?_, fun notEmpty => ?_⟩⟩
  · rw [inRange_iff]
    omega
  · rw [inRange_iff]
    omega
  · have fits : InRange Size (value - other) := by
      rw [inRange_iff]
      omega
    rw [evaluate fits]
    exact ⟨rfl, fits⟩

end Sums

theorem increment_exact (inRange : InRange Size value) (what : Exception) :
    Fault.Exact (InRange Size) False (some (value + 1)) (increment Size what value) := by
  obtain ⟨low, high⟩ := inRange
  rw [increment, Fault.exact_refuse]
  refine ⟨fun last => outside ?_, fun free => ?_⟩
  · rw [inRange_iff]
    omega
  · have fits : InRange Size (value + 1) := by
      rw [inRange_iff]
      omega
    rw [evaluate fits]
    exact ⟨rfl, fits⟩

theorem decrement_exact (inRange : InRange Size value) (what : Exception) :
    Fault.Exact (InRange Size) False (some (value - 1)) (decrement Size what value) := by
  obtain ⟨low, high⟩ := inRange
  rw [decrement, Fault.exact_refuse]
  refine ⟨fun first => outside ?_, fun free => ?_⟩
  · rw [inRange_iff]
    omega
  · have fits : InRange Size (value - 1) := by
      rw [inRange_iff]
      omega
    rw [evaluate fits]
    exact ⟨rfl, fits⟩

private theorem quotient_bound_lt_iff (positive : 0 < other) : (limits_max Size).tdiv other < value ↔ limits_max Size < value * other := by
  rw [Int.tdiv_eq_ediv_of_nonneg (limits Size).1, Int.ediv_lt_iff_lt_mul positive]

theorem lt_quotient_bound_iff (positive : 0 < other) :
    value < (limits_min Size).tdiv other ↔ value * other < limits_min Size := by
  have bounds := limits Size
  have nonneg : 0 ≤ -limits_min Size := by omega
  have mirrored : (limits_min Size).tdiv other = -((-limits_min Size) / other) := by
    rw [← Int.tdiv_eq_ediv_of_nonneg nonneg, Int.neg_tdiv, neg_neg]
  have flipped := Int.ediv_lt_iff_lt_mul (a := -limits_min Size) (b := -value) positive
  rw [mirrored, lt_neg, flipped, neg_mul]
  omega

theorem tdiv_max_inRange (other : Int) : InRange Size ((limits_max Size).tdiv other) := by
  have bounds := limits Size
  have size := Int.natAbs_tdiv_le_natAbs (limits_max Size) other
  rw [inRange_iff]
  omega

theorem divide_ok (nonzero : other ≠ 0) {divided : Int} (fits : InRange Size (divided.tdiv other)) :
    divide Size divided other = .ok (divided.tdiv other) := by
  rw [divide, if_neg nonzero, expression_inRange fits]

/-- Only the least value divided by minus one leaves the type, where that has one value
more below zero than above it. -/
theorem tdiv_inRange (inRange : InRange Size value) (nonzero : other ≠ 0)
    (defined : ¬ (Native Size ∧ value = limits_min Size ∧ other = -1)) : InRange Size (value.tdiv other) := by
  obtain ⟨low, high⟩ := inRange
  have bounds := limits Size
  have size := Int.natAbs_tdiv_le_natAbs value other
  by_cases inner : -limits_max Size ≤ value
  · rw [inRange_iff]
    omega
  have least : Native Size ∧ value = limits_min Size := by
    rcases bounds.2 with ⟨native, _⟩ | ⟨_, symmetric⟩
    · exact ⟨native, by omega⟩
    · omega
  by_cases one : other = 1
  · rw [one, Int.tdiv_one]
    exact ⟨low, high⟩
  have large : 2 ≤ other.natAbs := by
    have : other ≠ -1 := fun minusOne => defined ⟨least.1, least.2, minusOne⟩
    omega
  have half : (value.tdiv other).natAbs ≤ value.natAbs / 2 := by
    rw [Int.natAbs_tdiv]
    exact Nat.div_le_div_left large (by decide)
  rw [inRange_iff]
  omega

theorem tmod_inRange (inRange : InRange Size value) : InRange Size (value.tmod other) := by
  obtain ⟨low, high⟩ := inRange
  have same := Int.natAbs_tmod value other
  have smaller := Nat.mod_le value.natAbs other.natAbs
  rw [inRange_iff]
  rcases le_total 0 value with nonneg | nonpos
  · have := Int.tmod_nonneg other nonneg
    have := limits Size
    omega
  · have := Int.tmod_nonneg other (Int.neg_nonneg_of_nonpos nonpos)
    rw [Int.neg_tmod] at this
    have := limits Size
    omega

theorem tdiv_min_inRange (nonzero : other ≠ 0) (defined : ¬ (Native Size ∧ other = -1)) :
    InRange Size ((limits_min Size).tdiv other) := by
  have bounds := limits Size
  have least : InRange Size (limits_min Size) := by
    rw [inRange_iff]
    omega
  exact tdiv_inRange least nonzero fun overflow => defined ⟨overflow.1, overflow.2.2⟩

theorem times_exact_of_positive (positive : 0 < other) (overflow underflow : Exception) :
    Fault.Exact (InRange Size) allowed (some (value * other)) (times Size overflow underflow value other) := by
  have above : True → divide Size (limits_max Size) other = .ok ((limits_max Size).tdiv other) :=
    fun _ => divide_ok positive.ne' (tdiv_max_inRange other)
  have below : True → divide Size (limits_min Size) other = .ok ((limits_min Size).tdiv other) :=
    fun _ => divide_ok positive.ne' (tdiv_min_inRange positive.ne' (by omega))
  rw [times, exact_refuseAbove above, exact_refuseBelow below, quotient_bound_lt_iff positive,
    lt_quotient_bound_iff positive]
  have outside : ¬ InRange Size (value * other) →
      allowed ∨ ∀ result, some (value * other) = some result → ¬ InRange Size result := by
    intro notInRange
    refine .inr fun other same => ?_
    rwa [← Option.some.inj same]
  refine ⟨fun _ full => outside ?_, fun notFull => ⟨fun _ empty => outside ?_, fun notEmpty => ?_⟩⟩
  · rw [inRange_iff]
    omega
  · rw [inRange_iff]
    omega
  · have fits : InRange Size (value * other) :=
      ⟨not_lt.mp fun empty => notEmpty ⟨trivial, empty⟩, not_lt.mp fun full => notFull ⟨trivial, full⟩⟩
    rw [evaluate fits]
    exact ⟨rfl, fits⟩

/-- By a negative number nothing is ever multiplied: the one bound or the other stops it,
and for minus one the lower bound itself may leave the type. -/
theorem times_exact_iff_of_negative (counts : ¬ allowed) (inRange : InRange Size value) (otherInRange : InRange Size other)
    (negative : other < 0) (overflow underflow : Exception) :
    Fault.Exact (InRange Size) allowed (some (value * other)) (times Size overflow underflow value other) ↔
      ¬ InRange Size (value * other) ∧ ¬ (Word Size ∧ other = -1) := by
  obtain ⟨low, high⟩ := inRange
  obtain ⟨otherLow, otherHigh⟩ := otherInRange
  have bounds := limits Size
  have stops : (allowed ∨ ∀ result, some (value * other) = some result → ¬ InRange Size result) ↔
      ¬ InRange Size (value * other) := by
    constructor
    · exact fun right => right.elim (fun impossible => absurd impossible counts) fun outside => outside _ rfl
    · intro notInRange
      refine .inr fun result same => ?_
      rwa [← Option.some.inj same]
  have above : True → divide Size (limits_max Size) other = .ok ((limits_max Size).tdiv other) :=
    fun _ => divide_ok negative.ne (tdiv_max_inRange other)
  rw [times, exact_refuseAbove above]
  by_cases full : (limits_max Size).tdiv other < value
  · have minusOne : other = -1 → InRange Size (value * other) := by
      intro one
      rw [one, Int.tdiv_neg, Int.tdiv_one] at full
      rw [one, inRange_iff]
      omega
    constructor
    · intro right
      have notInRange := stops.mp (right.1 trivial full)
      exact ⟨notInRange, fun undefined => notInRange (minusOne undefined.2)⟩
    · rintro ⟨notInRange, _⟩
      exact ⟨fun _ _ => stops.mpr notInRange, fun free => absurd ⟨trivial, full⟩ free⟩
  have nonpos : value ≤ 0 := by
    have : (limits_max Size).tdiv other ≤ 0 := by
      have mirrored : (limits_max Size).tdiv other = -((limits_max Size).tdiv (-other)) := by
        rw [Int.tdiv_neg, neg_neg]
      have := Int.tdiv_nonneg bounds.1 (by omega : 0 ≤ -other)
      omega
    omega
  have skipped : (True → (limits_max Size).tdiv other < value →
      allowed ∨ ∀ result, some (value * other) = some result → ¬ InRange Size result) := fun _ stopped => absurd stopped full
  rw [and_iff_right skipped, forall_prop_of_true (fun stopped => full stopped.2)]
  by_cases undefined : Word Size ∧ other = -1
  · have native : Native Size := native_iff.mpr (.inr undefined.1)
    have least : ¬ InRange Size ((limits_min Size).tdiv other) := by
      rcases bounds.2 with ⟨_, twos⟩ | ⟨library, _⟩
      · rw [undefined.2, Int.tdiv_neg, Int.tdiv_one, inRange_iff]
        omega
      · exact absurd native library
    have stuck : refuseBelow True (divide Size (limits_min Size) other) value underflow = .error .undefined := by
      rw [refuseBelow, if_pos trivial, divide, if_neg negative.ne, expression, if_neg (word_not_promoted undefined.1),
        if_neg least, if_pos native]
      rfl
    rw [stuck, error_bind]
    exact iff_of_false Fault.exact_undefined fun right => right.2 undefined
  have mirrored : (limits_min Size).tdiv other = (-limits_min Size) / (-other) := by
    rw [← Int.tdiv_eq_ediv_of_nonneg (by omega), Int.neg_tdiv, Int.tdiv_neg, neg_neg]
  have atLeastOne : 1 ≤ (limits_min Size).tdiv other := by
    rw [mirrored, Int.le_ediv_iff_mul_le (by omega)]
    omega
  have below : True → divide Size (limits_min Size) other = .ok ((limits_min Size).tdiv other) := by
    intro _
    by_cases promoted : Promoted Size ∧ other = -1
    · have small := promoted_limits promoted.1
      have int : -2 ^ 31 ≤ (limits_min Size).tdiv other ∧ (limits_min Size).tdiv other < 2 ^ 31 := by
        rw [promoted.2, Int.tdiv_neg, Int.tdiv_one]
        omega
      rw [divide, if_neg negative.ne, expression, if_pos promoted.1, intExpression, if_pos int]
    · refine divide_ok negative.ne (tdiv_min_inRange negative.ne ?_)
      rintro ⟨native, one⟩
      rcases native_iff.mp native with isPromoted | word
      · exact promoted ⟨isPromoted, one⟩
      · exact undefined ⟨word, one⟩
  have stopped : value < (limits_min Size).tdiv other := by omega
  rw [exact_refuseBelow below, forall_prop_of_true trivial, forall_prop_of_true stopped, stops]
  exact ⟨fun right => ⟨right.1, undefined⟩, fun right => ⟨right.1, fun free => absurd ⟨trivial, stopped⟩ free⟩⟩

theorem times_by_zero (overflow underflow : Exception) :
    ¬ Fault.Exact (InRange Size) False (some (value * 0)) (times Size overflow underflow value 0) := by
  have zero : InRange Size (value * 0) := by
    have bounds := limits Size
    rw [mul_zero, inRange_iff]
    omega
  have stuck : times Size overflow underflow value 0 =
      .error (if Native Size then .undefined else .exception divisionByZero) := by
    rw [times, refuseAbove, if_pos trivial, divide, if_pos rfl]
    rfl
  rw [stuck]
  split
  · exact Fault.exact_undefined
  · rintro (impossible | outside)
    · exact impossible
    · exact outside _ rfl zero

theorem dividedBy_exact_iff (inRange : InRange Size value) (zero overflow : Exception) :
    Fault.Exact (InRange Size) False (quotient value other) (dividedBy Size zero overflow value other) ↔
      Native Size ∨ ¬ (value = limits_min Size ∧ other = -1) := by
  have bounds := limits Size
  rw [dividedBy, Fault.exact_refuse]
  by_cases divisor : other = 0
  · have apart : ¬ (value = limits_min Size ∧ other = -1) := by omega
    simp [divisor, quotient]
  rw [forall_prop_of_true divisor, and_iff_right fun stopped => absurd stopped divisor, Fault.exact_refuse, quotient,
    if_neg divisor]
  by_cases least : value = limits_min Size ∧ other = -1
  · have negated : value.tdiv other = -limits_min Size := by rw [least.1, least.2, Int.tdiv_neg, Int.tdiv_one]
    rw [forall_prop_of_true least, and_iff_left fun free => absurd least free, negated]
    constructor
    · intro right
      rcases bounds.2 with ⟨native, _⟩ | ⟨library, symmetric⟩
      · exact .inl native
      · refine absurd ⟨?_, ?_⟩ (right.resolve_left id _ rfl)
        · omega
        · omega
    · intro right
      have native := right.resolve_right fun free => free least
      apply outside
      rcases bounds.2 with ⟨_, twos⟩ | ⟨library, _⟩
      · rw [inRange_iff]
        omega
      · exact absurd native library
  · have fits := tdiv_inRange inRange divisor fun stopped => least stopped.2
    rw [divide_ok divisor fits, ok_bind, store_inRange fits]
    exact iff_of_true ⟨fun stopped => absurd stopped least, fun _ => ⟨rfl, fits⟩⟩ (.inr least)

theorem remainderBy_exact_iff (inRange : InRange Size value) (zero : Exception) :
    Fault.Exact (InRange Size) False (remainder value other) (remainderBy Size zero value other) ↔
      ¬ (Word Size ∧ value = limits_min Size ∧ other = -1) := by
  have bounds := limits Size
  rw [remainderBy, Fault.exact_refuse]
  by_cases divisor : other = 0
  · simp [divisor, remainder]
  rw [forall_prop_of_true divisor, and_iff_right fun stopped => absurd stopped divisor, remainder, if_neg divisor]
  have fits : InRange Size (value.tmod other) := tmod_inRange inRange
  by_cases undefined : Word Size ∧ value = limits_min Size ∧ other = -1
  · have native : Native Size := native_iff.mpr (.inr undefined.1)
    have least : ¬ InRange Size (value.tdiv other) := by
      rcases bounds.2 with ⟨_, twos⟩ | ⟨library, _⟩
      · rw [undefined.2.1, undefined.2.2, Int.tdiv_neg, Int.tdiv_one, inRange_iff]
        omega
      · exact absurd native library
    rw [modulo, if_neg divisor, if_pos native, expression, if_neg (word_not_promoted undefined.1), if_neg least,
      if_pos native]
    exact iff_of_false (fun right => right) fun free => free undefined
  · have evaluated : modulo Size value other = .ok (value.tmod other) := by
      rw [modulo, if_neg divisor]
      by_cases native : Native Size
      · rw [if_pos native]
        obtain ⟨result, defined⟩ : ∃ result, expression Size (value.tdiv other) = .ok result := by
          by_cases promoted : Promoted Size
          · have small := promoted_limits promoted
            have size := Int.natAbs_tdiv_le_natAbs value other
            obtain ⟨low, high⟩ := inRange
            have int : -2 ^ 31 ≤ value.tdiv other ∧ value.tdiv other < 2 ^ 31 := by omega
            exact ⟨_, by rw [expression, if_pos promoted, intExpression, if_pos int]⟩
          · have word := (native_iff.mp native).resolve_left promoted
            exact ⟨_, expression_inRange (tdiv_inRange inRange divisor fun stopped => undefined ⟨word, stopped.2⟩)⟩
        rw [defined]
        rfl
      · rw [if_neg native]
    rw [evaluated, ok_bind, store_inRange fits]
    exact iff_of_true ⟨rfl, fits⟩ undefined

theorem mul_exact_iff (inRange : InRange Size value) (otherInRange : InRange Size other) :
    Fault.Exact (InRange Size) (value = 0 ∨ other = 0) (some (value * other)) (mul Size value other) ↔
      value = 0 ∨ 0 ≤ other ∨ ¬ InRange Size (value * other) ∧ ¬ (Word Size ∧ other = -1) := by
  rw [mul, Fault.exact_refuse]
  by_cases zero : value = 0 ∨ other = 0
  · exact iff_of_true ⟨fun _ => .inl zero, fun free => absurd zero free⟩ (by omega)
  rw [and_iff_right fun stopped => absurd stopped zero, forall_prop_of_true zero]
  rcases lt_or_gt_of_ne (fun none => zero (.inr none) : other ≠ 0) with negative | positive
  · rw [times_exact_iff_of_negative zero inRange otherInRange negative]
    have nonzero : ¬ value = 0 := fun none => zero (.inl none)
    simp [nonzero, negative.not_ge]
  · exact iff_of_true (times_exact_of_positive positive _ _) (.inr (.inl positive.le))

theorem mulAssign_exact_iff (inRange : InRange Size value) (otherInRange : InRange Size other) :
    Fault.Exact (InRange Size) False (some (value * other)) (mulAssign Size value other) ↔
      0 < other ∨ other < 0 ∧ ¬ InRange Size (value * other) ∧ ¬ (Word Size ∧ other = -1) := by
  rcases lt_trichotomy other 0 with negative | zero | positive
  · rw [mulAssign, times_exact_iff_of_negative not_false inRange otherInRange negative]
    simp [negative, negative.not_gt]
  · rw [zero]
    exact iff_of_false (times_by_zero _ _) (by simp)
  · exact iff_of_true (times_exact_of_positive positive _ _) (.inl positive)

/-- The result over the integers. -/
def expected (value : Int) : Call Size → Option Int
  | .int operator _ other => integer operator value other.val
  | .increment _ => some (value + 1)
  | .decrement _ => some (value - 1)

/-- A multiplication by zero is the one operation that is said to throw anyway. -/
def Documented (value : Int) : Call Size → Prop
  | .int .mul false other => value = 0 ∨ other.val = 0
  | _ => False

/-- Multiplication is by a positive number or too large, division of the least value not
by minus one. -/
def Sound (value : Int) : Call Size → Prop
  | .int .mul false other =>
      value = 0 ∨ 0 ≤ other.val ∨ ¬ InRange Size (value * other.val) ∧ ¬ (Word Size ∧ other.val = -1)
  | .int .mul true other =>
      0 < other.val ∨ other.val < 0 ∧ ¬ InRange Size (value * other.val) ∧ ¬ (Word Size ∧ other.val = -1)
  | .int .div _ other => Native Size ∨ ¬ (value = limits_min Size ∧ other.val = -1)
  | .int .mod _ other => ¬ (Word Size ∧ value = limits_min Size ∧ other.val = -1)
  | _ => True

/-- An operator gives the exact result or throws, for every width and all its values,
exactly if the call is sound. -/
theorem signed_exact_or_throws_iff (Size : Nat) (value : Value Size) (call : Call Size) :
    Fault.Exact (InRange Size) (Documented value.val call) (expected value.val call) (call.run value.val) ↔
      Sound value.val call := by
  have inRange := value.property
  cases call with
  | int operator assigns other =>
    have otherInRange := other.property
    cases operator with
    | add =>
      cases assigns with
      | false => exact iff_of_true (plus_exact inRange otherInRange _ _) trivial
      | true => exact iff_of_true (plus_exact inRange otherInRange _ _) trivial
    | sub =>
      cases assigns with
      | false => exact iff_of_true (minus_exact inRange otherInRange _ _) trivial
      | true => exact iff_of_true (minus_exact inRange otherInRange _ _) trivial
    | mul =>
      cases assigns with
      | false => exact mul_exact_iff inRange otherInRange
      | true => exact mulAssign_exact_iff inRange otherInRange
    | div =>
      cases assigns with
      | false => exact dividedBy_exact_iff inRange _ _
      | true => exact dividedBy_exact_iff inRange _ _
    | mod =>
      cases assigns with
      | false => exact remainderBy_exact_iff inRange _
      | true => exact remainderBy_exact_iff inRange _
  | increment before =>
    cases before with
    | true => exact iff_of_true (increment_exact inRange _) trivial
    | false =>
      refine iff_of_true ?_ trivial
      rw [Call.run, postIncrement, map_snd]
      exact increment_exact inRange _
  | decrement before =>
    cases before with
    | true => exact iff_of_true (decrement_exact inRange _) trivial
    | false =>
      refine iff_of_true ?_ trivial
      rw [Call.run, postDecrement, map_snd]
      exact decrement_exact inRange _

/-- Five times minus one does not overflow eight bits, and is refused. -/
theorem minus_one_is_refused : ¬ ∀ (Size : Nat) (value : Value Size) (call : Call Size),
    8 ≤ Size ∧ Size ≤ 256 ∧ Size % 8 = 0 →
    Fault.Exact (InRange Size) (Documented value.val call) (expected value.val call) (call.run value.val) := by
  intro exact
  let five : Value 8 := ⟨5, by decide⟩
  let minusOne : Value 8 := ⟨-1, by decide⟩
  have outcome : Call.run five.val (.int .mul false minusOne) =
      .error (.exception "Overflow in multiplication operation.") := rfl
  have wrong := exact 8 five (.int .mul false minusOne) (by decide)
  rw [outcome] at wrong
  rcases wrong with zero | outside
  · have zero : (5 : Int) = 0 ∨ (-1 : Int) = 0 := zero
    omega
  · exact outside (-5) rfl (by decide)

end OrbiterSDK.Proofs.SafeIntExact
