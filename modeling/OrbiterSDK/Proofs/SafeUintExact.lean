import OrbiterSDK.Lib.Reader
import OrbiterSDK.SafeUintArithmetic

/-! When the operators of `SafeUint_t` are exact or throw. -/

namespace OrbiterSDK.Proofs.SafeUintExact
open Lib SafeUint_t
variable {Size : Nat} {value other exact : Int} {allowed : Prop}

theorem native_cases (Size : Nat) :
    Promoted Size ∨ (Size = 32 ∨ Size = 64) ∨ ¬ Native Size := by
  unfold Promoted Native
  omega

theorem native_small (native : Native Size) : (2 : Int) ^ Size ≤ 2 ^ 64 := by
  rcases native with rfl | rfl | rfl | rfl <;> norm_num

theorem limit_positive (Size : Nat) : (0 : Int) < 2 ^ Size := by positivity

theorem expression_inRange (inRange : InRange Size exact) : expression Size exact = .ok exact := by
  have word := Int.emod_eq_of_lt inRange.1 inRange.2
  unfold expression
  split
  case isTrue promoted =>
    have small : -2 ^ 31 ≤ exact ∧ exact < 2 ^ 31 := by
      obtain ⟨low, high⟩ := inRange
      rcases promoted with rfl | rfl
      · omega
      · omega
    rw [intExpression, if_pos small]
  case isFalse => split <;> simp [word]

theorem store_inRange (inRange : InRange Size exact) : store Size exact = .ok exact := by
  rw [store, Int.emod_eq_of_lt inRange.1 inRange.2]

/-- What does not fit may be refused. -/
theorem too_large (large : 2 ^ Size ≤ exact) :
    allowed ∨ ∀ result, some exact = some result → ¬ InRange Size result :=
  .inr fun _ same fits => not_le_of_gt (Option.some.inj same ▸ fits.2) large

theorem too_small (negative : exact < 0) :
    allowed ∨ ∀ result, some exact = some result → ¬ InRange Size result :=
  .inr fun _ same fits => not_le_of_gt negative (Option.some.inj same ▸ fits.1)

theorem expression_exact (fits : InRange Size exact) :
    Fault.Exact (InRange Size) allowed (some exact) (expression Size exact >>= store Size) := by
  rw [expression_inRange fits, ok_bind, store_inRange fits]
  exact ⟨rfl, fits⟩

theorem divide_ok (nonzero : other ≠ 0) : divide Size value other = .ok (value.tdiv other) := by
  rw [divide, if_neg nonzero]

theorem modulo_ok (nonzero : other ≠ 0) : modulo Size value other = .ok (value.tmod other) := by
  rw [modulo, if_neg nonzero]

theorem divide_zero (native : Native Size) : divide Size value 0 = .error .undefined := by
  rw [divide, if_pos rfl, if_pos native]

theorem modulo_zero (native : Native Size) : modulo Size value 0 = .error .undefined := by
  rw [modulo, if_pos rfl, if_pos native]

theorem error_bind {α β : Type} (fault : Fault Exception) (next : α → Except (Fault Exception) β) :
    (.error fault >>= next) = .error fault := rfl

theorem bound_lt_iff (positive : 0 < other) : (limits_max Size).tdiv other < value ↔ 2 ^ Size ≤ value * other := by
  have limit := limit_positive Size
  have nonneg : 0 ≤ limits_max Size := by
    unfold limits_max
    omega
  rw [Int.tdiv_eq_ediv_of_nonneg nonneg, Int.ediv_lt_iff_lt_mul positive]
  unfold limits_max
  omega

/-- The values of an `int`. -/
def Small (other : Int) : Prop := -2 ^ 31 ≤ other ∧ other < 2 ^ 31

theorem native_emod (native : Native Size) (nonneg : 0 ≤ other) (small : Small other) (wide : ¬ other < 2 ^ Size) :
    Promoted Size := by
  have := small.2
  rcases native with rfl | rfl | rfl | rfl
  · exact .inl rfl
  · exact .inr rfl
  · omega
  · omega

/-- In a type of the language whatever is left of an expression that is an `int` is stored. -/
theorem expression_stored (native : Native Size) (small : Small exact) :
    ∃ result, (expression Size exact >>= store Size) = .ok result ∧ 0 ≤ result := by
  have nonneg := fun exact : Int => Int.emod_nonneg exact (limit_positive Size).ne'
  by_cases promoted : Promoted Size
  · have bounds : -2 ^ 31 ≤ exact ∧ exact < 2 ^ 31 := small
    rw [expression, if_pos promoted, intExpression, if_pos bounds]
    exact ⟨_, rfl, nonneg _⟩
  · rw [expression, if_neg promoted, if_pos native]
    exact ⟨_, rfl, nonneg _⟩

theorem static_cast_native (native : Native Size) : static_cast Size other = .ok (other % 2 ^ Size) := if_pos native

theorem static_cast_inRange (inRange : InRange Size other) : static_cast Size other = .ok other := by
  by_cases native : Native Size
  · rw [static_cast_native native, Int.emod_eq_of_lt inRange.1 inRange.2]
  · rw [static_cast, if_neg native, if_pos inRange]

theorem static_cast_library (library : ¬ Native Size) (outside : ¬ InRange Size other) :
    static_cast Size other = .error (.exception Uint256.outOfRange) := by
  rw [static_cast, if_neg library, if_neg outside]

/-- The operand can be used in an expression with an integer of the width. -/
def Taken (converts : Nat → Bool) (Size : Nat) (other : Int) : Prop :=
  Native Size ∨ converts Size = false ∨ InRange Size other

variable {converts : Nat → Bool}

theorem operand_eq (converts : Nat → Bool) (Size : Nat) (other : Int) [Decidable (Taken converts Size other)] :
    operand converts Size other = Fault.refuse (¬ Taken converts Size other) Uint256.outOfRange := by
  unfold operand Fault.refuse
  have same : (¬ Native Size ∧ converts Size = true ∧ ¬ InRange Size other) ↔ ¬ Taken converts Size other := by
    unfold Taken
    cases converts Size <;> simp
  simp only [same]

instance (converts : Nat → Bool) (Size : Nat) (other : Int) : Decidable (Taken converts Size other) :=
  inferInstanceAs (Decidable (_ ∨ _ ∨ _))

private theorem operand_native (native : Native Size) : operand converts Size other = .ok () := by
  rw [operand, Fault.refuse, if_neg (by simp [native])]

theorem mixed_native (native : Native Size) (exact : Int) :
    mixed converts Size other exact = expression Size exact := by
  rw [mixed, operand_native native, ok_bind]

theorem mixed_refused (unfit : ¬ Taken converts Size other) (exact : Int) :
    mixed converts Size other exact = .error (.exception Uint256.outOfRange) := by
  rw [mixed, operand_eq, Fault.refuse, if_pos unfit]
  rfl

theorem mixed_taken (taken : Taken converts Size other) (inRange : InRange Size exact) :
    mixed converts Size other exact = .ok exact := by
  rw [mixed, operand_eq, Fault.refuse, if_neg (not_not.mpr taken), ok_bind, expression_inRange inRange]

theorem mixed_exact (taken : Taken converts Size other) (inRange : InRange Size exact) :
    Fault.Exact (InRange Size) allowed (some exact) (mixed converts Size other exact >>= store Size) := by
  rw [mixed_taken taken inRange, ok_bind, store_inRange inRange]
  exact ⟨rfl, inRange⟩

/-- Beyond the width a library operand is either refused or makes the result too large. -/
theorem mixed_library (library : ¬ Native Size) {next : Int → Arithmetic}
    {result : Option Int}
    (unfit : ¬ Taken converts Size other → allowed ∨ ∀ value, result = some value → ¬ InRange Size value)
    (outside : ¬ InRange Size exact → allowed ∨ ∀ value, result = some value → ¬ InRange Size value)
    (inside : Taken converts Size other → InRange Size exact →
      Fault.Exact (InRange Size) allowed result (next exact)) :
    Fault.Exact (InRange Size) allowed result (mixed converts Size other exact >>= next) := by
  have notPromoted : ¬ Promoted Size := by
    unfold Native at library
    unfold Promoted
    omega
  rw [mixed, operand_eq, bind_assoc, Fault.exact_refuse]
  refine ⟨unfit, fun taken => ?_⟩
  rw [expression, if_neg notPromoted, if_neg library]
  split
  case isTrue fits => exact inside (not_not.mp taken) fits
  case isFalse wide => exact outside wide

theorem wide_native (native : Native Size) (exact : Int) : wide converts Size other exact = .ok (exact % 2 ^ 64) :=
  if_pos native

theorem wide_library (library : ¬ Native Size) (exact : Int) :
    wide converts Size other exact = mixed converts Size other exact := if_neg library

/-- The quotient and the remainder, rounded to zero. -/
def quotient (value other : Int) : Option Int := if other = 0 then none else some (value.tdiv other)

def remainder (value other : Int) : Option Int := if other = 0 then none else some (value.tmod other)

theorem remainder_none (zero : other = 0) : remainder value other = none := if_pos zero

theorem quotient_none (zero : other = 0) : quotient value other = none := if_pos zero

/-- An operation that is right whatever the divisor, once it is reached. -/
theorem exact_guarded (condition : Prop) {exact : Option Int} {zero : Exception} {next : Unit → Arithmetic}
    (undefined : other = 0 → exact = none)
    (defined : other ≠ 0 → ∃ result, exact = some result ∧ InRange Size result)
    (reached : value ≠ 0 → other ≠ 0 → (Fault.Exact (InRange Size) False exact (next ()) ↔ condition)) :
    Fault.Exact (InRange Size) False exact (Fault.refuse (value = 0 ∨ other = 0) zero >>= next) ↔
      other = 0 ∨ value ≠ 0 ∧ condition := by
  rw [Fault.exact_refuse]
  by_cases divisor : other = 0
  · simp [divisor, undefined divisor]
  · obtain ⟨result, known, fits⟩ := defined divisor
    by_cases empty : value = 0
    · simp [divisor, empty, known, fits]
    · have := reached empty divisor
      simp [divisor, empty, this]

/-- The operand, reduced to the width where that is a type of the language, gives the
same result; elsewhere it is of the width. -/
def Narrows (function : Int → Int → Int) (Size : Nat) (value other : Int) : Prop :=
  if Native Size then other % 2 ^ Size ≠ 0 ∧ function value (other % 2 ^ Size) = function value other
  else InRange Size other

/-- An operation divides as the function does, which tells the divisors above the value from the others. -/
structure Divides (Size : Nat) (value : Int) (operation : Int → Int → Arithmetic) (function : Int → Int → Int) : Prop where
  evaluates : ∀ divisor, divisor ≠ 0 → operation value divisor = .ok (function value divisor)
  fits : ∀ divisor, 0 ≤ divisor → InRange Size (function value divisor)
  stuck : Native Size → operation value 0 = .error .undefined
  large : ∀ divisor other, 0 < divisor → value < other → (function value divisor = function value other ↔ value < divisor)

variable {function : Int → Int → Int} {operation : Int → Int → Arithmetic}

theorem narrowed_exact_iff (divides : Divides Size value operation function) (counts : ¬ allowed)
    (fits : InRange Size (function value other)) (nonzero : other ≠ 0) :
    Fault.Exact (InRange Size) allowed (some (function value other)) (narrowed Size operation value other) ↔
      Narrows function Size value other := by
  unfold narrowed Narrows
  by_cases native : Native Size
  · rw [static_cast_native native, ok_bind, if_pos native]
    have nonneg := Int.emod_nonneg other (limit_positive Size).ne'
    by_cases divisor : other % 2 ^ Size = 0
    · rw [divisor, divides.stuck native, error_bind]
      simp
    · rw [divides.evaluates _ divisor, ok_bind, store_inRange (divides.fits _ nonneg), Fault.exact_ok, Option.some.injEq]
      exact ⟨fun same => ⟨divisor, same.1.symm⟩, fun same => ⟨same.2.symm, divides.fits _ nonneg⟩⟩
  · rw [if_neg native]
    by_cases inside : InRange Size other
    · rw [static_cast_inRange inside, ok_bind, divides.evaluates _ nonzero, ok_bind, store_inRange fits]
      exact iff_of_true ⟨rfl, fits⟩ inside
    · rw [static_cast_library native inside, error_bind, Fault.exact_exception]
      exact iff_of_false (fun right => right.elim counts fun outside => outside _ rfl fits) inside

/-- Where the operand is beyond a type of the language, it is above the value when reduced to it. -/
def ReducedAbove (Size : Nat) (value other : Int) : Prop := Native Size → other < 2 ^ Size ∨ value < other % 2 ^ Size

/-- A positive divisor that the width holds or that is, as far as a type of the language has reduced it, above the value. -/
def Divisor (Size : Nat) (value other : Int) : Prop := ReducedAbove Size value other ∧ (Native Size ∨ InRange Size other)

/-- Two divisors leave the same remainder: both are above the value, or neither is and one divides the other. -/
def Interchangeable (value first second : Int) : Prop :=
  value < first ∧ value < second ∨ (first ≤ value ∧ second ≤ value) ∧ (first ∣ second ∨ second ∣ first)

/-- The remainder by an operand is the same when it is reduced to the width; a negative one becomes what is missing from
its size to a multiple of the limit. -/
def Remains (Size : Nat) (value other : Int) : Prop :=
  if 0 < other then Divisor Size value other
  else Native Size ∧ other % 2 ^ Size ≠ 0 ∧ Interchangeable value (other % 2 ^ Size) (-other)

theorem emod_eq_iff {first second : Int} (nonneg : 0 ≤ value) (left : 0 < first) (right : 0 < second) (near : value < first + second) :
    value % first = value % second ↔ Interchangeable value first second := by
  unfold Interchangeable
  wlog ordered : first ≤ second
  · rw [eq_comm, this nonneg right left (by omega) (by omega), and_comm, @and_comm (second ≤ value), @or_comm (second ∣ first)]
  have low {divisor : Int} (below : value < divisor) : value % divisor = value := Int.emod_eq_of_lt nonneg below
  have := Int.emod_lt_of_pos value left
  by_cases below : value < first
  · rw [low below, low (below.trans_le ordered)]
    exact iff_of_true rfl (.inl ⟨below, below.trans_le ordered⟩)
  by_cases belowToo : value < second
  · rw [low belowToo]
    exact iff_of_false (by omega) (by omega)
  -- The greater one goes into the value once, and what is left is below the smaller one.
  have rest : value % second = value - second := by
    rw [Int.emod_eq_sub_self_emod]
    exact Int.emod_eq_of_lt (by omega) (by omega)
  rw [rest, or_iff_right fun both => below both.1, and_iff_right ⟨not_lt.mp below, not_lt.mp belowToo⟩]
  constructor
  · intro same
    have divides := @Int.dvd_self_sub_emod value first
    rw [same, sub_sub_cancel] at divides
    exact .inl divides
  · intro either
    have divides : first ∣ second := either.elim id fun divides => ordered.antisymm (Int.le_of_dvd left divides) ▸ dvd_rfl
    obtain ⟨quotient, rfl⟩ := divides
    rw [← Int.sub_mul_emod_self_left value first quotient]
    exact Int.emod_eq_of_lt (by omega) (by omega)

section InRange
variable (inRange : InRange Size value)
include inRange

theorem tmod_inRange : InRange Size (value.tmod other) := by
  have low := Int.tmod_nonneg other inRange.1
  have same := Int.natAbs_tmod value other
  have bound := Nat.mod_le value.natAbs other.natAbs
  have := inRange.1
  have := inRange.2
  unfold InRange
  omega

theorem tdiv_inRange (nonneg : 0 ≤ other) : InRange Size (value.tdiv other) := by
  have bound := Int.tdiv_le_self other inRange.1
  have := Int.tdiv_nonneg inRange.1 nonneg
  have := inRange.2
  unfold InRange
  omega

theorem remainder_defined (nonzero : other ≠ 0) :
    ∃ result, remainder value other = some result ∧ InRange Size result :=
  ⟨_, if_neg nonzero, tmod_inRange inRange⟩

theorem quotient_defined (nonneg : 0 ≤ other) (nonzero : other ≠ 0) :
    ∃ result, quotient value other = some result ∧ InRange Size result :=
  ⟨_, if_neg nonzero, tdiv_inRange inRange nonneg⟩

theorem reduced_guard_exact_iff (condition : Prop) {what : Exception}
    {next : Int → Arithmetic} (positive : 0 < other) (exactIs : exact = value - other)
    (rest : InRange Size other → ¬ value < other →
      (Fault.Exact (InRange Size) allowed (some exact) (next other) ↔ condition))
    (stored : Native Size → ¬ other < 2 ^ Size → ¬ value < other % 2 ^ Size →
      ∃ result, next (other % 2 ^ Size) = .ok result ∧ 0 ≤ result) :
    Fault.Exact (InRange Size) allowed (some exact) (do
      let least ← static_cast Size other
      Fault.refuse (value < least) what
      next least) ↔ ReducedAbove Size value other ∧ (condition ∨ value < other) := by
  obtain ⟨low, high⟩ := inRange
  have tooSmall : value < other → allowed ∨ ∀ rest, some exact = some rest → ¬ InRange Size rest := by
    intro small
    exact too_small (by omega)
  by_cases otherFits : other < 2 ^ Size
  · have inside : InRange Size other := ⟨positive.le, otherFits⟩
    have above : ReducedAbove Size value other := fun _ => .inl otherFits
    rw [static_cast_inRange inside, ok_bind, Fault.exact_refuse]
    by_cases small : value < other
    · exact iff_of_true ⟨tooSmall, fun free => absurd small free⟩ ⟨above, .inr small⟩
    · rw [rest inside small]
      exact ⟨fun right => ⟨above, .inl (right.2 small)⟩,
        fun right => ⟨fun stopped => absurd stopped small, fun _ => right.2.resolve_right small⟩⟩
  have small : value < other := by omega
  by_cases native : Native Size
  · rw [static_cast_native native, ok_bind, Fault.exact_refuse]
    constructor
    · intro right
      refine ⟨fun _ => ?_, .inr small⟩
      by_contra above
      have free : ¬ value < other % 2 ^ Size := fun reduced => above (.inr reduced)
      obtain ⟨result, outcome, nonneg⟩ := stored native otherFits free
      have reached := right.2 free
      rw [outcome, Fault.exact_ok] at reached
      have := Option.some.inj reached.1
      omega
    · rintro ⟨reduced, _⟩
      have stopped := (reduced native).resolve_left otherFits
      exact ⟨fun _ => tooSmall small, fun free => absurd stopped free⟩
  · have outside : ¬ InRange Size other := fun inside => otherFits inside.2
    rw [static_cast_library native outside, error_bind, Fault.exact_exception]
    exact iff_of_true (tooSmall small) ⟨fun isNative => absurd isNative native, .inr small⟩

/-- The guard of the forms that raise the value by the size of an `int`. -/
theorem raised_exact_iff (converts : Nat → Bool) (other : Int) (what : Exception) {raise : Int} (nonneg : 0 ≤ raise)
    (small : raise ≤ 2 ^ 31) :
    Fault.Exact (InRange Size) False (some (value + raise)) (do
      let room ← mixed converts Size other (limits_max Size - raise)
      Fault.refuse (room < value) what
      let sum ← mixed converts Size other (value + raise)
      store Size sum) ↔ Taken converts Size other ∨ 2 ^ Size ≤ value + raise := by
  obtain ⟨low, high⟩ := inRange
  by_cases taken : Taken converts Size other
  · refine iff_of_true ?_ (.inl taken)
    by_cases narrow : raise < 2 ^ Size
    · have room : InRange Size (limits_max Size - raise) := by
        unfold InRange limits_max
        omega
      rw [mixed_taken taken room, ok_bind, Fault.exact_refuse]
      constructor
      · intro full
        apply too_large
        unfold limits_max at full
        omega
      · intro free
        have fits : InRange Size (value + raise) := by
          unfold limits_max at free
          unfold InRange
          omega
        exact mixed_exact taken fits
    · have full : False ∨ ∀ sum, some (value + raise) = some sum → ¬ InRange Size sum := too_large (by omega)
      rw [mixed, operand_eq, Fault.refuse, if_neg (not_not.mpr taken), ok_bind]
      rcases native_cases Size with promoted | word | library
      · have bounds : -2 ^ 31 ≤ limits_max Size - raise ∧ limits_max Size - raise < 2 ^ 31 := by
          unfold limits_max
          rcases promoted with rfl | rfl
          · omega
          · omega
        rw [expression, if_pos promoted, intExpression, if_pos bounds, ok_bind, Fault.exact_refuse]
        refine ⟨fun _ => full, fun free => absurd ?_ free⟩
        unfold limits_max
        omega
      · rcases word with rfl | rfl
        · omega
        · omega
      · have notPromoted : ¬ Promoted Size := by
          unfold Native at library
          unfold Promoted
          omega
        have outside : ¬ InRange Size (limits_max Size - raise) := by
          unfold InRange limits_max
          omega
        rw [expression, if_neg notPromoted, if_neg library, if_neg outside]
        exact full
  · rw [mixed_refused taken, error_bind, Fault.exact_exception]
    constructor
    · intro right
      by_contra fits
      exact right.elim id fun outside => outside _ rfl ⟨by omega, by omega⟩
    · rintro (impossible | full)
      · exact absurd impossible taken
      · exact too_large full

section Uint
variable (otherInRange : InRange Size other)
include otherInRange

theorem plus_exact (what : Exception) :
    Fault.Exact (InRange Size) False (some (value + other)) (plus Size what value other) := by
  obtain ⟨low, high⟩ := inRange
  obtain ⟨otherLow, otherHigh⟩ := otherInRange
  have room : InRange Size (limits_max Size - other) := by
    unfold InRange limits_max
    omega
  rw [plus, expression_inRange room, ok_bind, Fault.exact_refuse]
  constructor
  · intro full
    unfold limits_max at full
    exact too_large (by omega)
  · intro free
    have fits : InRange Size (value + other) := by
      unfold InRange
      unfold limits_max at free
      omega
    exact expression_exact fits

theorem minus_exact (what : Exception) :
    Fault.Exact (InRange Size) False (some (value - other)) (minus Size what value other) := by
  obtain ⟨low, high⟩ := inRange
  obtain ⟨otherLow, otherHigh⟩ := otherInRange
  rw [minus, Fault.exact_refuse]
  constructor
  · intro small
    exact too_small (by omega)
  · intro enough
    have fits : InRange Size (value - other) := by
      unfold InRange
      omega
    exact expression_exact fits

theorem times_exact (zero what : Exception) :
    Fault.Exact (InRange Size) (value = 0 ∨ other = 0) (some (value * other)) (times Size zero what value other) := by
  rw [times, Fault.exact_refuse]
  constructor
  · exact fun none => .inl none.symm
  · intro nonzero
    have positive : 0 < value ∧ 0 < other := by
      have := inRange.1
      have := otherInRange.1
      omega
    rw [divide_ok (by omega), ok_bind, Fault.exact_refuse, bound_lt_iff positive.2]
    constructor
    · intro full
      exact too_large (by omega)
    · intro free
      have fits : InRange Size (value * other) := ⟨mul_nonneg inRange.1 otherInRange.1, by omega⟩
      exact expression_exact fits

theorem dividedBy_exact_iff (zero : Exception) :
    Fault.Exact (InRange Size) False (quotient value other) (dividedBy Size zero value other) ↔
      other = 0 ∨ value ≠ 0 := by
  rw [dividedBy, exact_guarded True quotient_none (quotient_defined inRange otherInRange.1), and_true]
  intro _ nonzero
  have fits := tdiv_inRange inRange otherInRange.1
  rw [divide_ok nonzero, ok_bind, store_inRange fits]
  simp [quotient, nonzero, fits]

end Uint

theorem remainderBy_exact_iff (zero : Exception) :
    Fault.Exact (InRange Size) False (remainder value other) (remainderBy Size zero value other) ↔
      other = 0 ∨ value ≠ 0 := by
  rw [remainderBy, exact_guarded True remainder_none (remainder_defined inRange), and_true]
  intro _ nonzero
  have fits : InRange Size (value.tmod other) := tmod_inRange inRange
  rw [modulo_ok nonzero, ok_bind, store_inRange fits]
  simp [remainder, nonzero, fits]

theorem dividedByUint64_exact_iff (nonneg : 0 ≤ other) (zero : Exception) :
    Fault.Exact (InRange Size) False (quotient value other) (dividedByUint64 converts Size zero value other) ↔
      other = 0 ∨ value ≠ 0 ∧ Taken converts Size other := by
  rw [dividedByUint64, exact_guarded (Taken converts Size other) quotient_none
    (quotient_defined inRange nonneg)]
  intro _ nonzero
  have fits := tdiv_inRange inRange nonneg
  rw [operand_eq, Fault.exact_refuse, divide_ok nonzero, ok_bind, store_inRange fits]
  simp [quotient, nonzero, fits]

theorem remainderByUint64_exact_iff (zero : Exception) :
    Fault.Exact (InRange Size) False (remainder value other) (remainderByUint64 converts Size zero value other) ↔
      other = 0 ∨ value ≠ 0 ∧ Taken converts Size other := by
  rw [remainderByUint64, exact_guarded (Taken converts Size other) remainder_none
    (remainder_defined inRange)]
  intro _ nonzero
  have fits : InRange Size (value.tmod other) := tmod_inRange inRange
  rw [operand_eq, Fault.exact_refuse, modulo_ok nonzero, ok_bind, store_inRange fits]
  simp [remainder, nonzero, fits]

theorem addAssignUint64_exact_iff (word : 0 ≤ other ∧ other < 2 ^ 64) :
    Fault.Exact (InRange Size) False (some (value + other)) (addAssignUint64 converts Size value other) ↔
      ¬ Native Size ∨ InRange Size other := by
  obtain ⟨low, high⟩ := inRange
  by_cases native : Native Size
  · have small := native_small native
    rw [addAssignUint64, wide_native native, wide_native native, ok_bind, Fault.exact_refuse, ok_bind]
    have side : (¬ Native Size ∨ InRange Size other) ↔ InRange Size other := by simp [native]
    rw [side]
    by_cases fits : InRange Size other
    · have otherHigh := fits.2
      have room : (limits_max Size - other) % 2 ^ 64 = limits_max Size - other := by
        unfold limits_max
        exact Int.emod_eq_of_lt (by omega) (by omega)
      rw [room]
      refine iff_of_true ⟨?_, ?_⟩ fits
      · intro full
        unfold limits_max at full
        exact too_large (by omega)
      · intro free
        have sumFits : InRange Size (value + other) := by
          unfold limits_max at free
          unfold InRange
          omega
        have sum : (value + other) % 2 ^ 64 = value + other := Int.emod_eq_of_lt sumFits.1 (by have := sumFits.2; omega)
        rw [sum, store_inRange sumFits]
        exact ⟨rfl, sumFits⟩
    · simp only [fits, iff_false]
      intro right
      have above : 2 ^ Size ≤ other := by
        unfold InRange at fits
        omega
      have free : ¬ (limits_max Size - other) % 2 ^ 64 < value := by
        unfold limits_max
        omega
      have stored := (right.2 free).1
      have bound := Int.emod_lt_of_pos ((value + other) % 2 ^ 64) (limit_positive Size)
      have := Option.some.inj stored
      omega
  · simp only [native, not_false_eq_true, true_or, iff_true]
    rw [addAssignUint64, wide_library native, wide_library native]
    have tooLarge : ¬ InRange Size other → False ∨ ∀ sum, some (value + other) = some sum → ¬ InRange Size sum := by
      intro unfit
      refine .inr fun sum same fits => unfit ?_
      cases same
      have := fits.2
      unfold InRange
      omega
    apply mixed_library native
    · exact fun unfit => tooLarge fun fits => unfit (.inr (.inr fits))
    · intro outside
      apply tooLarge
      intro fits
      apply outside
      have := fits.2
      unfold InRange limits_max
      omega
    · intro taken _
      rw [Fault.exact_refuse]
      constructor
      · intro full
        unfold limits_max at full
        exact too_large (by omega)
      · intro free
        have fits : InRange Size (value + other) := by
          unfold limits_max at free
          unfold InRange
          omega
        exact mixed_exact taken fits

theorem subAssignUint64_exact (nonneg : 0 ≤ other) :
    Fault.Exact (InRange Size) False (some (value - other)) (subAssignUint64 converts Size value other) := by
  obtain ⟨low, high⟩ := inRange
  rw [subAssignUint64, Fault.exact_refuse]
  constructor
  · intro small
    exact too_small (by omega)
  · intro enough
    have fits : InRange Size (value - other) := by
      unfold InRange
      omega
    have otherFits : InRange Size other := by
      unfold InRange
      omega
    have evaluated : wide converts Size other (value - other) = .ok (value - other) := by
      by_cases native : Native Size
      · have := native_small native
        have := fits.2
        rw [wide_native native, Int.emod_eq_of_lt fits.1 (by omega)]
      · rw [wide_library native, mixed_taken (.inr (.inr otherFits)) fits]
    rw [evaluated, ok_bind, store_inRange fits]
    exact ⟨rfl, fits⟩

theorem increment_exact (what : Exception) :
    Fault.Exact (InRange Size) False (some (value + 1)) (increment Size what value) := by
  obtain ⟨low, high⟩ := inRange
  rw [increment, Fault.exact_refuse]
  unfold limits_max
  constructor
  · intro last
    exact too_large (by omega)
  · intro free
    have fits : InRange Size (value + 1) := by
      unfold InRange
      omega
    rw [store_inRange fits]
    exact ⟨rfl, fits⟩

theorem decrement_exact (what : Exception) :
    Fault.Exact (InRange Size) False (some (value - 1)) (decrement Size what value) := by
  obtain ⟨low, high⟩ := inRange
  rw [decrement, Fault.exact_refuse]
  constructor
  · intro first
    exact too_small (by omega)
  · intro free
    have fits : InRange Size (value - 1) := by
      unfold InRange
      omega
    rw [store_inRange fits]
    exact ⟨rfl, fits⟩

theorem mulInt_exact :
    Fault.Exact (InRange Size) (value = 0 ∨ other = 0) (some (value * other)) (mulInt converts Size value other) := by
  rw [mulInt, Fault.exact_refuse]
  constructor
  · exact fun none => .inl none.symm
  intro nonzero
  have positive : 0 < value := by
    have := inRange.1
    omega
  rw [Fault.exact_refuse]
  constructor
  · intro negative
    refine .inr fun product same fits => ?_
    cases same
    have := mul_neg_of_pos_of_neg positive negative
    have := fits.1
    omega
  intro nonneg
  have otherPositive : 0 < other := by omega
  have grows : other ≤ value * other := le_mul_of_one_le_left (by omega) positive
  rw [operand_eq, Fault.exact_refuse]
  constructor
  · intro unfit
    apply too_large
    by_contra fits
    exact unfit (.inr (.inr ⟨by omega, by omega⟩))
  intro taken
  rw [divide_ok (by omega), ok_bind, Fault.exact_refuse, bound_lt_iff otherPositive]
  refine ⟨too_large, fun free => ?_⟩
  have fits : InRange Size (value * other) := ⟨mul_nonneg inRange.1 (by omega), by omega⟩
  exact mixed_exact (not_not.mp taken) fits

theorem divInt_exact_iff :
    Fault.Exact (InRange Size) (other < 0) (quotient value other) (divInt converts Size value other) ↔
      other ≤ 0 ∨ Taken converts Size other := by
  rw [divInt, Fault.exact_refuse, Fault.exact_refuse, operand_eq, Fault.exact_refuse]
  rcases lt_trichotomy other 0 with negative | zero | positive
  · simp [negative, negative.le, negative.ne]
  · simp [zero, quotient]
  · have fits := tdiv_inRange inRange positive.le
    rw [divide_ok (by omega), ok_bind, store_inRange fits]
    simp [quotient, positive.ne', positive.not_gt, positive.not_ge, fits]

theorem modulo_divides : Divides Size value (modulo Size) Int.tmod := by
  refine ⟨fun _ => modulo_ok, fun _ _ => tmod_inRange inRange, modulo_zero, fun divisor other large above => ?_⟩
  rw [Int.tmod_eq_of_lt inRange.1 above]
  exact ⟨fun same => same ▸ Int.tmod_lt_of_pos value large, Int.tmod_eq_of_lt inRange.1⟩

theorem divide_divides : Divides Size value (divide Size) Int.tdiv := by
  refine ⟨fun _ => divide_ok, fun _ => tdiv_inRange inRange, divide_zero, fun divisor other large above => ?_⟩
  rw [Int.tdiv_eq_zero_of_lt inRange.1 above, Int.tdiv_eq_ediv_of_nonneg inRange.1]
  have nonneg := Int.ediv_nonneg inRange.1 large.le
  rw [← one_mul divisor, ← Int.ediv_lt_iff_lt_mul large, one_mul]
  omega

theorem narrows_iff (divides : Divides Size value operation function) (positive : 0 < other) :
    Narrows function Size value other ↔ Divisor Size value other := by
  obtain ⟨low, high⟩ := inRange
  unfold Narrows Divisor
  by_cases native : Native Size
  · have width : Native Size ∨ InRange Size other := .inl native
    have above : ReducedAbove Size value other ↔ other < 2 ^ Size ∨ value < other % 2 ^ Size := forall_prop_of_true native
    rw [if_pos native, and_iff_left width, above]
    by_cases fits : other < 2 ^ Size
    · rw [Int.emod_eq_of_lt positive.le fits]
      exact iff_of_true ⟨positive.ne', rfl⟩ (.inl fits)
    · have nonneg := Int.emod_nonneg other (limit_positive Size).ne'
      rw [or_iff_right fits]
      constructor
      · exact fun equal => (divides.large _ _ (by omega) (by omega)).mp equal.2
      · exact fun above => ⟨by omega, (divides.large _ _ (by omega) (by omega)).mpr above⟩
  · rw [if_neg native, or_iff_right native]
    exact (and_iff_right fun isNative => absurd isNative native).symm

theorem narrows_mod_iff (nonzero : other ≠ 0) : Narrows Int.tmod Size value other ↔ Remains Size value other := by
  unfold Remains
  split
  case isTrue positive => exact narrows_iff inRange (modulo_divides inRange) positive
  case isFalse low =>
    obtain ⟨nonneg, high⟩ := inRange
    unfold Narrows
    by_cases native : Native Size
    · rw [if_pos native, and_iff_right native]
      apply and_congr_right
      intro left
      have := Int.emod_nonneg other (limit_positive Size).ne'
      have near : 2 ^ Size ≤ other % 2 ^ Size + -other := Int.le_of_dvd (by omega) Int.dvd_emod_sub_self
      rw [Int.tmod_eq_emod_of_nonneg nonneg, Int.tmod_eq_emod_of_nonneg nonneg, ← Int.emod_neg value other]
      exact emod_eq_iff nonneg (by omega) (by omega) (by omega)
    · rw [if_neg native]
      exact iff_of_false (fun inside => absurd inside.1 (by omega)) fun right => native right.1

theorem modInt_exact_iff :
    Fault.Exact (InRange Size) False (remainder value other) (modInt Size value other) ↔
      other = 0 ∨ value ≠ 0 ∧ Remains Size value other := by
  rw [modInt, exact_guarded (Remains Size value other) remainder_none (remainder_defined inRange)]
  intro _ nonzero
  rw [remainder, if_neg nonzero, ← narrows_mod_iff inRange nonzero]
  exact narrowed_exact_iff (modulo_divides inRange) not_false (tmod_inRange inRange) nonzero

/-- The forms that assign a quotient or a remainder by an `int`. -/
theorem assigned_exact_iff {exact : Option Int} {low zero : Exception} (divides : Divides Size value operation function)
    (undefined : other = 0 → exact = none) (defined : other ≠ 0 → exact = some (function value other)) :
    Fault.Exact (InRange Size) (other < 0) exact (do
      Fault.refuse (other ≤ 0) low
      Fault.refuse (value = 0) zero
      narrowed Size operation value other) ↔ other ≤ 0 ∨ value ≠ 0 ∧ Divisor Size value other := by
  rw [Fault.exact_refuse, Fault.exact_refuse]
  rcases lt_trichotomy other 0 with negative | none | positive
  · simp [negative, negative.le]
  · simp [none, undefined none]
  · have fits := divides.fits other positive.le
    have narrowed := narrowed_exact_iff divides not_false fits positive.ne'
    rw [narrows_iff inRange divides positive] at narrowed
    by_cases empty : value = 0
    · simp [defined positive.ne', positive.not_ge, positive.not_gt, empty, empty ▸ fits]
    · simp [defined positive.ne', positive.not_ge, positive.not_gt, narrowed, empty]

theorem modAssignInt_exact_iff :
    Fault.Exact (InRange Size) (other < 0) (remainder value other) (modAssignInt Size value other) ↔
      other ≤ 0 ∨ value ≠ 0 ∧ Divisor Size value other :=
  assigned_exact_iff inRange (modulo_divides inRange) remainder_none fun nonzero => if_neg nonzero

theorem divAssignInt_exact_iff :
    Fault.Exact (InRange Size) (other < 0) (quotient value other) (divAssignInt Size value other) ↔
      other ≤ 0 ∨ value ≠ 0 ∧ Divisor Size value other :=
  assigned_exact_iff inRange (divide_divides inRange) quotient_none fun nonzero => if_neg nonzero

theorem addAssignInt_exact_iff :
    Fault.Exact (InRange Size) False (some (value + other)) (addAssignInt Size value other) ↔
      0 ≤ other ∨ value + other < 0 := by
  obtain ⟨low, high⟩ := inRange
  rw [addAssignInt, Fault.exact_refuse]
  by_cases fits : InRange Size (value + other)
  · obtain ⟨sumLow, sumHigh⟩ := fits
    by_cases nonneg : 0 ≤ other
    · have otherFits : InRange Size other := ⟨nonneg, by omega⟩
      have free : ¬ (other < 0 ∨ limits_max Size - value < other) := by
        unfold limits_max
        omega
      have evaluated : narrowed Size (fun value other => expression Size (value + other)) value other =
          .ok (value + other) := by
        rw [narrowed, static_cast_inRange otherFits, ok_bind, expression_inRange ⟨sumLow, sumHigh⟩, ok_bind,
          store_inRange ⟨sumLow, sumHigh⟩]
      rw [evaluated]
      exact iff_of_true ⟨fun stopped => absurd stopped free, fun _ => ⟨rfl, sumLow, sumHigh⟩⟩ (.inl nonneg)
    · refine iff_of_false (fun right => ?_) (by omega)
      rcases right.1 (.inl (by omega)) with none | outside
      · exact none
      · exact outside _ rfl ⟨sumLow, sumHigh⟩
  · have stopped : other < 0 ∨ limits_max Size - value < other := by
      unfold InRange at fits
      unfold limits_max
      omega
    refine iff_of_true ⟨fun _ => .inr fun sum same inside => ?_, fun free => absurd stopped free⟩ ?_
    · cases same
      exact fits inside
    · unfold InRange at fits
      omega

theorem subAssignInt_exact_iff (small : Small other) :
    Fault.Exact (InRange Size) (other < 0) (some (value - other)) (subAssignInt Size value other) ↔
      other ≤ 0 ∨ ReducedAbove Size value other := by
  rw [subAssignInt, Fault.exact_refuse]
  rcases lt_trichotomy other 0 with negative | zero | positive
  · simp [negative, negative.le]
  · have inside : InRange Size 0 := ⟨le_refl 0, limit_positive Size⟩
    have exact := minus_exact inRange inside "Underflow in subtraction assignment operation."
    rw [zero, static_cast_inRange inside, ok_bind]
    simpa using exact
  · have guarded : Fault.Exact (InRange Size) False (some (value - other))
        (static_cast Size other >>= minus Size "Underflow in subtraction assignment operation." value) ↔
        ReducedAbove Size value other ∧ (True ∨ value < other) := by
      apply reduced_guard_exact_iff inRange True positive rfl
      · intro inside enough
        have exact := minus_exact inRange inside "Underflow in subtraction assignment operation."
        rw [minus, Fault.exact_refuse] at exact
        exact iff_of_true (exact.2 enough) trivial
      · intro native wide enough
        have promoted := native_emod native positive.le small wide
        have bound := Int.emod_lt_of_pos other (limit_positive Size)
        have nonneg := Int.emod_nonneg other (limit_positive Size).ne'
        apply expression_stored native
        have := inRange.2
        unfold Small
        rcases promoted with rfl | rfl
        · omega
        · omega
    simpa [positive.not_gt, positive.not_ge] using guarded

theorem subInt_exact_iff (small : Small other) :
    Fault.Exact (InRange Size) False (some (value - other)) (subInt converts Size value other) ↔
      if 0 < other then ReducedAbove Size value other else Taken converts Size other ∨ 2 ^ Size ≤ value - other := by
  rw [subInt]
  by_cases positive : 0 < other
  · rw [if_pos positive, if_pos positive]
    have guarded : Fault.Exact (InRange Size) False (some (value - other)) (do
        let least ← static_cast Size other
        Fault.refuse (value < least) "Underflow in subtraction operation."
        mixed converts Size other (value - other) >>= store Size) ↔
        ReducedAbove Size value other ∧ (True ∨ value < other) := by
      apply reduced_guard_exact_iff inRange True positive rfl
      · intro inside enough
        have fits : InRange Size (value - other) := by
          have := inRange.2
          unfold InRange
          omega
        rw [mixed_taken (.inr (.inr inside)) fits, ok_bind, store_inRange fits]
        exact iff_of_true ⟨rfl, fits⟩ trivial
      · intro native wide enough
        have promoted := native_emod native positive.le small wide
        rw [mixed_native native]
        apply expression_stored native
        obtain ⟨low, high⟩ := inRange
        obtain ⟨_, below⟩ := small
        unfold Small
        rcases promoted with rfl | rfl
        · omega
        · omega
    simpa using guarded
  · rw [if_neg positive, if_neg positive]
    have bounds : 0 ≤ -other ∧ -other ≤ 2 ^ 31 := by
      have := small.1
      omega
    have raised := raised_exact_iff inRange converts other "Overflow in subtraction operation." bounds.1 bounds.2
    simpa only [sub_neg_eq_add, ← sub_eq_add_neg] using raised

theorem addInt_exact_iff (small : Small other) :
    Fault.Exact (InRange Size) False (some (value + other)) (addInt converts Size value other) ↔
      0 ≤ other ∨ other ≠ -2 ^ 31 ∧ ReducedAbove Size value (-other) ∧
        (Taken converts Size other ∨ value + other < 0) := by
  rw [addInt]
  by_cases negative : other < 0
  · rw [if_pos negative, or_iff_right (by omega : ¬ 0 ≤ other)]
    by_cases least : other = -2 ^ 31
    · have outside : ¬ (-2 ^ 31 ≤ -other ∧ -other < 2 ^ 31) := by omega
      rw [intExpression, if_neg outside, error_bind]
      exact iff_of_false Fault.exact_undefined (fun right => right.1 least)
    have bounds : -2 ^ 31 ≤ -other ∧ -other < 2 ^ 31 := by
      have := small.1
      omega
    rw [intExpression, if_pos bounds, ok_bind]
    have guarded : Fault.Exact (InRange Size) False (some (value + other)) (do
        let least ← static_cast Size (-other)
        Fault.refuse (value < least) "Underflow in addition operation."
        mixed converts Size other (value + other) >>= store Size) ↔
        ReducedAbove Size value (-other) ∧ (Taken converts Size other ∨ value < -other) := by
      apply reduced_guard_exact_iff inRange (Taken converts Size other) (by omega) (by omega)
      · intro inside enough
        have fits : InRange Size (value + other) := by
          have := inRange.2
          unfold InRange
          omega
        by_cases taken : Taken converts Size other
        · rw [mixed_taken taken fits, ok_bind, store_inRange fits]
          exact iff_of_true ⟨rfl, fits⟩ taken
        · rw [mixed_refused taken, error_bind, Fault.exact_exception]
          exact iff_of_false (fun right => right.elim id fun outside => outside _ rfl fits) taken
      · intro native wide enough
        have promoted := native_emod native (by omega) ⟨bounds.1, bounds.2⟩ wide
        rw [mixed_native native]
        apply expression_stored native
        obtain ⟨low, high⟩ := inRange
        unfold Small
        rcases promoted with rfl | rfl
        · omega
        · omega
    have below : value < -other ↔ value + other < 0 := by omega
    rw [below] at guarded
    refine Iff.trans guarded ⟨fun right => ⟨least, right⟩, And.right⟩
  · rw [if_neg negative]
    have bounds : 0 ≤ other ∧ other ≤ 2 ^ 31 := by
      have := small.2
      omega
    have raised := raised_exact_iff inRange converts other "Overflow in addition operation." bounds.1 bounds.2
    refine raised.trans (iff_of_true ?_ (Or.inl bounds.1))
    by_cases inside : InRange Size other
    · exact .inl (.inr (.inr inside))
    · right
      have := inRange.1
      unfold InRange at inside
      omega

theorem mulAssignInt_exact_iff :
    Fault.Exact (InRange Size) (value = 0 ∨ other = 0 ∨ other < 0) (some (value * other)) (mulAssignInt Size value other) ↔
      other ≤ 0 ∨ value = 0 ∨ (Native Size → other < 2 ^ Size ∨
        other % 2 ^ Size ≠ 0 ∧ 2 ^ Size ≤ value * (other % 2 ^ Size)) := by
  rw [mulAssignInt, Fault.exact_refuse, Fault.exact_refuse]
  by_cases negative : other < 0
  · exact iff_of_true ⟨fun _ => .inl (.inr (.inr negative)), fun free => absurd negative free⟩ (.inl negative.le)
  by_cases empty : other = 0 ∨ value = 0
  · have allowed : value = 0 ∨ other = 0 ∨ other < 0 := by omega
    exact iff_of_true ⟨fun _ => .inl allowed, fun _ => ⟨fun _ => .inl allowed, fun free => absurd empty free⟩⟩ (by omega)
  have positive : 0 < value ∧ 0 < other := by
    have := inRange.1
    omega
  have counts : ¬ (value = 0 ∨ other = 0 ∨ other < 0) := by omega
  refine Iff.trans ?_ (or_iff_right positive.2.not_ge).symm
  refine Iff.trans ?_ (or_iff_right positive.1.ne').symm
  rw [and_iff_right fun stopped => absurd stopped negative, forall_prop_of_true negative,
    and_iff_right fun stopped => absurd stopped empty, forall_prop_of_true empty]
  by_cases otherFits : other < 2 ^ Size
  · have inside : InRange Size other := ⟨positive.2.le, otherFits⟩
    have exact := times_exact inRange inside "Multiplication assignment by zero"
      "Overflow in multiplication assignment operation."
    rw [times, Fault.exact_refuse] at exact
    rw [static_cast_inRange inside, ok_bind]
    have reached := exact.2 empty
    simp only [positive.1.ne', positive.2.ne', negative, or_false] at reached ⊢
    exact iff_of_true reached fun _ => .inl otherFits
  have large : 2 ^ Size ≤ value * other := by
    have := le_mul_of_one_le_left positive.2.le positive.1
    omega
  have tooLarge : ∀ product, some (value * other) = some product → ¬ InRange Size product := by
    intro product same fits
    have := Option.some.inj same
    have := fits.2
    omega
  by_cases native : Native Size
  · have nonneg := Int.emod_nonneg other (limit_positive Size).ne'
    rw [static_cast_native native, ok_bind]
    simp only [native, otherFits, true_implies, false_or]
    by_cases reduced : other % 2 ^ Size = 0
    · rw [reduced, divide_zero native, error_bind]
      exact iff_of_false Fault.exact_undefined fun right => right.1 rfl
    have reducedPositive : 0 < other % 2 ^ Size := by omega
    rw [divide_ok reduced, ok_bind, Fault.exact_refuse, bound_lt_iff reducedPositive]
    by_cases full : 2 ^ Size ≤ value * (other % 2 ^ Size)
    · exact iff_of_true ⟨fun _ => .inr tooLarge, fun free => absurd full free⟩ ⟨reduced, full⟩
    · refine iff_of_false (fun right => ?_) fun right => full right.2
      have fits : InRange Size (value * (other % 2 ^ Size)) := ⟨mul_nonneg inRange.1 nonneg, by omega⟩
      have stored := right.2 full
      rw [expression_inRange fits, ok_bind, store_inRange fits] at stored
      exact tooLarge _ stored.1 fits
  · have outside : ¬ InRange Size other := fun inside => otherFits inside.2
    rw [static_cast_library native outside, error_bind, Fault.exact_exception]
    exact iff_of_true (.inr tooLarge) fun isNative => absurd isNative native

end InRange

/-- The result over the integers. -/
def integer : Operator → Int → Int → Option Int
  | .add, left, right => some (left + right)
  | .sub, left, right => some (left - right)
  | .mul, left, right => some (left * right)
  | .div, left, right => quotient left right
  | .mod, left, right => remainder left right

def expected {Size : Nat} (value : Int) : Call Size → Option Int
  | .uint operator _ other => integer operator value other.toNat
  | .int operator _ other => integer operator value other.toInt
  | .modUint64 other => remainder value other.toNat
  | .addAssignUint64 other => some (value + other.toNat)
  | .subAssignUint64 other => some (value - other.toNat)
  | .divAssignUint64 other => quotient value other.toNat
  | .modAssignUint64 other => remainder value other.toNat
  | .increment _ => some (value + 1)
  | .decrement _ => some (value - 1)

/-- The operands that the comments of the operators say they throw on: a multiplication
with zero, and a negative operand of a division or of an assigning form but addition. -/
def Documented {Size : Nat} (value : Int) : Call Size → Prop
  | .uint .mul _ other => value = 0 ∨ (other.toNat : Int) = 0
  | .int .mul false other => value = 0 ∨ other.toInt = 0
  | .int .mul true other => value = 0 ∨ other.toInt = 0 ∨ other.toInt < 0
  | .int .div _ other => other.toInt < 0
  | .int .sub true other => other.toInt < 0
  | .int .mod true other => other.toInt < 0
  | _ => False

/-- No division of zero, no operand that has to be narrowed, no negative `int` where it
is not subtracted or added as such. -/
def Sound (converts : Nat → Bool) {Size : Nat} (value : Int) : Call Size → Prop
  | .uint .div _ other => (other.toNat : Int) = 0 ∨ value ≠ 0
  | .uint .mod _ other => (other.toNat : Int) = 0 ∨ value ≠ 0
  | .int .add false other =>
      0 ≤ other.toInt ∨ other.toInt ≠ -2 ^ 31 ∧ ReducedAbove Size value (-other.toInt) ∧
        (Taken converts Size other.toInt ∨ value + other.toInt < 0)
  | .int .add true other => 0 ≤ other.toInt ∨ value + other.toInt < 0
  | .int .sub false other =>
      if 0 < other.toInt then ReducedAbove Size value other.toInt
      else Taken converts Size other.toInt ∨ 2 ^ Size ≤ value - other.toInt
  | .int .sub true other => other.toInt ≤ 0 ∨ ReducedAbove Size value other.toInt
  | .int .mul true other =>
      other.toInt ≤ 0 ∨ value = 0 ∨ (Native Size → other.toInt < 2 ^ Size ∨
        other.toInt % 2 ^ Size ≠ 0 ∧ 2 ^ Size ≤ value * (other.toInt % 2 ^ Size))
  | .int .div false other => other.toInt ≤ 0 ∨ Taken converts Size other.toInt
  | .int .div true other => other.toInt ≤ 0 ∨ value ≠ 0 ∧ Divisor Size value other.toInt
  | .int .mod false other => other.toInt = 0 ∨ value ≠ 0 ∧ Remains Size value other.toInt
  | .int .mod true other => other.toInt ≤ 0 ∨ value ≠ 0 ∧ Divisor Size value other.toInt
  | .modUint64 other => (other.toNat : Int) = 0 ∨ value ≠ 0 ∧ Taken converts Size other.toNat
  | .divAssignUint64 other => (other.toNat : Int) = 0 ∨ value ≠ 0 ∧ Taken converts Size other.toNat
  | .modAssignUint64 other => (other.toNat : Int) = 0 ∨ value ≠ 0 ∧ Taken converts Size other.toNat
  | .addAssignUint64 other => ¬ Native Size ∨ InRange Size other.toNat
  | _ => True

private theorem toNat_inRange (value : BitVec Size) : InRange Size value.toNat := by
  have bound := value.isLt
  exact ⟨by omega, by exact_mod_cast bound⟩

private theorem toInt_small (other : BitVec 32) : Small other.toInt :=
  ⟨by simpa using BitVec.le_toInt other, by simpa using @BitVec.toInt_lt 32 other⟩

theorem toNat_word (other : BitVec 64) : (0 : Int) ≤ other.toNat ∧ (other.toNat : Int) < 2 ^ 64 := by
  have bound := other.isLt
  omega

theorem map_snd {before : Int} (after : Arithmetic) :
    (after >>= fun stored => (pure (before, stored) : Except (Fault Exception) (Int × Int))).map Prod.snd = after := by
  cases after <;> rfl

/-- An operator gives the exact result or throws, for every width, value and operand,
exactly if the call is sound. -/
theorem exact_or_throws_iff (converts : Nat → Bool) (Size : Nat) (value : BitVec Size) (call : Call Size) :
    Fault.Exact (InRange Size) (Documented value.toNat call) (expected value.toNat call) (call.run converts value.toNat) ↔
      Sound converts value.toNat call := by
  have inRange := toNat_inRange value
  cases call with
  | uint operator assigns other =>
    have otherInRange := toNat_inRange other
    cases operator with
    | add =>
      cases assigns with
      | false => exact iff_of_true (plus_exact inRange otherInRange _) trivial
      | true => exact iff_of_true (plus_exact inRange otherInRange _) trivial
    | sub =>
      cases assigns with
      | false => exact iff_of_true (minus_exact inRange otherInRange _) trivial
      | true => exact iff_of_true (minus_exact inRange otherInRange _) trivial
    | mul =>
      cases assigns with
      | false => exact iff_of_true (times_exact inRange otherInRange _ _) trivial
      | true => exact iff_of_true (times_exact inRange otherInRange _ _) trivial
    | div =>
      cases assigns with
      | false => exact dividedBy_exact_iff inRange otherInRange _
      | true => exact dividedBy_exact_iff inRange otherInRange _
    | mod =>
      cases assigns with
      | false => exact remainderBy_exact_iff inRange _
      | true => exact remainderBy_exact_iff inRange _
  | int operator assigns other =>
    have small := toInt_small other
    cases operator with
    | add =>
      cases assigns with
      | false => exact addInt_exact_iff inRange small
      | true => exact addAssignInt_exact_iff inRange
    | sub =>
      cases assigns with
      | false => exact subInt_exact_iff inRange small
      | true => exact subAssignInt_exact_iff inRange small
    | mul =>
      cases assigns with
      | false => exact iff_of_true (mulInt_exact inRange) trivial
      | true => exact mulAssignInt_exact_iff inRange
    | div =>
      cases assigns with
      | false => exact divInt_exact_iff inRange
      | true => exact divAssignInt_exact_iff inRange
    | mod =>
      cases assigns with
      | false => exact modInt_exact_iff inRange
      | true => exact modAssignInt_exact_iff inRange
  | modUint64 other => exact remainderByUint64_exact_iff inRange _
  | addAssignUint64 other => exact addAssignUint64_exact_iff inRange (toNat_word other)
  | subAssignUint64 other => exact iff_of_true (subAssignUint64_exact inRange (toNat_word other).1) trivial
  | divAssignUint64 other => exact dividedByUint64_exact_iff inRange (toNat_word other).1 _
  | modAssignUint64 other => exact remainderByUint64_exact_iff inRange _
  | increment before =>
    cases before with
    | true => exact iff_of_true (increment_exact inRange _) trivial
    | false =>
      refine iff_of_true ?_ trivial
      rw [Call.run, postIncrement, map_snd]
      exact increment_exact inRange _
  | decrement before =>
    cases before with
    | true => exact iff_of_true (decrement_exact inRange _) trivial
    | false =>
      refine iff_of_true ?_ trivial
      rw [Call.run, postDecrement, map_snd]
      exact decrement_exact inRange _

/-- Adding 256 to 5 in eight bits leaves 5. -/
theorem wide_operand_is_reduced : ¬ ∀ (converts : Nat → Bool) (Size : Nat) (value : BitVec Size) (call : Call Size),
    8 ≤ Size ∧ Size ≤ 256 ∧ Size % 8 = 0 →
    Fault.Exact (InRange Size) (Documented value.toNat call) (expected value.toNat call)
      (call.run converts value.toNat) := by
  intro exact
  have outcome : Call.run (fun _ => true) ((5 : BitVec 8).toNat : Int) (.addAssignUint64 256 : Call 8) = .ok 5 := rfl
  have wrong := exact (fun _ => true) 8 5 (.addAssignUint64 256) (by decide)
  rw [outcome, Fault.exact_ok] at wrong
  exact absurd wrong.1 (by decide)

end OrbiterSDK.Proofs.SafeUintExact
