import OrbiterSDK.Lib.Checked
import OrbiterSDK.SafeUint

/-! The arithmetic operators of `SafeUint_t` for every width and every kind of operand.
The widths 8, 16, 32 and 64 are types of the language, with its promotions and
conversions; the others are checked integers of the multiprecision library. -/

namespace OrbiterSDK
open Lib

/-- The widths whose integers are types of the language. -/
def Native (Size : Nat) : Prop := Size = 8 ∨ Size = 16 ∨ Size = 32 ∨ Size = 64

/-- The widths whose integers are promoted to `int` in every expression. -/
def Promoted (Size : Nat) : Prop := Size = 8 ∨ Size = 16

instance (Size : Nat) : Decidable (Native Size) := inferInstanceAs (Decidable (_ ∨ _ ∨ _ ∨ _))

instance (Size : Nat) : Decidable (Promoted Size) := inferInstanceAs (Decidable (_ ∨ _))

abbrev Arithmetic := Except (Fault Exception) Int

def divisionByZero : Exception := "Integer Division by zero."

/-- An expression of type `int`, by its exact value. -/
def intExpression (exact : Int) : Arithmetic :=
  if -2 ^ 31 ≤ exact ∧ exact < 2 ^ 31 then .ok exact else .error .undefined

namespace SafeUint_t

def InRange (Size : Nat) (value : Int) : Prop := 0 ≤ value ∧ value < 2 ^ Size

instance (Size : Nat) (value : Int) : Decidable (InRange Size value) := inferInstanceAs (Decidable (_ ∧ _))

section Expressions
variable (converts : Nat → Bool) (Size : Nat)

/-- `std::numeric_limits<uint_t>::max()`. -/
def limits_max : Int := 2 ^ Size - 1

/-- An expression over two integers of the width, or one of them and an `int`. -/
def expression (exact : Int) : Arithmetic :=
  if Promoted Size then intExpression exact
  else if Native Size then .ok (exact % 2 ^ Size)
  else if InRange Size exact then .ok exact
  else .error (.exception Uint256.outOfRange)

/-- An operand of another integer type. Whether the library converts it to the width's
own type first, where it then has to fit, depends on how it stores the width. -/
def operand (other : Int) : Except (Fault Exception) Unit :=
  Fault.refuse (¬ Native Size ∧ converts Size = true ∧ ¬ InRange Size other) Uint256.outOfRange

def mixed (other exact : Int) : Arithmetic := do
  operand converts Size other
  expression Size exact

/-- An expression over an integer of the width and a `uint64_t`. -/
def wide (other exact : Int) : Arithmetic :=
  if Native Size then .ok (exact % 2 ^ 64) else mixed converts Size other exact

/-- `static_cast<uint_t>`. -/
def static_cast (value : Int) : Arithmetic :=
  if Native Size then .ok (value % 2 ^ Size)
  else if InRange Size value then .ok value
  else .error (.exception Uint256.outOfRange)

/-- What is left of the value of an expression in a variable of the width. -/
def store (value : Int) : Arithmetic := .ok (value % 2 ^ Size)

/-- The remainder and the quotient of the language and of the library, rounded to zero. -/
def divide (left right : Int) : Arithmetic :=
  if right = 0 then .error (if Native Size then .undefined else .exception divisionByZero) else .ok (left.tdiv right)

def modulo (left right : Int) : Arithmetic :=
  if right = 0 then .error (if Native Size then .undefined else .exception divisionByZero) else .ok (left.tmod right)

end Expressions

section Families
variable (converts : Nat → Bool) (Size : Nat)

def plus (what : Exception) (value other : Int) : Arithmetic := do
  let room ← expression Size (limits_max Size - other)
  Fault.refuse (room < value) what
  let sum ← expression Size (value + other)
  store Size sum

def minus (what : Exception) (value other : Int) : Arithmetic := do
  Fault.refuse (value < other) what
  let rest ← expression Size (value - other)
  store Size rest

def times (zero what : Exception) (value other : Int) : Arithmetic := do
  Fault.refuse (other = 0 ∨ value = 0) zero
  let bound ← divide Size (limits_max Size) other
  Fault.refuse (bound < value) what
  let product ← expression Size (value * other)
  store Size product

def dividedBy (zero : Exception) (value other : Int) : Arithmetic := do
  Fault.refuse (value = 0 ∨ other = 0) zero
  let quotient ← divide Size value other
  store Size quotient

def remainderBy (zero : Exception) (value other : Int) : Arithmetic := do
  Fault.refuse (value = 0 ∨ other = 0) zero
  let remainder ← modulo Size value other
  store Size remainder

/-- With a `uint64_t` the library may have to convert it. -/
def dividedByUint64 (zero : Exception) (value other : Int) : Arithmetic := do
  Fault.refuse (value = 0 ∨ other = 0) zero
  operand converts Size other
  let quotient ← divide Size value other
  store Size quotient

def remainderByUint64 (zero : Exception) (value other : Int) : Arithmetic := do
  Fault.refuse (value = 0 ∨ other = 0) zero
  operand converts Size other
  let remainder ← modulo Size value other
  store Size remainder

/-- The forms that take an `int` and convert it only after their guards. -/
def narrowed (operation : Int → Int → Arithmetic) (value other : Int) : Arithmetic := do
  let other_uint ← static_cast Size other
  let result ← operation value other_uint
  store Size result

def increment (what : Exception) (value : Int) : Arithmetic := do
  Fault.refuse (value = limits_max Size) what
  store Size (value + 1)

def decrement (what : Exception) (value : Int) : Arithmetic := do
  Fault.refuse (value = 0) what
  store Size (value - 1)

end Families

/-! ## The operators -/

section Operators
variable (converts : Nat → Bool) (Size : Nat)

def add : Int → Int → Arithmetic := plus Size "Overflow in addition operation."

def addInt (value other : Int) : Arithmetic :=
  if other < 0 then do
    let opposite ← intExpression (-other)
    let least ← static_cast Size opposite
    Fault.refuse (value < least) "Underflow in addition operation."
    let sum ← mixed converts Size other (value + other)
    store Size sum
  else do
    let room ← mixed converts Size other (limits_max Size - other)
    Fault.refuse (room < value) "Overflow in addition operation."
    let sum ← mixed converts Size other (value + other)
    store Size sum

def sub : Int → Int → Arithmetic := minus Size "Underflow in subtraction operation."

def subInt (value other : Int) : Arithmetic :=
  if 0 < other then do
    let least ← static_cast Size other
    Fault.refuse (value < least) "Underflow in subtraction operation."
    let rest ← mixed converts Size other (value - other)
    store Size rest
  else do
    let room ← mixed converts Size other (limits_max Size + other)
    Fault.refuse (room < value) "Overflow in subtraction operation."
    let rest ← mixed converts Size other (value - other)
    store Size rest

def mul : Int → Int → Arithmetic := times Size "Multiplication by zero" "Overflow in multiplication operation."

def mulInt (value other : Int) : Arithmetic := do
  Fault.refuse (other = 0 ∨ value = 0) "Multiplication by zero"
  Fault.refuse (other < 0) "Underflow in multiplication operation."
  operand converts Size other
  let bound ← divide Size (limits_max Size) other
  Fault.refuse (bound < value) "Overflow in multiplication operation."
  let product ← mixed converts Size other (value * other)
  store Size product

def div : Int → Int → Arithmetic := dividedBy Size "Division by zero"

def divInt (value other : Int) : Arithmetic := do
  Fault.refuse (other = 0) "Division by zero"
  Fault.refuse (other < 0) "Division by a negative number"
  operand converts Size other
  let quotient ← divide Size value other
  store Size quotient

def mod : Int → Int → Arithmetic := remainderBy Size "Modulus by zero"

def modUint64 : Int → Int → Arithmetic := remainderByUint64 converts Size "Modulus by zero"

def modInt (value other : Int) : Arithmetic := do
  Fault.refuse (value = 0 ∨ other = 0) "Modulus by zero"
  narrowed Size (modulo Size) value other

def addAssign : Int → Int → Arithmetic := plus Size "Overflow in addition assignment operation."

def addAssignUint64 (value other : Int) : Arithmetic := do
  let room ← wide converts Size other (limits_max Size - other)
  Fault.refuse (room < value) "Overflow in addition assignment operation."
  let sum ← wide converts Size other (value + other)
  store Size sum

/-- Here the operand is compared with what is left above the value, as a `uint64_t`. -/
def addAssignInt (value other : Int) : Arithmetic := do
  Fault.refuse (other < 0 ∨ limits_max Size - value < other) "Overflow in addition assignment operation."
  narrowed Size (fun value other => expression Size (value + other)) value other

def subAssign : Int → Int → Arithmetic := minus Size "Underflow in subtraction assignment operation."

def subAssignUint64 (value other : Int) : Arithmetic := do
  Fault.refuse (value < other) "Underflow in subtraction assignment operation."
  let rest ← wide converts Size other (value - other)
  store Size rest

def subAssignInt (value other : Int) : Arithmetic := do
  Fault.refuse (other < 0) "Cannot subtract a negative value."
  let other_uint ← static_cast Size other
  minus Size "Underflow in subtraction assignment operation." value other_uint

def mulAssign : Int → Int → Arithmetic :=
  times Size "Multiplication assignment by zero" "Overflow in multiplication assignment operation."

def mulAssignInt (value other : Int) : Arithmetic := do
  Fault.refuse (other < 0) "Cannot multiply by a negative value."
  Fault.refuse (other = 0 ∨ value = 0) "Multiplication assignment by zero"
  let other_uint ← static_cast Size other
  let bound ← divide Size (limits_max Size) other_uint
  Fault.refuse (bound < value) "Overflow in multiplication assignment operation."
  let product ← expression Size (value * other_uint)
  store Size product

def divAssign : Int → Int → Arithmetic := dividedBy Size "Division assignment by zero"

def divAssignUint64 : Int → Int → Arithmetic := dividedByUint64 converts Size "Division assignment by zero"

def divAssignInt (value other : Int) : Arithmetic := do
  Fault.refuse (other ≤ 0) "Cannot divide by a negative value."
  Fault.refuse (value = 0) "Division assignment by zero"
  narrowed Size (divide Size) value other

def modAssign : Int → Int → Arithmetic := remainderBy Size "Modulus assignment by zero"

def modAssignUint64 : Int → Int → Arithmetic := remainderByUint64 converts Size "Modulus assignment by zero"

def modAssignInt (value other : Int) : Arithmetic := do
  Fault.refuse (other ≤ 0) "Cannot modulus by a negative value."
  Fault.refuse (value = 0) "Modulus assignment by zero"
  narrowed Size (modulo Size) value other

def preIncrement : Int → Arithmetic := increment Size "Overflow in prefix increment operation."

def preDecrement : Int → Arithmetic := decrement Size "Underflow in prefix decrement operation."

/-- The postfix forms return the value before, and leave the new one behind. -/
def postIncrement (value : Int) : Except (Fault Exception) (Int × Int) := do
  let after ← increment Size "Overflow in postfix increment operation." value
  return (value, after)

def postDecrement (value : Int) : Except (Fault Exception) (Int × Int) := do
  let after ← decrement Size "Underflow in postfix decrement operation." value
  return (value, after)

end Operators

/-! ## Every overload -/

inductive Operator where
  | add
  | sub
  | mul
  | div
  | mod
  deriving DecidableEq, Repr

/-- An operator applied to an operand, in the plain or the assigning form. The overloads
for a `SafeUint_t` read its value and are those for an integer of the width. -/
inductive Call (Size : Nat) where
  | uint (operator : Operator) (assigns : Bool) (other : BitVec Size)
  | int (operator : Operator) (assigns : Bool) (other : BitVec 32)
  | modUint64 (other : BitVec 64)
  | addAssignUint64 (other : BitVec 64)
  | subAssignUint64 (other : BitVec 64)
  | divAssignUint64 (other : BitVec 64)
  | modAssignUint64 (other : BitVec 64)
  | increment (before : Bool)
  | decrement (before : Bool)

/-- What the plain forms return and the others leave in the variable. On a fault nothing
has been stored. -/
def Call.run (converts : Nat → Bool) {Size : Nat} (value : Int) : Call Size → Arithmetic
  | .uint .add false other => add Size value other.toNat
  | .uint .sub false other => sub Size value other.toNat
  | .uint .mul false other => mul Size value other.toNat
  | .uint .div false other => div Size value other.toNat
  | .uint .mod false other => mod Size value other.toNat
  | .uint .add true other => addAssign Size value other.toNat
  | .uint .sub true other => subAssign Size value other.toNat
  | .uint .mul true other => mulAssign Size value other.toNat
  | .uint .div true other => divAssign Size value other.toNat
  | .uint .mod true other => modAssign Size value other.toNat
  | .int .add false other => addInt converts Size value other.toInt
  | .int .sub false other => subInt converts Size value other.toInt
  | .int .mul false other => mulInt converts Size value other.toInt
  | .int .div false other => divInt converts Size value other.toInt
  | .int .mod false other => modInt Size value other.toInt
  | .int .add true other => addAssignInt Size value other.toInt
  | .int .sub true other => subAssignInt Size value other.toInt
  | .int .mul true other => mulAssignInt Size value other.toInt
  | .int .div true other => divAssignInt Size value other.toInt
  | .int .mod true other => modAssignInt Size value other.toInt
  | .modUint64 other => SafeUint_t.modUint64 converts Size value other.toNat
  | .addAssignUint64 other => SafeUint_t.addAssignUint64 converts Size value other.toNat
  | .subAssignUint64 other => SafeUint_t.subAssignUint64 converts Size value other.toNat
  | .divAssignUint64 other => SafeUint_t.divAssignUint64 converts Size value other.toNat
  | .modAssignUint64 other => SafeUint_t.modAssignUint64 converts Size value other.toNat
  | .increment true => preIncrement Size value
  | .increment false => (postIncrement Size value).map Prod.snd
  | .decrement true => preDecrement Size value
  | .decrement false => (postDecrement Size value).map Prod.snd

end SafeUint_t
end OrbiterSDK
