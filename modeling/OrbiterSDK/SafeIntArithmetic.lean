import OrbiterSDK.SafeUintArithmetic

/-! The arithmetic operators of `SafeInt_t`. The widths that are types of the language
have two's complement limits, the integers of the library a sign and a magnitude of the
full width. -/

namespace OrbiterSDK.SafeInt_t
open Lib
variable (Size : Nat)

/-- `std::numeric_limits<int_t>`. -/
def limits_max : Int := if Native Size then 2 ^ (Size - 1) - 1 else 2 ^ Size - 1

def limits_min : Int := if Native Size then -2 ^ (Size - 1) else -(2 ^ Size - 1)

def InRange (value : Int) : Prop := limits_min Size ≤ value ∧ value ≤ limits_max Size

instance (value : Int) : Decidable (InRange Size value) := inferInstanceAs (Decidable (_ ∧ _))

/-- An integer of the width. -/
abbrev Value : Type := { value : Int // InRange Size value }

/-- An expression of the width, or of type `int` where the width is promoted. -/
def expression (exact : Int) : Arithmetic :=
  if Promoted Size then intExpression exact
  else if InRange Size exact then .ok exact
  else .error (if Native Size then .undefined else .exception Uint256.overflow)

/-- A promoted value is converted back when it is stored. -/
def store (value : Int) : Arithmetic := .ok (if Promoted Size then value.bmod (2 ^ Size) else value)

/-- Division rounds to zero, and is an expression of its own that may leave the type. -/
def divide (left right : Int) : Arithmetic :=
  if right = 0 then .error (if Native Size then .undefined else .exception divisionByZero)
  else expression Size (left.tdiv right)

/-- In the language the remainder is defined only where the quotient is. -/
def modulo (left right : Int) : Arithmetic :=
  if right = 0 then .error (if Native Size then .undefined else .exception divisionByZero)
  else if Native Size then do
    let _ ← expression Size (left.tdiv right)
    return left.tmod right
  else .ok (left.tmod right)

/-- `if (applies && value > bound) throw what;`, where the bound is computed only if it applies. -/
def refuseAbove (applies : Prop) [Decidable applies] (bound : Arithmetic) (value : Int) (what : Exception) :
    Except (Fault Exception) Unit :=
  if applies then bound >>= fun bound => Fault.refuse (bound < value) what else .ok ()

def refuseBelow (applies : Prop) [Decidable applies] (bound : Arithmetic) (value : Int) (what : Exception) :
    Except (Fault Exception) Unit :=
  if applies then bound >>= fun bound => Fault.refuse (value < bound) what else .ok ()

def plus (overflow underflow : Exception) (value other : Int) : Arithmetic := do
  refuseAbove (0 < other) (expression Size (limits_max Size - other)) value overflow
  refuseBelow (other < 0) (expression Size (limits_min Size - other)) value underflow
  let sum ← expression Size (value + other)
  store Size sum

def minus (overflow underflow : Exception) (value other : Int) : Arithmetic := do
  refuseAbove (other < 0) (expression Size (limits_max Size + other)) value overflow
  refuseBelow (0 < other) (expression Size (limits_min Size + other)) value underflow
  let rest ← expression Size (value - other)
  store Size rest

def times (overflow underflow : Exception) (value other : Int) : Arithmetic := do
  refuseAbove True (divide Size (limits_max Size) other) value overflow
  refuseBelow True (divide Size (limits_min Size) other) value underflow
  let product ← expression Size (value * other)
  store Size product

def dividedBy (zero overflow : Exception) (value other : Int) : Arithmetic := do
  Fault.refuse (other = 0) zero
  Fault.refuse (value = limits_min Size ∧ other = -1) overflow
  let quotient ← divide Size value other
  store Size quotient

def remainderBy (zero : Exception) (value other : Int) : Arithmetic := do
  Fault.refuse (other = 0) zero
  let remainder ← modulo Size value other
  store Size remainder

def increment (what : Exception) (value : Int) : Arithmetic := do
  Fault.refuse (value = limits_max Size) what
  let next ← expression Size (value + 1)
  store Size next

def decrement (what : Exception) (value : Int) : Arithmetic := do
  Fault.refuse (value = limits_min Size) what
  let next ← expression Size (value - 1)
  store Size next

/-! ## The operators -/

def add : Int → Int → Arithmetic :=
  plus Size "Overflow in addition operation." "Underflow in addition operation."

def sub : Int → Int → Arithmetic :=
  minus Size "Overflow in subtraction operation." "Underflow in subtraction operation."

def mul (value other : Int) : Arithmetic := do
  Fault.refuse (value = 0 ∨ other = 0) "Multiplication by zero."
  times Size "Overflow in multiplication operation." "Underflow in multiplication operation." value other

def div : Int → Int → Arithmetic := dividedBy Size "Division by zero" "Overflow in division operation."

def mod : Int → Int → Arithmetic := remainderBy Size "Modulus by zero"

def addAssign : Int → Int → Arithmetic :=
  plus Size "Overflow in addition assignment operation." "Underflow in addition assignment operation."

def subAssign : Int → Int → Arithmetic :=
  minus Size "Overflow in subtraction assignment operation." "Underflow in subtraction assignment operation."

/-- Unlike the plain form this one divides without looking at the operand. -/
def mulAssign : Int → Int → Arithmetic :=
  times Size "Overflow in multiplication assignment operation." "Underflow in multiplication assignment operation."

def divAssign : Int → Int → Arithmetic :=
  dividedBy Size "Division assignment by zero." "Overflow in division assignment operation."

def modAssign : Int → Int → Arithmetic := remainderBy Size "Modulus assignment by zero."

def preIncrement : Int → Arithmetic := increment Size "Overflow in prefix increment operation."

def preDecrement : Int → Arithmetic := decrement Size "Underflow in prefix decrement operation."

/-- The postfix forms return the value before, and leave the new one behind. -/
def postIncrement (value : Int) : Except (Fault Exception) (Int × Int) := do
  let after ← increment Size "Overflow in postfix increment operation." value
  return (value, after)

def postDecrement (value : Int) : Except (Fault Exception) (Int × Int) := do
  let after ← decrement Size "Underflow in postfix decrement operation." value
  return (value, after)

/-- An operator applied to an operand, in the plain or the assigning form. -/
inductive Call where
  | int (operator : SafeUint_t.Operator) (assigns : Bool) (other : Value Size)
  | increment (before : Bool)
  | decrement (before : Bool)

/-- What the plain forms return and the others leave in the variable. On a fault nothing
has been stored. -/
def Call.run {Size : Nat} (value : Int) : Call Size → Arithmetic
  | .int .add false other => add Size value other.val
  | .int .sub false other => sub Size value other.val
  | .int .mul false other => mul Size value other.val
  | .int .div false other => div Size value other.val
  | .int .mod false other => mod Size value other.val
  | .int .add true other => addAssign Size value other.val
  | .int .sub true other => subAssign Size value other.val
  | .int .mul true other => mulAssign Size value other.val
  | .int .div true other => divAssign Size value other.val
  | .int .mod true other => modAssign Size value other.val
  | .increment true => preIncrement Size value
  | .increment false => (postIncrement Size value).map Prod.snd
  | .decrement true => preDecrement Size value
  | .decrement false => (postDecrement Size value).map Prod.snd

end OrbiterSDK.SafeInt_t
