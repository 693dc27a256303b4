import Mathlib.Data.BitVec
import Mathlib.Data.Nat.Sqrt
import Mathlib.Tactic.Common
import Mathlib.Tactic.NormNum

/-! Byte strings, fixed-size identifiers, checked 256-bit integers and transactions. -/

namespace OrbiterSDK

abbrev Bytes := List UInt8
abbrev Address := BitVec 160
abbrev Hash := BitVec 256
abbrev Functor := BitVec 32
abbrev Uint256 := BitVec 256

/-- What an exception says, its `what()`. -/
abbrev Exception := String

namespace Utils

/-- The `width` low bytes of a number, most significant first. -/
def uintToBytes : Nat → Nat → Bytes
  | 0, _ => []
  | width + 1, value => uintToBytes width (value / 256) ++ [UInt8.ofNat value]

def bytesToUint (bytes : Bytes) : Nat := bytes.foldl (fun value byte => value * 256 + byte.toNat) 0

/-- The number of bytes of an integer without leading zeros: shift right by eight until nothing is left. -/
def bytesRequired (value : Nat) : Nat := if value = 0 then 0 else bytesRequired (value / 256) + 1
  termination_by value
  decreasing_by omega

/-- `Hex::fromBytes` without the prefix. -/
def hexFromBytes (bytes : Bytes) : String :=
  String.ofList (bytes.flatMap fun byte => [(byte.toNat / 16).digitChar, (byte.toNat % 16).digitChar])

end Utils

def Hash.get (hash : Hash) : Bytes := Utils.uintToBytes 32 hash.toNat

def Address.get (address : Address) : Bytes := Utils.uintToBytes 20 address.toNat

/-- The constructors from a byte string of the right size. -/
def Hash.ofBytes (bytes : Bytes) : Hash := BitVec.ofNat 256 (Utils.bytesToUint bytes)

def Address.ofBytes (bytes : Bytes) : Address := BitVec.ofNat 160 (Utils.bytesToUint bytes)

def Functor.ofBytes (bytes : Bytes) : Functor := BitVec.ofNat 32 (Utils.bytesToUint bytes)

namespace Uint256

def overflow : Exception := "value overflows the maximum allowable magnitude"

def negative : Exception := "attempt to assign a negative value to an unsigned type"

def outOfRange : Exception := "the source value is out of range for the target type"

def add (left right : Uint256) : Except Exception Uint256 :=
  if left.toNat + right.toNat < 2 ^ 256 then .ok (BitVec.ofNat 256 (left.toNat + right.toNat)) else .error overflow

def sub (left right : Uint256) : Except Exception Uint256 :=
  if right.toNat ≤ left.toNat then .ok (BitVec.ofNat 256 (left.toNat - right.toNat)) else .error negative

def mul (left right : Uint256) : Except Exception Uint256 :=
  if left.toNat * right.toNat < 2 ^ 256 then .ok (BitVec.ofNat 256 (left.toNat * right.toNat)) else .error overflow

def div (left right : Uint256) : Except Exception Uint256 :=
  if right = 0 then .error "Division by zero." else .ok (left / right)

/-- The integer part of the root. -/
def sqrt (value : Uint256) : Uint256 := BitVec.ofNat 256 value.toNat.sqrt

/-- `static_cast` to a narrower built-in type that holds the values below `bound`. -/
def narrow (bound : Nat) (value : Uint256) : Except Exception Nat :=
  if value.toNat < bound then .ok value.toNat else .error outOfRange

end Uint256

/-- `std::tuple<Address, Address, uint256_t, uint256_t, uint256_t, Functor, BytesArrView, BytesArrView>`. -/
structure EthCallInfo where
  «from» : Address
  «to» : Address
  gasLimit : Uint256
  gasPrice : Uint256
  value : Uint256
  functor : Functor
  data : Bytes
  fullData : Bytes
  deriving DecidableEq

structure TxBlock where
  «to» : Address
  «from» : Address
  data : Bytes
  chainId : UInt64
  nonce : Uint256
  value : Uint256
  maxPriorityFeePerGas : Uint256
  maxFeePerGas : Uint256
  gasLimit : Uint256
  v : UInt8
  r : Uint256
  s : Uint256
  hash : Hash
  deriving DecidableEq

def TxBlock.txToCallInfo (tx : TxBlock) : EthCallInfo where
  «from» := tx.from
  «to» := tx.to
  gasLimit := tx.gasLimit
  gasPrice := tx.maxFeePerGas
  value := tx.value
  functor := if 4 ≤ tx.data.length then Functor.ofBytes (tx.data.take 4) else 0
  data := if 4 < tx.data.length then tx.data.drop 4 else []
  fullData := tx.data

structure TxValidator where
  «from» : Address
  data : Bytes
  chainId : UInt64
  nHeight : UInt64
  v : Uint256
  r : Uint256
  s : Uint256
  hash : Hash
  deriving DecidableEq

namespace Utils

theorem uintToBytes_length (width value : Nat) : (uintToBytes width value).length = width := by
  induction width generalizing value with
  | zero => rfl
  | succ width ih => rw [uintToBytes, List.length_append, ih, List.length_singleton]

theorem uintToBytes_injective {width left right : Nat} (leftFits : left < 256 ^ width) (rightFits : right < 256 ^ width)
    (same : uintToBytes width left = uintToBytes width right) : left = right := by
  induction width generalizing left right with
  | zero => omega
  | succ width ih =>
    obtain ⟨high, low⟩ := List.append_inj' same rfl
    have upper : left / 256 = right / 256 :=
      ih (Nat.div_lt_of_lt_mul (by rwa [← pow_succ'])) (Nat.div_lt_of_lt_mul (by rwa [← pow_succ'])) high
    have lower : left % 256 = right % 256 := by
      have bytes := congrArg UInt8.toNat (List.singleton_inj.mp low)
      simpa using bytes
    omega

end Utils

theorem Hash.get_length (hash : Hash) : hash.get.length = 32 := Utils.uintToBytes_length 32 _

theorem Hash.get_injective {left right : Hash} (same : left.get = right.get) : left = right := by
  have bound : (2 : Nat) ^ 256 = 256 ^ 32 := by norm_num
  exact BitVec.eq_of_toNat_eq
    (Utils.uintToBytes_injective (bound ▸ left.isLt) (bound ▸ right.isLt) same)

namespace Uint256

theorem add_eq_ok {left right sum : Uint256} :
    add left right = .ok sum ↔ sum.toNat = left.toNat + right.toNat := by
  have bound := sum.isLt
  unfold add
  split
  case isTrue fits =>
    rw [Except.ok.injEq, ← BitVec.toNat_inj, BitVec.toNat_ofNat, Nat.mod_eq_of_lt fits, eq_comm]
  case isFalse wide =>
    constructor
    · intro impossible
      cases impossible
    · intro exact
      omega

theorem sub_eq_ok {left right rest : Uint256} :
    sub left right = .ok rest ↔ left.toNat = rest.toNat + right.toNat := by
  have bound := left.isLt
  unfold sub
  split
  case isTrue fits =>
    rw [Except.ok.injEq, ← BitVec.toNat_inj, BitVec.toNat_ofNat, Nat.mod_eq_of_lt (by omega)]
    omega
  case isFalse small =>
    constructor
    · intro impossible
      cases impossible
    · intro exact
      omega

theorem div_eq_ok {left right quotient : Uint256} :
    div left right = .ok quotient ↔ right.toNat ≠ 0 ∧ quotient.toNat = left.toNat / right.toNat := by
  unfold div
  split
  case isTrue zero =>
    constructor
    · intro impossible
      cases impossible
    · rintro ⟨nonzero, _⟩
      exact absurd (congrArg BitVec.toNat zero) nonzero
  case isFalse nonzero =>
    rw [Except.ok.injEq, ← BitVec.toNat_inj, BitVec.toNat_udiv, eq_comm]
    exact (and_iff_right fun zero => nonzero (BitVec.eq_of_toNat_eq zero)).symm

theorem sqrt_toNat (value : Uint256) : (sqrt value).toNat = value.toNat.sqrt := by
  have bound : value.toNat.sqrt < 2 ^ 256 := (Nat.sqrt_le_self _).trans_lt value.isLt
  rw [sqrt, BitVec.toNat_ofNat, Nat.mod_eq_of_lt bound]

theorem add_done {left right : Uint256} (fits : left.toNat + right.toNat < 2 ^ 256) : ∃ sum, add left right = .ok sum :=
  ⟨_, if_pos fits⟩

theorem sub_done {left right : Uint256} (enough : right.toNat ≤ left.toNat) : ∃ rest, sub left right = .ok rest :=
  ⟨_, if_pos enough⟩

theorem mul_done {left right : Uint256} (fits : left.toNat * right.toNat < 2 ^ 256) : ∃ product, mul left right = .ok product :=
  ⟨_, if_pos fits⟩

theorem div_done {left right : Uint256} (nonzero : right.toNat ≠ 0) : ∃ quotient, div left right = .ok quotient :=
  ⟨_, if_neg fun zero => nonzero (congrArg BitVec.toNat zero)⟩

theorem mul_eq_ok {left right product : Uint256} :
    mul left right = .ok product ↔ product.toNat = left.toNat * right.toNat := by
  have bound := product.isLt
  unfold mul
  split
  case isTrue fits =>
    rw [Except.ok.injEq, ← BitVec.toNat_inj, BitVec.toNat_ofNat, Nat.mod_eq_of_lt fits, eq_comm]
  case isFalse wide =>
    constructor
    · intro impossible
      cases impossible
    · intro exact
      omega

end Uint256
end OrbiterSDK
