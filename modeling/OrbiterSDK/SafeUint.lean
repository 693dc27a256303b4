import OrbiterSDK.Utils

/-! Integers of contracts, as far as the templates use their operators. They check their
range before the arithmetic of the integer itself does. -/

namespace OrbiterSDK

abbrev Uint112 := BitVec 112

namespace Uint112

/-- The constructor from a wider integer. -/
def ofUint256 (value : Uint256) : Except Exception Uint112 :=
  if value.toNat < 2 ^ 112 then .ok (BitVec.ofNat 112 value.toNat) else .error Uint256.overflow

/-- The conversion to the wider integer. -/
def wide (value : Uint112) : Uint256 := value.setWidth 256

def sub (left right : Uint112) : Except Exception Uint112 :=
  if right.toNat ≤ left.toNat then .ok (BitVec.ofNat 112 (left.toNat - right.toNat)) else .error Uint256.negative

@[simp] theorem wide_toNat (value : Uint112) : value.wide.toNat = value.toNat :=
  BitVec.toNat_setWidth_of_le (by decide)

theorem ofUint256_eq_ok {value : Uint256} {narrow : Uint112} : ofUint256 value = .ok narrow ↔ narrow.toNat = value.toNat := by
  have bound := narrow.isLt
  unfold ofUint256
  split
  case isTrue fits => rw [Except.ok.injEq, ← BitVec.toNat_inj, BitVec.toNat_ofNat, Nat.mod_eq_of_lt fits, eq_comm]
  case isFalse tooWide =>
    constructor
    · intro impossible
      cases impossible
    · intro exact
      omega

theorem sub_eq_ok {left right rest : Uint112} : sub left right = .ok rest ↔ left.toNat = rest.toNat + right.toNat := by
  have bound := left.isLt
  unfold sub
  split
  case isTrue fits =>
    rw [Except.ok.injEq, ← BitVec.toNat_inj, BitVec.toNat_ofNat, Nat.mod_eq_of_lt (by omega)]
    omega
  case isFalse small =>
    constructor
    · intro impossible
      cases impossible
    · intro exact
      omega

theorem ofUint256_done {value : Uint256} (fits : value.toNat < 2 ^ 112) : ∃ narrow, ofUint256 value = .ok narrow := ⟨_, if_pos fits⟩

theorem sub_done {left right : Uint112} (enough : right.toNat ≤ left.toNat) : ∃ rest, sub left right = .ok rest := ⟨_, if_pos enough⟩

end Uint112

namespace SafeUint

/-- `operator+=`. -/
def addAssign {width : Nat} (value other : BitVec width) : Except Exception (BitVec width) :=
  if 2 ^ width - 1 - other.toNat < value.toNat then .error "Overflow in addition assignment operation."
  else .ok (BitVec.ofNat width (value.toNat + other.toNat))

/-- `operator-=`. -/
def subAssign {width : Nat} (value other : BitVec width) : Except Exception (BitVec width) :=
  if value.toNat < other.toNat then .error "Underflow in subtraction assignment operation."
  else .ok (BitVec.ofNat width (value.toNat - other.toNat))

theorem addAssign_eq_ok {width : Nat} {value other sum : BitVec width} :
    addAssign value other = .ok sum ↔ sum.toNat = value.toNat + other.toNat := by
  have fitsSum := sum.isLt
  have fitsOther := other.isLt
  unfold addAssign
  split
  case isTrue wide =>
    constructor
    · intro impossible
      cases impossible
    · intro exact
      omega
  case isFalse fits =>
    have small : value.toNat + other.toNat < 2 ^ width := by omega
    rw [Except.ok.injEq, ← BitVec.toNat_inj, BitVec.toNat_ofNat, Nat.mod_eq_of_lt small, eq_comm]

theorem subAssign_eq_ok {width : Nat} {value other rest : BitVec width} :
    subAssign value other = .ok rest ↔ value.toNat = rest.toNat + other.toNat := by
  have fitsValue := value.isLt
  unfold subAssign
  split
  case isTrue small =>
    constructor
    · intro impossible
      cases impossible
    · intro exact
      omega
  case isFalse enough =>
    have small : value.toNat - other.toNat < 2 ^ width := by omega
    rw [Except.ok.injEq, ← BitVec.toNat_inj, BitVec.toNat_ofNat, Nat.mod_eq_of_lt small]
    omega

theorem addAssign_done {width : Nat} {value other : BitVec width} (fits : value.toNat + other.toNat < 2 ^ width) :
    ∃ sum, addAssign value other = .ok sum := by
  have small : ¬ 2 ^ width - 1 - other.toNat < value.toNat := by omega
  exact ⟨_, if_neg small⟩

end SafeUint
end OrbiterSDK
