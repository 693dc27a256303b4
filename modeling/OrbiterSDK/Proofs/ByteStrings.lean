import Mathlib.Data.Nat.Digits.Lemmas
import OrbiterSDK.Utils

/-! Numbers and their big-endian byte strings. -/

namespace OrbiterSDK.Proofs.ByteStrings
open Utils

theorem bytesRequired_eq_length (value : Nat) : bytesRequired value = (Nat.digits 256 value).length := by
  induction value using Nat.strong_induction_on with
  | h value ih =>
    rw [bytesRequired]
    by_cases zero : value = 0
    · simp [zero]
    · rw [if_neg zero, Nat.digits_def' (by omega) (by omega), List.length_cons, ih (value / 256) (by omega)]

theorem bytesRequired_le_iff {value width : Nat} : bytesRequired value ≤ width ↔ value < 256 ^ width := by
  rw [bytesRequired_eq_length]
  exact Nat.digits_length_le_iff (by omega) value

theorem lt_pow_bytesRequired (value : Nat) : value < 256 ^ bytesRequired value := bytesRequired_le_iff.mp le_rfl

theorem bytesRequired_pos {value : Nat} (some : value ≠ 0) : 0 < bytesRequired value := by
  by_contra none
  have small : value < 256 ^ 0 := bytesRequired_le_iff.mp (by omega)
  omega

theorem bytesRequired_uint64 (value : UInt64) : bytesRequired value.toNat ≤ 8 :=
  bytesRequired_le_iff.mpr value.toNat_lt

theorem bytesRequired_uint256 (value : Uint256) : bytesRequired value.toNat ≤ 32 :=
  bytesRequired_le_iff.mpr (by have bound := value.isLt; norm_num at bound ⊢; exact bound)

private theorem bytesToUint_from (bytes : Bytes) : ∀ start : Nat,
    bytes.foldl (fun value byte => value * 256 + byte.toNat) start = start * 256 ^ bytes.length + bytesToUint bytes := by
  unfold bytesToUint
  induction bytes with
  | nil => intro start; simp
  | cons byte rest ih =>
    intro start
    rw [List.foldl_cons, ih, List.foldl_cons, ih (0 * 256 + byte.toNat), List.length_cons, pow_succ]
    ring

@[simp] theorem bytesToUint_nil : bytesToUint [] = 0 := rfl

theorem bytesToUint_cons (byte : UInt8) (rest : Bytes) :
    bytesToUint (byte :: rest) = byte.toNat * 256 ^ rest.length + bytesToUint rest := by
  have here := bytesToUint_from rest byte.toNat
  rw [← here, bytesToUint, List.foldl_cons, Nat.zero_mul, Nat.zero_add]

theorem bytesToUint_append (front back : Bytes) :
    bytesToUint (front ++ back) = bytesToUint front * 256 ^ back.length + bytesToUint back := by
  unfold bytesToUint
  rw [List.foldl_append, bytesToUint_from]
  rfl

theorem bytesToUint_singleton (byte : UInt8) : bytesToUint [byte] = byte.toNat := by simp [bytesToUint_cons]

theorem bytesToUint_lt (bytes : Bytes) : bytesToUint bytes < 256 ^ bytes.length := by
  induction bytes with
  | nil => simp
  | cons byte rest ih =>
    have small := byte.toNat_lt
    rw [bytesToUint_cons, List.length_cons, pow_succ]
    nlinarith

theorem bytesToUint_uintToBytes {width value : Nat} (fits : value < 256 ^ width) :
    bytesToUint (uintToBytes width value) = value := by
  induction width generalizing value with
  | zero =>
    have zero : value = 0 := by simpa using fits
    rw [zero]
    rfl
  | succ width ih =>
    have upper : value / 256 < 256 ^ width := Nat.div_lt_of_lt_mul (by rwa [← pow_succ'])
    rw [uintToBytes, bytesToUint_append, ih upper, bytesToUint_singleton, List.length_singleton, pow_one]
    simp only [UInt8.toNat_ofNat']
    omega

theorem uintToBytes_bytesToUint (bytes : Bytes) : uintToBytes bytes.length (bytesToUint bytes) = bytes := by
  induction bytes using List.reverseRecOn with
  | nil => rfl
  | append_singleton front byte ih =>
    have small := byte.toNat_lt
    have value : bytesToUint (front ++ [byte]) = bytesToUint front * 256 + byte.toNat := by
      rw [bytesToUint_append, bytesToUint_singleton, List.length_singleton, pow_one]
    have upper : (bytesToUint front * 256 + byte.toNat) / 256 = bytesToUint front := by omega
    have lower : UInt8.ofNat (bytesToUint front * 256 + byte.toNat) = byte := by
      apply UInt8.toNat_inj.mp
      rw [UInt8.toNat_ofNat']
      omega
    rw [List.length_append, List.length_singleton, uintToBytes, value, upper, lower, ih]

section Codec
variable {bits width : Nat} (power : 2 ^ bits = 256 ^ width)
include power

theorem bitVec_ofBytes (value : BitVec bits) : BitVec.ofNat bits (bytesToUint (uintToBytes width value.toNat)) = value := by
  rw [bytesToUint_uintToBytes (power ▸ value.isLt), BitVec.ofNat_toNat, BitVec.setWidth_eq]

theorem bytes_ofBitVec {bytes : Bytes} (size : bytes.length = width) :
    uintToBytes width (BitVec.ofNat bits (bytesToUint bytes)).toNat = bytes := by
  have fits : bytesToUint bytes < 2 ^ bits := by
    rw [power, ← size]
    exact bytesToUint_lt bytes
  rw [BitVec.toNat_ofNat, Nat.mod_eq_of_lt fits, ← size, uintToBytes_bytesToUint]

end Codec

end OrbiterSDK.Proofs.ByteStrings
