import OrbiterSDK.Proofs.TxShapes
import OrbiterSDK.Proofs.ValidatorRoundTrip

/-! Byte strings that a validator transaction is written as, in terms of the bytes alone. -/

namespace OrbiterSDK.Proofs.ValidatorShapes
open Utils Tx ByteStrings TxItems TxRoundTrip ValidatorRoundTrip TxShapes

/-- The bytes of a validator transaction: a list of more than 55 bytes behind the length of its
five items, each of its shape, and nothing after them. No chain id makes `v` zero. -/
inductive ExactValidator : Bytes → Prop where
  | list {size data nHeight v r s payload : Bytes} (isData : DataShape data) (isNHeight : UintShape 8 nHeight) (isV : UintShape 32 v)
      (folded : v ≠ [0x80]) (isR : ScalarShape r) (isS : ScalarShape s) (items : payload = [data, nHeight, v, r, s].flatten)
      (long : 55 < payload.length) (tight : Unpadded size) (holds : bytesToUint size = payload.length) :
      ExactValidator (UInt8.ofNat (size.length + 0xf7) :: size ++ payload)

/-- Validator transactions of which nothing is lost when they are written. -/
structure Written (tx : TxValidator) : Prop where
  data : tx.data.length ≠ 55
  folded : tx.v ≠ 0
  long : 55 < tx.totalSize true

private theorem uintItem_zero_iff {value : Uint256} : uintItem value.toNat = [0x80] ↔ value = 0 := by
  constructor
  · intro same
    by_contra some
    have nonzero : value.toNat ≠ 0 := fun zero => some (BitVec.eq_of_toNat_eq zero)
    unfold uintItem at same
    rw [if_neg nonzero] at same
    split at same
    case isTrue small =>
      have byte := congrArg UInt8.toNat (List.singleton_inj.mp same)
      rw [UInt8.toNat_ofNat', Nat.mod_eq_of_lt (by omega)] at byte
      have large : value.toNat = 0x80 := byte
      omega
    case isFalse =>
      have length := congrArg List.length same
      have some := bytesRequired_pos nonzero
      rw [List.length_cons, unpadded_length, List.length_singleton] at length
      omega
  · rintro rfl
    rfl

theorem exactValidator_iff {bytes : Bytes} : ExactValidator bytes ↔ ∃ tx, Written tx ∧ bytes = tx.rlpSerialize true := by
  constructor
  · rintro ⟨isData, isNHeight, isV, folded, isR, isS, items, long, tight, holds⟩
    obtain ⟨data, apart, rfl⟩ := dataShape_iff.mp isData
    obtain ⟨nHeight, rfl⟩ := exists_uint64 isNHeight
    obtain ⟨v, rfl⟩ := exists_uint256 ((uintShape_iff (by decide)).mp isV)
    obtain ⟨r, rfl⟩ := exists_scalar isR
    obtain ⟨s, rfl⟩ := exists_scalar isS
    have nonzero : v ≠ 0 := fun zero => folded (uintItem_zero_iff.mpr zero)
    let tx : TxValidator := { «from» := 0, data, chainId := 0, nHeight, v, r, s, hash := 0 }
    have payload := totalSize_eq tx true
    rw [signedItems_eq (show tx.v ≠ 0 from nonzero), show [dataItem tx.data, _, _, _, _].flatten = _ from items.symm] at payload
    refine ⟨tx, ⟨apart, nonzero, payload ▸ long⟩, ?_⟩
    rw [TxValidator.rlpSerialize, listHeader_long (payload ▸ long), ← payload, ← holds, unpadded_value tight,
      signedItems_eq (show tx.v ≠ 0 from nonzero), items]
  · rintro ⟨tx, written, rfl⟩
    have payload := totalSize_eq tx true
    have nHeight : UintShape 8 (uintItem tx.nHeight.toNat) := (uintShape_iff (by decide)).mpr ⟨_, tx.nHeight.toNat_lt, rfl⟩
    rw [TxValidator.rlpSerialize, listHeader_long written.long]
    exact .list (dataShape_iff.mpr ⟨tx.data, written.data, rfl⟩) nHeight (shape_uint256 tx.v)
      (fun zero => written.folded (uintItem_zero_iff.mp zero)) (shape_scalar tx.r) (shape_scalar tx.s)
      (congrArg List.flatten (signedItems_eq written.folded)) (payload ▸ written.long) (unpadded_tight _)
      (by rw [bytesToUint_unpadded, payload])

theorem data_lt (tx : TxValidator) (addressable : (tx.rlpSerialize true).length < 2 ^ 63) : tx.data.length < 2 ^ 63 := by
  have total := totalSize_eq tx true
  have least := length_le_dataSize tx.data
  rw [TxValidator.rlpSerialize, List.length_append] at addressable
  unfold TxValidator.totalSize at total
  rw [total] at addressable
  omega

variable {lib : Secp256k1} {sha3 : Bytes → Hash}

theorem exact_of_read {past : Bytes} {required : UInt64} {tx : TxValidator} (addressable : (tx.rlpSerialize true).length < 2 ^ 63)
    (read : TxValidator.ofBytes lib sha3 (tx.rlpSerialize true) past required = .ok tx) : ExactValidator (tx.rlpSerialize true) := by
  obtain ⟨some, folded, apart, long⟩ := serialized_read (data_lt tx addressable) read
  refine exactValidator_iff.mpr ⟨tx, ⟨apart, ?_, long⟩, rfl⟩
  intro zero
  rw [zero] at folded
  exact absurd folded (by simp)

theorem exact_reads {bytes : Bytes} (addressable : bytes.length < 2 ^ 63) (shape : ExactValidator bytes) :
    ∃ fields : TxValidator, bytes = fields.rlpSerialize true ∧
      ∀ past required, TxValidator.ofBytes lib sha3 bytes past required = fields.recovered lib sha3 := by
  obtain ⟨other, written, rfl⟩ := exactValidator_iff.mp shape
  exact ⟨{ other with
    «from» := 0
    chainId := 0
    hash := 0 }, rfl, fun past required =>
      ofBytes_serialized past required (data_lt other addressable) written.long written.data written.folded⟩

theorem recovered_bytes {fields tx : TxValidator} (recovers : fields.recovered lib sha3 = .ok tx) :
    tx.rlpSerialize true = fields.rlpSerialize true := by
  obtain ⟨_, _, _, _, _, rfl⟩ := recovered_eq_ok.mp recovers
  rfl

end OrbiterSDK.Proofs.ValidatorShapes
