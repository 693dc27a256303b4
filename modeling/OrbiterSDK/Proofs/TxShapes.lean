import OrbiterSDK.Proofs.TxRoundTrip

/-! Byte strings that a transaction is written as, in terms of the bytes alone. Reading
accepts others as well. -/

namespace OrbiterSDK.Proofs.TxShapes
open Utils Tx ByteStrings TxItems TxRoundTrip

/-- No leading zeros. -/
def Unpadded (bytes : Bytes) : Prop := bytes.head? ≠ some 0

instance (bytes : Bytes) : Decidable (Unpadded bytes) := inferInstanceAs (Decidable (_ ≠ _))

theorem unpadded_value {bytes : Bytes} (tight : Unpadded bytes) : unpadded (bytesToUint bytes) = bytes := by
  have size : bytesRequired (bytesToUint bytes) = bytes.length := by
    refine Nat.le_antisymm (bytesRequired_le_iff.mpr (bytesToUint_lt bytes)) ?_
    cases bytes with
    | nil => exact Nat.zero_le _
    | cons byte rest =>
      by_contra fewer
      have small : bytesToUint (byte :: rest) < 256 ^ rest.length :=
        bytesRequired_le_iff.mp (by rw [List.length_cons] at fewer; omega)
      have some : 0 < byte.toNat := Nat.pos_of_ne_zero fun zero => tight (congrArg Option.some (UInt8.toNat_inj.mp zero))
      have most : 256 ^ rest.length ≤ byte.toNat * 256 ^ rest.length := Nat.le_mul_of_pos_left _ some
      rw [bytesToUint_cons] at small
      exact absurd small (Nat.not_lt.mpr (most.trans (Nat.le_add_right _ _)))
  rw [unpadded, size]
  exact uintToBytes_bytesToUint bytes

theorem unpadded_tight (value : Nat) : Unpadded (unpadded value) := by
  intro leading
  cases bytes : unpadded value with
  | nil =>
    rw [bytes] at leading
    cases leading
  | cons byte rest =>
    rw [bytes] at leading
    obtain rfl : byte = 0 := Option.some.inj leading
    have same := bytesToUint_unpadded value
    have size := unpadded_length value
    rw [bytes, List.length_cons] at size
    rw [bytes, bytesToUint_cons, show (0 : UInt8).toNat = 0 from rfl, Nat.zero_mul, Nat.zero_add] at same
    have fewer : bytesRequired value ≤ rest.length := bytesRequired_le_iff.mpr (same ▸ bytesToUint_lt rest)
    omega

/-- An integer: a byte below 0x80 as itself but zero as an empty string, a larger one behind its length. -/
inductive UintShape (width : Nat) : Bytes → Prop where
  | zero : UintShape width [0x80]
  | byte {value : UInt8} (some : value ≠ 0) (small : value < 0x80) : UintShape width [value]
  | string {payload : Bytes} (few : payload.length ≤ width) (tight : Unpadded payload) (large : 0x80 ≤ bytesToUint payload) :
      UintShape width (UInt8.ofNat (payload.length + 0x80) :: payload)

/-- A number of the signature: always behind its length. -/
inductive ScalarShape : Bytes → Prop where
  | string {payload : Bytes} (few : payload.length ≤ 32) (tight : Unpadded payload) :
      ScalarShape (UInt8.ofNat (payload.length + 0x80) :: payload)

/-- The receiver: twenty bytes that are not all zero, or no bytes. -/
inductive ToShape : Bytes → Prop where
  | zero : ToShape [0x80]
  | address {payload : Bytes} (size : payload.length = 20) (some : bytesToUint payload ≠ 0) : ToShape (0x94 :: payload)

/-- The data: behind its length, which from 56 bytes on has a length itself. -/
inductive DataShape : Bytes → Prop where
  | short {data : Bytes} (few : data.length < 55) : DataShape (UInt8.ofNat (data.length + 0x80) :: data)
  | long {size data : Bytes} (many : 55 < data.length) (tight : Unpadded size) (holds : bytesToUint size = data.length) :
      DataShape (UInt8.ofNat (size.length + 0xb7) :: (size ++ data))

inductive VShape : Bytes → Prop where
  | zero : VShape [0x80]
  | one : VShape [0x01]

variable {item : Bytes}

theorem uintShape_iff {width : Nat} (some : 0 < width) :
    UintShape width item ↔ ∃ value, value < 256 ^ width ∧ item = uintItem value := by
  constructor
  · rintro (_ | ⟨nonzero, small⟩ | ⟨few, tight, large⟩)
    · exact ⟨0, by positivity, rfl⟩
    case byte value =>
      have below : value.toNat < 0x80 := UInt8.lt_iff_toNat_lt.mp small
      have wide : 256 ^ 1 ≤ 256 ^ width := Nat.pow_le_pow_right (by omega) some
      have apart : value.toNat ≠ 0 := fun zero => nonzero (UInt8.toNat_inj.mp zero)
      refine ⟨value.toNat, by omega, ?_⟩
      rw [uintItem, if_neg apart, if_pos below, UInt8.ofNat_toNat]
    case string payload =>
      have wide : 256 ^ payload.length ≤ 256 ^ width := Nat.pow_le_pow_right (by omega) few
      refine ⟨bytesToUint payload, (bytesToUint_lt payload).trans_le wide, ?_⟩
      have size := unpadded_length (bytesToUint payload)
      rw [unpadded_value tight] at size
      rw [uintItem, if_neg (by omega), if_neg (by omega), unpadded_value tight, size]
  · rintro ⟨value, fits, rfl⟩
    unfold uintItem
    by_cases zero : value = 0
    · rw [if_pos zero]
      exact .zero
    · rw [if_neg zero]
      split
      case isTrue small =>
        have nonzero : UInt8.ofNat value ≠ 0 := by
          intro none
          have same := congrArg UInt8.toNat none
          rw [UInt8.toNat_ofNat', Nat.mod_eq_of_lt (by omega)] at same
          exact zero same
        exact .byte nonzero ((@ofNat_lt_ofNat _ 0x80 (by omega) (by omega)).mpr small)
      case isFalse large =>
        rw [← unpadded_length]
        refine .string ?_ (unpadded_tight value) ?_
        · rw [unpadded_length]
          exact bytesRequired_le_iff.mpr fits
        · rw [bytesToUint_unpadded]
          omega

theorem scalarShape_iff : ScalarShape item ↔ ∃ value, value < 256 ^ 32 ∧ item = scalarItem value := by
  constructor
  · rintro @⟨payload, few, tight⟩
    have wide : 256 ^ payload.length ≤ 256 ^ 32 := Nat.pow_le_pow_right (by omega) few
    refine ⟨bytesToUint payload, (bytesToUint_lt payload).trans_le wide, ?_⟩
    have size := unpadded_length (bytesToUint payload)
    rw [unpadded_value tight] at size
    rw [scalarItem, unpadded_value tight, size]
  · rintro ⟨value, fits, rfl⟩
    rw [scalarItem, ← unpadded_length]
    refine .string ?_ (unpadded_tight value)
    rw [unpadded_length]
    exact bytesRequired_le_iff.mpr fits

theorem toShape_iff : ToShape item ↔ ∃ «to» : Address, item = if «to» = 0 then [0x80] else 0x94 :: «to».get := by
  have bound : (2 : Nat) ^ 160 = 256 ^ 20 := by norm_num
  constructor
  · rintro (_ | ⟨size, some⟩)
    · exact ⟨0, rfl⟩
    case address payload =>
      have fits : bytesToUint payload < 2 ^ 160 := by
        have held := bytesToUint_lt payload
        rw [size] at held
        omega
      have value : (Address.ofBytes payload).toNat = bytesToUint payload := by
        rw [Address.ofBytes, BitVec.toNat_ofNat, Nat.mod_eq_of_lt fits]
      refine ⟨Address.ofBytes payload, ?_⟩
      have nonzero : Address.ofBytes payload ≠ 0 := by
        intro zero
        rw [zero] at value
        exact some value.symm
      rw [if_neg nonzero, Address.get, value, ← size, uintToBytes_bytesToUint]
  · rintro ⟨«to», rfl⟩
    split
    · exact .zero
    case isFalse some =>
      refine .address (uintToBytes_length 20 _) fun zero => some ?_
      rw [Address.get, bytesToUint_uintToBytes (bound ▸ «to».isLt)] at zero
      exact BitVec.eq_of_toNat_eq zero

theorem dataShape_iff : DataShape item ↔ ∃ data, data.length ≠ 55 ∧ item = dataItem data := by
  constructor
  · rintro (⟨few⟩ | ⟨many, tight, holds⟩)
    case short data =>
      refine ⟨data, by omega, ?_⟩
      unfold dataItem
      by_cases empty : data.length = 0
      · rw [if_pos empty, List.eq_nil_of_length_eq_zero empty]
        rfl
      · rw [if_neg empty, if_pos (by omega)]
    case long size data =>
      refine ⟨data, by omega, ?_⟩
      have length := unpadded_length (bytesToUint size)
      rw [unpadded_value tight, holds] at length
      rw [dataItem, if_neg (by omega), if_neg (by omega), ← holds, unpadded_value tight, holds, length]
  · rintro ⟨data, apart, rfl⟩
    unfold dataItem
    split
    case isTrue empty => exact @DataShape.short [] (by decide)
    case isFalse =>
      split
      · exact .short (by omega)
      · rw [← unpadded_length]
        exact .long (by omega) (unpadded_tight _) (bytesToUint_unpadded _)

theorem vShape_iff : VShape item ↔ ∃ v : UInt8, v ≤ 1 ∧ item = if v = 0 then [0x80] else [v] := by
  constructor
  · rintro (_ | _)
    · exact ⟨0, by decide, rfl⟩
    · exact ⟨1, by decide, rfl⟩
  · rintro ⟨v, small, rfl⟩
    split
    · exact .zero
    case isFalse some =>
      have bound : v.toNat ≤ 1 := UInt8.le_iff_toNat_le.mp small
      have nonzero : v.toNat ≠ 0 := fun zero => some (UInt8.toNat_inj.mp zero)
      obtain rfl : v = 1 := UInt8.toNat_inj.mp (by show v.toNat = 1; omega)
      exact .one

/-- The bytes of a transaction: a list of more than 55 bytes behind the length of its twelve
items, each of its shape, and nothing after them. -/
inductive Exact : Bytes → Prop where
  | list {size chainId nonce maxPriorityFeePerGas maxFeePerGas gasLimit receiver value data v r s payload : Bytes}
      (isChainId : UintShape 8 chainId) (isNonce : UintShape 8 nonce) (isPriority : UintShape 32 maxPriorityFeePerGas)
      (isFee : UintShape 32 maxFeePerGas) (isGasLimit : UintShape 8 gasLimit) (isReceiver : ToShape receiver)
      (isValue : UintShape 32 value) (isData : DataShape data) (isV : VShape v) (isR : ScalarShape r) (isS : ScalarShape s)
      (items : payload = [chainId, nonce, maxPriorityFeePerGas, maxFeePerGas, gasLimit, receiver, value, data, [0xc0], v, r,
        s].flatten)
      (long : 55 < payload.length) (tight : Unpadded size) (holds : bytesToUint size = payload.length) :
      Exact (0x02 :: (UInt8.ofNat (size.length + 0xf7) :: size ++ payload))

/-- Transactions that are read back from what they are written as. -/
structure Written (tx : TxBlock) : Prop where
  nonce : tx.nonce.toNat < 2 ^ 64
  gasLimit : tx.gasLimit.toNat < 2 ^ 64
  data : tx.data.length ≠ 55
  v : tx.v ≤ 1
  long : 55 < tx.totalSize true

theorem exists_uint256 (shape : ∃ value, value < 256 ^ 32 ∧ item = uintItem value) :
    ∃ value : Uint256, item = uintItem value.toNat := by
  obtain ⟨value, fits, rfl⟩ := shape
  refine ⟨BitVec.ofNat 256 value, ?_⟩
  rw [BitVec.toNat_ofNat, Nat.mod_eq_of_lt (by norm_num at fits ⊢; exact fits)]

theorem exists_scalar (shape : ScalarShape item) : ∃ value : Uint256, item = scalarItem value.toNat := by
  obtain ⟨value, fits, rfl⟩ := scalarShape_iff.mp shape
  refine ⟨BitVec.ofNat 256 value, ?_⟩
  rw [BitVec.toNat_ofNat, Nat.mod_eq_of_lt (by norm_num at fits ⊢; exact fits)]

theorem exists_uint64 (shape : UintShape 8 item) : ∃ value : UInt64, item = uintItem value.toNat := by
  obtain ⟨value, fits, rfl⟩ := (uintShape_iff (by decide)).mp shape
  refine ⟨UInt64.ofNat value, ?_⟩
  rw [UInt64.toNat_ofNat', Nat.mod_eq_of_lt (by norm_num at fits ⊢; exact fits)]

private theorem exists_low (shape : UintShape 8 item) :
    ∃ value : Uint256, value.toNat < 2 ^ 64 ∧ item = uintItem value.toNat := by
  obtain ⟨value, rfl⟩ := exists_uint64 shape
  have fits := value.toNat_lt
  refine ⟨BitVec.ofNat 256 value.toNat, ?_⟩
  rw [BitVec.toNat_ofNat, Nat.mod_eq_of_lt (by omega)]
  exact ⟨fits, rfl⟩

theorem shape_uint256 (value : Uint256) : UintShape 32 (uintItem value.toNat) :=
  (uintShape_iff (by decide)).mpr ⟨_, bytesRequired_le_iff.mp (bytesRequired_uint256 value), rfl⟩

theorem shape_scalar (value : Uint256) : ScalarShape (scalarItem value.toNat) :=
  scalarShape_iff.mpr ⟨_, bytesRequired_le_iff.mp (bytesRequired_uint256 value), rfl⟩

theorem exact_iff {bytes : Bytes} : Exact bytes ↔ ∃ tx, Written tx ∧ bytes = tx.rlpSerialize true := by
  constructor
  · rintro ⟨isChainId, isNonce, isPriority, isFee, isGasLimit, isReceiver, isValue, isData, isV, isR, isS, items, long, tight, holds⟩
    obtain ⟨chainId, rfl⟩ := exists_uint64 isChainId
    obtain ⟨nonce, nonceFits, rfl⟩ := exists_low isNonce
    obtain ⟨maxPriorityFeePerGas, rfl⟩ := exists_uint256 ((uintShape_iff (by decide)).mp isPriority)
    obtain ⟨maxFeePerGas, rfl⟩ := exists_uint256 ((uintShape_iff (by decide)).mp isFee)
    obtain ⟨gasLimit, gasFits, rfl⟩ := exists_low isGasLimit
    obtain ⟨receiver, rfl⟩ := toShape_iff.mp isReceiver
    obtain ⟨value, rfl⟩ := exists_uint256 ((uintShape_iff (by decide)).mp isValue)
    obtain ⟨data, apart, rfl⟩ := dataShape_iff.mp isData
    obtain ⟨v, small, rfl⟩ := vShape_iff.mp isV
    obtain ⟨r, rfl⟩ := exists_scalar isR
    obtain ⟨s, rfl⟩ := exists_scalar isS
    let tx : TxBlock :=
      { «to» := receiver, «from» := 0, data, chainId, nonce, value, maxPriorityFeePerGas, maxFeePerGas, gasLimit, v, r, s, hash := 0 }
    have payload := totalSize_eq tx true
    rw [show (tx.items ++ if true then tx.sigItems else []).flatten = _ from items.symm] at payload
    refine ⟨tx, ⟨nonceFits, gasFits, apart, small, payload ▸ long⟩, ?_⟩
    rw [TxBlock.rlpSerialize, listHeader_long (payload ▸ long), ← payload, ← holds, unpadded_value tight, items]
    rfl
  · rintro ⟨tx, written, rfl⟩
    have payload := totalSize_eq tx true
    have chainId : UintShape 8 (uintItem tx.chainId.toNat) := (uintShape_iff (by decide)).mpr ⟨_, tx.chainId.toNat_lt, rfl⟩
    have nonce : UintShape 8 (uintItem tx.nonce.toNat) := (uintShape_iff (by decide)).mpr ⟨_, written.nonce, rfl⟩
    have gasLimit : UintShape 8 (uintItem tx.gasLimit.toNat) := (uintShape_iff (by decide)).mpr ⟨_, written.gasLimit, rfl⟩
    rw [TxBlock.rlpSerialize, listHeader_long written.long]
    exact .list chainId nonce (shape_uint256 _) (shape_uint256 _) gasLimit (toShape_iff.mpr ⟨tx.to, rfl⟩) (shape_uint256 _)
      (dataShape_iff.mpr ⟨tx.data, written.data, rfl⟩) (vShape_iff.mpr ⟨tx.v, written.v, rfl⟩) (shape_scalar tx.r)
      (shape_scalar tx.s) rfl (payload ▸ written.long) (unpadded_tight _) (by rw [bytesToUint_unpadded, payload])

theorem data_lt (tx : TxBlock) (addressable : (tx.rlpSerialize true).length < 2 ^ 63) : tx.data.length < 2 ^ 63 := by
  have total := totalSize_eq tx true
  have least := length_le_dataSize tx.data
  rw [TxBlock.rlpSerialize, List.length_cons, List.length_append] at addressable
  unfold TxBlock.totalSize at total
  rw [total] at addressable
  omega

variable {lib : Secp256k1} {sha3 : Bytes → Hash}

theorem exact_of_read {past : Bytes} {required : UInt64} {tx : TxBlock} (addressable : (tx.rlpSerialize true).length < 2 ^ 63)
    (read : TxBlock.ofBytes lib sha3 (tx.rlpSerialize true) past required = .ok tx) : Exact (tx.rlpSerialize true) := by
  obtain ⟨nonce, gasLimit, apart, long⟩ := serialized_read (data_lt tx addressable) read
  obtain ⟨_, _, fields, _, _, _, itemsRead, recovers⟩ := ofBytes_ok read
  have v : tx.v = fields.v := (congrArg TxBlock.v (recovered_eq_ok.mp recovers).2.2 :)
  exact exact_iff.mpr ⟨tx, ⟨nonce, gasLimit, apart, v ▸ (readItems_narrow itemsRead).v, long⟩, rfl⟩

theorem exact_reads {bytes : Bytes} (addressable : bytes.length < 2 ^ 63) (shape : Exact bytes) :
    ∃ fields : TxBlock, bytes = fields.rlpSerialize true ∧
      ∀ past required, TxBlock.ofBytes lib sha3 bytes past required = fields.recovered lib sha3 := by
  obtain ⟨other, written, rfl⟩ := exact_iff.mp shape
  refine ⟨{ other with
    «from» := 0
    hash := 0 }, rfl, fun past required => ?_⟩
  rw [ofBytes_serialized past required (data_lt other addressable) written.long written.data written.v,
    low64_eq_iff.mpr written.nonce, low64_eq_iff.mpr written.gasLimit]

theorem recovered_bytes {fields tx : TxBlock} (recovers : fields.recovered lib sha3 = .ok tx) :
    tx.rlpSerialize true = fields.rlpSerialize true := by
  obtain ⟨_, _, rfl⟩ := recovered_eq_ok.mp recovers
  rfl

/-- What is accepted is what the transaction is written as exactly if it has the shape. -/
theorem accepted_bytes_are_exact_iff {bytes past : Bytes} {required : UInt64} {tx : TxBlock}
    (accepted : TxBlock.ofBytes lib sha3 bytes past required = .ok tx) (addressable : bytes.length < 2 ^ 63) :
    bytes = tx.rlpSerialize true ↔ Exact bytes := by
  constructor
  · rintro rfl
    exact exact_of_read addressable accepted
  · intro shape
    obtain ⟨fields, same, reads⟩ := @exact_reads lib sha3 _ addressable shape
    rw [reads] at accepted
    exact same.trans (recovered_bytes accepted).symm

def transferPayload (trailing : Bytes) : Bytes :=
  [[0x01], [0x80], [0x01], [0x01], [0x82, 0x52, 0x08], 0x94 :: List.replicate 20 9, [0x01], [0x80], [0xc0], [0x80],
    0xa0 :: 0x80 :: List.replicate 31 0, 0xa0 :: 0x40 :: List.replicate 31 0].flatten ++ trailing

def transferBytes (trailing : Bytes) : Bytes :=
  0x02 :: 0xf8 :: UInt8.ofNat (transferPayload trailing).length :: transferPayload trailing

theorem trailing_byte_is_accepted : ∃ tx, TxBlock.ofBytes oneKeyCurve Hash.ofBytes (transferBytes [0xff]) [] 1 = .ok tx ∧
    transferBytes [0xff] ≠ tx.rlpSerialize true := by
  obtain ⟨tx, read⟩ := exists_ok (show (TxBlock.ofBytes oneKeyCurve Hash.ofBytes (transferBytes [0xff]) [] 1).isOk = true by
    decide +kernel)
  have differ : (TxBlock.ofBytes oneKeyCurve Hash.ofBytes (transferBytes [0xff]) [] 1).toOption.all fun tx =>
      transferBytes [0xff] ≠ tx.rlpSerialize true := by decide +kernel
  rw [read] at differ
  exact ⟨tx, read, of_decide_eq_true differ⟩

theorem transferBytes_exact : Exact (transferBytes []) := by
  have number : ∀ byte : UInt8, byte ≠ 0 → ScalarShape (0xa0 :: byte :: List.replicate 31 0) := fun byte some =>
    @ScalarShape.string (byte :: List.replicate 31 0) (by simp) fun leading => some (Option.some.inj leading)
  have one : ∀ {width}, UintShape width [0x01] := .byte (by decide) (by decide)
  exact @Exact.list [98] _ _ _ _ _ _ _ _ _ _ _ (transferPayload []) one .zero one one
    (@UintShape.string 8 [0x52, 0x08] (by decide) (by decide) (by decide))
    (@ToShape.address (List.replicate 20 9) rfl (by decide)) one (@DataShape.short [] (by decide)) .zero
    (number 0x80 (by decide)) (number 0x40 (by decide)) rfl (by decide) (by decide) (by decide)

theorem transfer_is_exact : ∃ tx, TxBlock.ofBytes oneKeyCurve Hash.ofBytes (transferBytes []) [] 1 = .ok tx ∧
    transferBytes [] = tx.rlpSerialize true := by
  obtain ⟨tx, read⟩ := exists_ok (show (TxBlock.ofBytes oneKeyCurve Hash.ofBytes (transferBytes []) [] 1).isOk = true by
    decide +kernel)
  exact ⟨tx, read, (accepted_bytes_are_exact_iff read (by decide)).mpr transferBytes_exact⟩

end OrbiterSDK.Proofs.TxShapes
