import OrbiterSDK.Lib.Rlp
import OrbiterSDK.Proofs.TxRoundTrip

/-! What is written and signed, compared with the standard encoding. Wallets sign the
latter, so the sender of a transaction depends on the two being the same. -/

namespace OrbiterSDK.Proofs.Canonical
open Lib Utils Tx ByteStrings TxItems TxRoundTrip

theorem unpadded_eq_bigEndian (value : Nat) : unpadded value = Rlp.bigEndian value := by
  induction value using Nat.strong_induction_on with
  | h value ih =>
    by_cases zero : value = 0
    · rw [zero, unpadded_zero]
      rfl
    · have half := ih (value / 256) (by omega)
      rw [Rlp.bigEndian_eq_append zero, ← half, unpadded, bytesRequired, if_neg zero, uintToBytes, unpadded]
      congr 2
      apply UInt8.toNat_inj.mp
      rw [UInt8.toNat_ofNat', UInt8.toNat_ofNat']
      omega

theorem bigEndian_length (value : Nat) : (Rlp.bigEndian value).length = bytesRequired value := by
  rw [← unpadded_eq_bigEndian, unpadded_length]

/-- A number that is written behind a length although it could stand for itself. -/
def Low (value : Nat) : Prop := 0 < value ∧ value < 0x80

instance (value : Nat) : Decidable (Low value) := inferInstanceAs (Decidable (_ ∧ _))

/-- Data that is written behind a length although it could stand for itself. -/
def LowByte (data : Bytes) : Prop := ∃ byte : UInt8, byte < 0x80 ∧ data = [byte]

/-- Only one byte below 0x80 makes an integer stand for itself. -/
private theorem single_of_bigEndian {value : Nat} {byte : UInt8} (single : Rlp.bigEndian value = [byte]) : value = byte.toNat := by
  rw [← bytesToUint_unpadded value, unpadded_eq_bigEndian, single, bytesToUint_singleton]

theorem scalarItem_eq_integer {value : Nat} (fits : bytesRequired value ≤ 55) (tall : ¬ Low value) :
    scalarItem value = Rlp.integer value := by
  have more : ∀ byte, Rlp.bigEndian value = [byte] → ¬ byte < 0x80 := by
    intro byte single small
    have same := single_of_bigEndian single
    have below : byte.toNat < 0x80 := UInt8.lt_iff_toNat_lt.mp small
    have zero : value = 0 := by
      by_contra some
      exact tall ⟨by omega, by omega⟩
    rw [zero] at single
    cases single
  rw [Rlp.integer, Rlp.string_eq more, Rlp.header, if_pos (by rw [bigEndian_length]; exact fits), bigEndian_length,
    ← unpadded_eq_bigEndian, Nat.add_comm]
  rfl

theorem uintItem_eq_integer {value : Nat} (fits : bytesRequired value ≤ 55) : uintItem value = Rlp.integer value := by
  unfold uintItem
  by_cases zero : value = 0
  · rw [if_pos zero, zero]
    rfl
  · rw [if_neg zero]
    split
    case isTrue small =>
      have single := unpadded_small zero (by omega)
      rw [unpadded_eq_bigEndian] at single
      have below : UInt8.ofNat value < 0x80 := (@ofNat_lt_ofNat _ 0x80 (by omega) (by omega)).mpr small
      rw [Rlp.integer, single, Rlp.string, if_pos below]
    case isFalse large => exact scalarItem_eq_integer fits fun low => large low.2

theorem scalarItem_longer {value : Nat} (low : Low value) : (scalarItem value).length = (Rlp.integer value).length + 1 := by
  obtain ⟨some, small⟩ := low
  have single := unpadded_small (Nat.ne_of_gt some) (by omega)
  have below : UInt8.ofNat value < 0x80 := (@ofNat_lt_ofNat _ 0x80 (by omega) (by omega)).mpr small
  rw [scalarItem, single, Rlp.integer, ← unpadded_eq_bigEndian, single, Rlp.string, if_pos below]
  rfl

theorem dataItem_eq_string {data : Bytes} (tall : ¬ LowByte data) : dataItem data = Rlp.string data := by
  rw [Rlp.string_eq fun byte single small => tall ⟨byte, small, single⟩]
  unfold dataItem Rlp.header
  split
  case isTrue empty =>
    rw [List.eq_nil_of_length_eq_zero empty]
    rfl
  case isFalse =>
    split
    · rw [Nat.add_comm]
      rfl
    · rw [bigEndian_length, ← unpadded_eq_bigEndian, Nat.add_comm]
      rfl

theorem dataItem_longer {data : Bytes} (low : LowByte data) : (dataItem data).length = (Rlp.string data).length + 1 := by
  obtain ⟨byte, small, rfl⟩ := low
  rw [Rlp.string, if_pos small]
  rfl

theorem string_of_20 {payload : Bytes} (size : payload.length = 20) : Rlp.string payload = 0x94 :: payload := by
  have more : ∀ byte, payload = [byte] → ¬ byte < 0x80 := by
    intro byte single
    rw [single, List.length_singleton] at size
    omega
  rw [Rlp.string_eq more, size]
  rfl

theorem listHeader_eq (totalSize : Nat) : listHeader totalSize = Rlp.header 0xc0 0xf7 totalSize := by
  unfold listHeader Rlp.header
  split
  · rw [Nat.add_comm]
  · rw [bigEndian_length, ← unpadded_eq_bigEndian, Nat.add_comm]

section TxBlock
variable (tx : TxBlock)

/-- The standard encoding of the fields that are signed. -/
def canonicalItems : List Bytes :=
  [Rlp.integer tx.chainId.toNat, Rlp.integer tx.nonce.toNat, Rlp.integer tx.maxPriorityFeePerGas.toNat,
    Rlp.integer tx.maxFeePerGas.toNat, Rlp.integer tx.gasLimit.toNat, Rlp.string (if tx.to = 0 then [] else tx.to.get),
    Rlp.integer tx.value.toNat, Rlp.string tx.data, Rlp.list []]

def canonicalSig : List Bytes := [Rlp.integer tx.v.toNat, Rlp.integer tx.r.toNat, Rlp.integer tx.s.toNat]

def canonical (includeSig : Bool) : Bytes := 0x02 :: Rlp.list (canonicalItems tx ++ if includeSig then canonicalSig tx else [])

theorem rlpSerialize_eq (includeSig : Bool) :
    tx.rlpSerialize includeSig = 0x02 :: Rlp.list (tx.items ++ if includeSig then tx.sigItems else []) := by
  rw [TxBlock.rlpSerialize, Rlp.list, listHeader_eq, totalSize_eq]

theorem items_eq : tx.items = [Rlp.integer tx.chainId.toNat, Rlp.integer tx.nonce.toNat,
    Rlp.integer tx.maxPriorityFeePerGas.toNat, Rlp.integer tx.maxFeePerGas.toNat, Rlp.integer tx.gasLimit.toNat,
    Rlp.string (if tx.to = 0 then [] else tx.to.get), Rlp.integer tx.value.toNat, dataItem tx.data, Rlp.list []] := by
  have wide : ∀ value : Uint256, uintItem value.toNat = Rlp.integer value.toNat := fun value =>
    uintItem_eq_integer (by have few := bytesRequired_uint256 value; omega)
  have chainId : uintItem tx.chainId.toNat = Rlp.integer tx.chainId.toNat :=
    uintItem_eq_integer (by have few := bytesRequired_uint64 tx.chainId; omega)
  have receiver : (if tx.to = 0 then [0x80] else 0x94 :: tx.to.get : Bytes) = Rlp.string (if tx.to = 0 then [] else tx.to.get) := by
    split
    · rfl
    · exact (string_of_20 (uintToBytes_length 20 _)).symm
  rw [TxBlock.items, chainId, wide, wide, wide, wide, wide, receiver]
  rfl

private theorem vItem_eq {v : UInt8} (recovery : v ≤ 1) : (if v = 0 then [0x80] else [v] : Bytes) = Rlp.integer v.toNat := by
  have small : v.toNat ≤ 1 := UInt8.le_iff_toNat_le.mp recovery
  have few : bytesRequired v.toNat ≤ 1 := bytesRequired_le_iff.mpr (by omega)
  rw [← uintItem_eq_integer (few.trans (by omega)), uintItem]
  by_cases zero : v = 0
  · rw [if_pos zero, zero]
    rfl
  · have some : v.toNat ≠ 0 := fun none => zero (UInt8.toNat_inj.mp none)
    rw [if_neg zero, if_neg some, if_pos (by omega), UInt8.ofNat_toNat]

private theorem sigItems_eq (recovery : tx.v ≤ 1) :
    tx.sigItems = [Rlp.integer tx.v.toNat, scalarItem tx.r.toNat, scalarItem tx.s.toNat] := by
  rw [TxBlock.sigItems, vItem_eq recovery]

private theorem dataItem_length_ge (data : Bytes) : (Rlp.string data).length ≤ (dataItem data).length := by
  by_cases low : LowByte data
  · rw [dataItem_longer low]
    exact Nat.le_succ _
  · rw [dataItem_eq_string low]

theorem scalarItem_length_ge (value : Uint256) : (Rlp.integer value.toNat).length ≤ (scalarItem value.toNat).length := by
  by_cases low : Low value.toNat
  · rw [scalarItem_longer low]
    exact Nat.le_succ _
  · rw [scalarItem_eq_integer (by have few := bytesRequired_uint256 value; omega) low]

theorem unsigned_canonical_iff : tx.rlpSerialize false = canonical tx false ↔ ¬ LowByte tx.data := by
  rw [rlpSerialize_eq, canonical]
  constructor
  · intro same low
    have longer : ((canonicalItems tx ++ []).flatten).length < ((tx.items ++ []).flatten).length := by
      have data := dataItem_longer low
      simp only [items_eq, canonicalItems, List.append_nil, List.flatten_cons, List.length_append]
      omega
    have lengths := congrArg List.length (List.cons.inj same).2
    exact absurd lengths (Nat.ne_of_gt (Rlp.list_length_lt longer))
  · intro tall
    rw [items_eq, dataItem_eq_string tall]
    rfl

theorem signed_canonical_iff (recovery : tx.v ≤ 1) :
    tx.rlpSerialize true = canonical tx true ↔ ¬ LowByte tx.data ∧ ¬ Low tx.r.toNat ∧ ¬ Low tx.s.toNat := by
  rw [rlpSerialize_eq, canonical]
  have data := dataItem_length_ge tx.data
  have r := scalarItem_length_ge tx.r
  have s := scalarItem_length_ge tx.s
  constructor
  · intro same
    have lengths := congrArg List.length (List.cons.inj same).2
    have equal : ¬ ((canonicalItems tx ++ canonicalSig tx).flatten).length < ((tx.items ++ tx.sigItems).flatten).length :=
      fun longer => absurd lengths (Nat.ne_of_gt (Rlp.list_length_lt longer))
    simp only [items_eq, sigItems_eq tx recovery, canonicalItems, canonicalSig, List.flatten_append, List.flatten_cons,
      List.length_append] at equal
    refine ⟨fun low => ?_, fun low => ?_, fun low => ?_⟩
    · have longer := dataItem_longer low
      omega
    · have longer := scalarItem_longer low
      omega
    · have longer := scalarItem_longer low
      omega
  · rintro ⟨tallData, tallR, tallS⟩
    rw [items_eq, dataItem_eq_string tallData]
    simp only [if_true, sigItems_eq tx recovery]
    rw [scalarItem_eq_integer (by have few := bytesRequired_uint256 tx.r; omega) tallR,
      scalarItem_eq_integer (by have few := bytesRequired_uint256 tx.s; omega) tallS]
    rfl

end TxBlock

variable {lib : Secp256k1} {sha3 : Bytes → Hash} {tx parsed : TxBlock} {past : Bytes} {required : UInt64}

theorem integer_low {value : Nat} (low : Low value) : Rlp.integer value = [UInt8.ofNat value] := by
  obtain ⟨some, small⟩ := low
  have single := unpadded_small (Nat.ne_of_gt some) (by omega)
  have below : UInt8.ofNat value < 0x80 := (@ofNat_lt_ofNat _ 0x80 (by omega) (by omega)).mpr small
  rw [Rlp.integer, ← unpadded_eq_bigEndian, single, Rlp.string, if_pos below]

theorem readV_integer {v read : UInt8} {rest after : Bytes}
    (seen : TxBlock.readV.eval (Rlp.integer v.toNat ++ rest) = (.ok read, after)) : v ≤ 1 := by
  by_contra large
  have more : 1 < v.toNat := by
    have above := mt UInt8.le_iff_toNat_le.mpr large
    exact Nat.not_le.mp above
  have bound := v.toNat_lt
  by_cases small : v.toNat < 0x80
  · rw [integer_low ⟨by omega, small⟩, UInt8.ofNat_toNat] at seen
    rcases readV_first seen with rfl | one
    · exact absurd small (by decide)
    · exact large one
  · have few : bytesRequired v.toNat = 1 := bytesRequired_small (by omega) (by omega)
    rw [← scalarItem_eq_integer (by omega) fun low => small low.2, scalarItem, few] at seen
    rcases readV_first seen with same | one
    · cases same
    · exact absurd one (by decide)

theorem readScalar_integer {what : Exception} {value read : Uint256} {rest after : Bytes}
    (seen : (readScalar 0x20 what).eval (Rlp.integer value.toNat ++ rest) = (.ok read, after)) : ¬ Low value.toNat ∧ after = rest := by
  have tall : ¬ Low value.toNat := by
    intro low
    rw [integer_low low] at seen
    have below : UInt8.ofNat value.toNat < 0x80 :=
      (@ofNat_lt_ofNat _ 0x80 (by have small := low.2; omega) (by omega)).mpr low.2
    exact readScalar_first (by decide) seen below
  rw [← scalarItem_eq_integer (by have few := bytesRequired_uint256 value; omega) tall] at seen
  exact ⟨tall, ((reads_uint256Scalar what value (by decide) (by decide)).unique seen).2⟩

/-- A wallet's bytes that are accepted are those that would be written here. -/
theorem canonical_accepted (tall : ¬ LowByte tx.data) (apart : tx.data.length ≠ 55) (size : tx.data.length < 2 ^ 63)
    (accepted : TxBlock.ofBytes lib sha3 (canonical tx true) past required = .ok parsed) :
    tx.v ≤ 1 ∧ canonical tx true = tx.rlpSerialize true := by
  have items : canonicalItems tx = tx.items := by
    rw [items_eq, dataItem_eq_string tall]
    rfl
  have bytes : canonical tx true = 0x02 :: (listHeader (tx.items ++ canonicalSig tx).flatten.length ++
      (tx.items ++ canonicalSig tx).flatten) := by
    rw [canonical, items, Rlp.list, listHeader_eq]
    rfl
  have sum : (tx.items ++ canonicalSig tx).flatten.length = tx.totalSize false + (Rlp.integer tx.v.toNat).length +
      (Rlp.integer tx.r.toNat).length + (Rlp.integer tx.s.toNat).length := by
    rw [← totalSize_eq tx false]
    simp only [canonicalSig, List.flatten_append, List.flatten_cons, List.flatten_nil, List.length_append, List.length_nil,
      Bool.false_eq_true, if_false]
    omega
  have some : 0 < tx.totalSize false := by
    unfold TxBlock.totalSize
    omega
  have fits : (tx.items ++ canonicalSig tx).flatten.length < 2 ^ 64 := by
    have most : tx.totalSize false ≤ tx.totalSize true := by
      unfold TxBlock.totalSize
      simp
    have total := totalSize_lt tx size
    have few : bytesRequired tx.v.toNat ≤ 1 := bytesRequired_le_iff.mpr (by have bound := tx.v.toNat_lt; omega)
    have v := uintItem_length tx.v.toNat
    rw [uintItem_eq_integer (few.trans (by omega))] at v
    have vSize := uintSize_le few
    have r := scalarItem_length_ge tx.r
    have s := scalarItem_length_ge tx.s
    rw [scalarItem_length] at r s
    have rFew := bytesRequired_uint256 tx.r
    have sFew := bytesRequired_uint256 tx.s
    omega
  rw [bytes] at accepted
  obtain ⟨_, fields, after, itemsRead, _⟩ := list_accepted (by omega) fits accepted
  rw [List.flatten_append, List.append_assoc] at itemsRead
  obtain ⟨_, _, _, _, data, accessList, v, r, s⟩ := readItems_from_data itemsRead
  obtain ⟨_, rfl⟩ := (reads_data (fun first small => if_pos small) apart (by omega)).unique data
  obtain ⟨_, rfl⟩ := reads_accessList.unique accessList
  simp only [canonicalSig, List.flatten_cons, List.append_assoc] at v
  have recovery := readV_integer v
  rw [← vItem_eq recovery] at v
  obtain ⟨_, rfl⟩ := (reads_v recovery).unique v
  obtain ⟨tallR, rfl⟩ := readScalar_integer r
  obtain ⟨tallS, _⟩ := readScalar_integer s
  exact ⟨recovery, ((signed_canonical_iff tx recovery).mpr ⟨tall, tallR, tallS⟩).symm⟩

/-- The sender of a wallet's transaction is who has signed it. -/
theorem sender_of_wallet (tall : ¬ LowByte tx.data) (apart : tx.data.length ≠ 55) (size : tx.data.length < 2 ^ 63)
    (nonce : tx.nonce.toNat < 2 ^ 64) (gasLimit : tx.gasLimit.toNat < 2 ^ 64)
    (accepted : TxBlock.ofBytes lib sha3 (canonical tx true) past required = .ok parsed) :
    parsed.from = Secp256k1.toAddress sha3
      (lib.recover (Secp256k1.makeSig tx.r tx.s tx.v) (sha3 (canonical tx false))) := by
  obtain ⟨recovery, same⟩ := canonical_accepted tall apart size accepted
  rw [same] at accepted
  have long := (serialized_accepted size accepted).1
  rw [ofBytes_serialized past required size long apart recovery, low64_eq_iff.mpr nonce, low64_eq_iff.mpr gasLimit] at accepted
  obtain ⟨_, _, rfl⟩ := recovered_eq_ok.mp accepted
  rw [← (unsigned_canonical_iff tx).mpr tall]
  rfl

/-- What is signed has the standard encoding exactly if the data is no single byte below 0x80,
and with the signature if in addition neither number is below 0x80 but zero. Constructors make
no other `v` than zero and one. A wallet's transaction whose fields are read back then has the
wallet's key as its sender. -/
theorem serialization_is_canonical_iff (tx : TxBlock) (recovery : tx.v ≤ 1) :
    (tx.rlpSerialize false = canonical tx false ↔ ¬ LowByte tx.data) ∧
    (tx.rlpSerialize true = canonical tx true ↔ ¬ LowByte tx.data ∧ ¬ Low tx.r.toNat ∧ ¬ Low tx.s.toNat) ∧
    ∀ (lib : Secp256k1) (sha3 : Bytes → Hash) (past : Bytes) (required : UInt64) (parsed : TxBlock),
      ¬ LowByte tx.data → tx.data.length ≠ 55 → tx.data.length < 2 ^ 63 → tx.nonce.toNat < 2 ^ 64 → tx.gasLimit.toNat < 2 ^ 64 →
      TxBlock.ofBytes lib sha3 (canonical tx true) past required = .ok parsed →
      parsed.from = Secp256k1.toAddress sha3
        (lib.recover (Secp256k1.makeSig tx.r tx.s tx.v) (sha3 (canonical tx false))) :=
  ⟨unsigned_canonical_iff tx, signed_canonical_iff tx recovery,
    fun _ _ _ _ _ tall apart size nonce gasLimit => sender_of_wallet tall apart size nonce gasLimit⟩

/-- A transaction with one byte of data, 0x01. -/
theorem low_byte_is_not_canonical : ∃ tx, signedTransfer [0x01] = .ok tx ∧ tx.rlpSerialize false ≠ canonical tx false := by
  obtain ⟨tx, built⟩ := exists_ok (show (signedTransfer [0x01]).isOk = true by decide +kernel)
  obtain ⟨_, _, _, data⟩ := sign_ok oneKeyCurve_consistent built
  exact ⟨tx, built, fun same => (unsigned_canonical_iff tx).mp same ⟨0x01, by decide, data⟩⟩

theorem transfer_is_canonical : ∃ tx, signedTransfer [] = .ok tx ∧ tx.rlpSerialize false = canonical tx false ∧
    tx.rlpSerialize true = canonical tx true ∧ ∀ parsed,
      TxBlock.ofBytes oneKeyCurve Hash.ofBytes (canonical tx true) [] 8080 = .ok parsed → parsed.from = oneKeyAddress := by
  obtain ⟨tx, built⟩ := exists_ok (show (signedTransfer []).isOk = true by decide +kernel)
  obtain ⟨signed, nonce, gasLimit, data⟩ := sign_ok oneKeyCurve_consistent built
  have shape : (signedTransfer []).toOption.all fun tx => ¬ Low tx.r.toNat ∧ ¬ Low tx.s.toNat := by decide +kernel
  rw [built] at shape
  obtain ⟨tallR, tallS⟩ := of_decide_eq_true shape
  have tall : ¬ LowByte tx.data := by
    rw [data]
    rintro ⟨_, _, ⟨⟩⟩
  obtain ⟨unsigned, whole, sender⟩ := serialization_is_canonical_iff tx (verifySig_v signed.valid)
  refine ⟨tx, built, unsigned.mpr tall, whole.mpr ⟨tall, tallR, tallS⟩, fun parsed accepted => ?_⟩
  rw [sender oneKeyCurve Hash.ofBytes [] 8080 parsed tall (by rw [data]; decide) (by rw [data]; decide) (by rw [nonce]; decide)
    (by rw [gasLimit]; decide) accepted, ← unsigned.mpr tall, signed.recover]
  rfl

end OrbiterSDK.Proofs.Canonical
