import OrbiterSDK.Proofs.TxRoundTrip

/-! Validator transactions after a round trip over their bytes. The chain id travels inside
of `v`, where it is doubled with 64 bits. -/

namespace OrbiterSDK.Proofs.ValidatorRoundTrip
open Lib Lib.Reader Action Utils Tx ByteStrings TxItems TxRoundTrip

section Sizes
variable (tx : TxValidator)

theorem totalSize_eq (includeSig : Bool) : (tx.items includeSig).flatten.length = tx.totalSize includeSig := by
  unfold TxValidator.totalSize
  cases includeSig with
  | false =>
    simp only [TxValidator.items, Bool.false_eq_true, if_false, List.flatten_cons, List.flatten_nil, List.length_append,
      uintItem_length, smallItem_length, dataItem_length, List.length_cons, List.length_nil]
    omega
  | true =>
    simp only [TxValidator.items, if_true, List.flatten_cons, List.flatten_nil, List.length_append, uintItem_length,
      smallItem_length, dataItem_length, scalarItem_length, List.length_nil]
    omega

theorem totalSize_lt (fits : tx.data.length < 2 ^ 63) : tx.totalSize true < 2 ^ 64 := by
  have nHeight := uintSize_le (bytesRequired_uint64 tx.nHeight)
  have v := uintSize_le (bytesRequired_uint256 tx.v)
  have data := @dataSize_le tx.data (by omega)
  have r := bytesRequired_uint256 tx.r
  have s := bytesRequired_uint256 tx.s
  unfold TxValidator.totalSize
  simp only [if_true]
  omega

end Sizes

variable {tx : TxValidator}

/-- The items are read back, in whatever way the data is written. -/
theorem reads_itemsWith {data : Bytes} (isData : Reads (readData fun _ => none) data tx.data) :
    Reads TxValidator.readItems
      [data, uintItem tx.nHeight.toNat, uintItem tx.v.toNat, scalarItem tx.r.toNat, scalarItem tx.s.toNat].flatten
      { tx with
        «from» := 0
        chainId := 0
        hash := 0 } := by
  have nHeight : Reads (readUint toUint64 fun _ => none) (uintItem tx.nHeight.toNat) tx.nHeight := reads_uint64 tx.nHeight rfl
  simp only [List.flatten_cons, List.flatten_nil]
  exact isData.bind (nHeight.bind ((reads_uint256 _ tx.v).bind ((reads_uint256Scalar _ tx.r (by decide) (by decide)).bind
    ((reads_uint256Scalar _ tx.s (by decide) (by decide)).bind (reads_pure _)))))

theorem signedItems_eq (folded : tx.v ≠ 0) : tx.items true =
    [dataItem tx.data, uintItem tx.nHeight.toNat, uintItem tx.v.toNat, scalarItem tx.r.toNat, scalarItem tx.s.toNat] := by
  have some : tx.v.toNat ≠ 0 := fun zero => folded (BitVec.eq_of_toNat_eq zero)
  simp only [TxValidator.items, if_true, smallItem_eq some]

theorem reads_items (apart : tx.data.length ≠ 55) (fits : tx.data.length < 2 ^ 64) (folded : tx.v ≠ 0) :
    Reads TxValidator.readItems (tx.items true).flatten
      { tx with
        «from» := 0
        chainId := 0
        hash := 0 } := by
  rw [signedItems_eq folded]
  exact reads_itemsWith (reads_data (fun _ _ => rfl) apart fits)

theorem readItems_ok {input after : Bytes} (seen : TxValidator.readItems.eval input = (.ok tx, after)) :
    ∃ first second third fourth,
      (readData fun _ => none).eval input = (.ok tx.data, first) ∧
      (readUint toUint64 fun _ => none).eval first = (.ok tx.nHeight, second) ∧
      (readUint fromBigEndian256 (tooLarge "V is not a small string")).eval second = (.ok tx.v, third) ∧
      (readScalar 0x37 "R is not a small string").eval third = (.ok tx.r, fourth) ∧
      (readScalar 0x37 "S is not a small string").eval fourth = (.ok tx.s, after) := by
  unfold TxValidator.readItems at seen
  obtain ⟨data, first, isData, seen⟩ := eval_bind_ok.mp seen
  obtain ⟨nHeight, second, isNHeight, seen⟩ := eval_bind_ok.mp seen
  obtain ⟨v, third, isV, seen⟩ := eval_bind_ok.mp seen
  obtain ⟨r, fourth, isR, seen⟩ := eval_bind_ok.mp seen
  obtain ⟨s, last, isS, seen⟩ := eval_bind_ok.mp seen
  cases seen
  exact ⟨first, second, third, fourth, isData, isNHeight, isV, isR, isS⟩

theorem unfoldV_ok {v : Uint256} {chainId : UInt64} {recoveryId : UInt8} (unfolded : TxValidator.unfoldV v = .ok (chainId, recoveryId)) :
    1 ≤ chainId.toNat ∧ recoveryId ≤ 1 ∧ v.toNat = 2 * chainId.toNat + 35 + recoveryId.toNat := by
  have bound := v.isLt
  unfold TxValidator.unfoldV Uint256.narrow at unfolded
  split at unfolded
  case isTrue large =>
    rw [BitVec.toNat_ofNat, Nat.mod_eq_of_lt (by omega)] at unfolded
    by_cases fits : (v.toNat - 35) / 2 < 2 ^ 64
    · simp only [if_pos fits, Except.ok.injEq, Prod.mk.injEq] at unfolded
      obtain ⟨rfl, rfl⟩ := unfolded
      rw [UInt64.toNat_ofNat', Nat.mod_eq_of_lt fits, UInt8.le_iff_toNat_le, UInt8.toNat_ofNat']
      show 1 ≤ _ ∧ _ ≤ 1 ∧ _
      omega
    · simp only [if_neg fits] at unfolded
      cases unfolded
  case isFalse =>
    split at unfolded
    · cases unfolded
    · cases unfolded

theorem unfoldV_eq {v : Uint256} {chainId : UInt64} {recoveryId : UInt8} (some : 1 ≤ chainId.toNat) (small : recoveryId ≤ 1)
    (folded : v.toNat = 2 * chainId.toNat + 35 + recoveryId.toNat) : TxValidator.unfoldV v = .ok (chainId, recoveryId) := by
  have bound := v.isLt
  have fits := chainId.toNat_lt
  have one : recoveryId.toNat ≤ 1 := UInt8.le_iff_toNat_le.mp small
  have half : (v.toNat - 35) / 2 = chainId.toNat := by omega
  have odd : v.toNat - (chainId.toNat * 2 + 35) = recoveryId.toNat := by omega
  unfold TxValidator.unfoldV Uint256.narrow
  rw [if_pos (by omega), BitVec.toNat_ofNat, Nat.mod_eq_of_lt (by omega), half, if_pos fits]
  simp only [odd, UInt64.ofNat_toNat, UInt8.ofNat_toNat]

variable {lib : Secp256k1} {sha3 : Bytes → Hash}

/-- The sender and the hash that belong to a recovery id. -/
def completed (lib : Secp256k1) (sha3 : Bytes → Hash) (tx : TxValidator) (recoveryId : UInt8) : TxValidator :=
  { tx with
    «from» := Secp256k1.toAddress sha3 (lib.recover (Secp256k1.makeSig tx.r tx.s recoveryId) (sha3 (tx.rlpSerialize false)))
    hash := sha3 (tx.rlpSerialize true) }

theorem recovered_eq_ok {tx final : TxValidator} : tx.recovered lib sha3 = .ok final ↔
    ∃ chainId recoveryId, TxValidator.unfoldV tx.v = .ok (chainId, recoveryId) ∧
      Secp256k1.verifySig tx.r tx.s recoveryId = true ∧
      lib.recover (Secp256k1.makeSig tx.r tx.s recoveryId) (sha3 ({ tx with chainId }.rlpSerialize false)) ≠ 0 ∧
      final = completed lib sha3 { tx with chainId } recoveryId := by
  unfold TxValidator.recovered
  rcases TxValidator.unfoldV tx.v with what | ⟨chainId, recoveryId⟩
  · simp
  · simp only [Except.ok.injEq, Prod.mk.injEq, ↓existsAndEq, and_true, true_and]
    cases valid : Secp256k1.verifySig tx.r tx.s recoveryId with
    | false => simp
    | true =>
      simp only [Bool.not_true, Bool.false_eq_true, if_false, true_and]
      split
      case isTrue zero => simp [zero]
      case isFalse some =>
        constructor
        · intro same
          cases same
          exact ⟨some, rfl⟩
        · rintro ⟨_, rfl⟩
          rfl

theorem ofBytes_ok {bytes past : Bytes} {required : UInt64}
    (accepted : TxValidator.ofBytes lib sha3 bytes past required = .ok tx) :
    ∃ items fields after, (readList (UInt64.ofNat bytes.length)).eval (bytes ++ past) = (.ok (), items) ∧
      TxValidator.readItems.eval items = (.ok fields, after) ∧ fields.recovered lib sha3 = .ok tx := by
  unfold TxValidator.ofBytes at accepted
  simp only at accepted
  generalize ran : eval _ (bytes ++ past) = ended at accepted
  obtain ⟨result, left⟩ := ended
  cases accepted
  obtain ⟨⟨⟩, items, header, ran⟩ := eval_bind_ok.mp ran
  obtain ⟨fields, after, read, ran⟩ := eval_bind_ok.mp ran
  exact ⟨items, fields, after, header, read, (eval_lift_ok_iff.mp ran).1⟩

theorem ofBytes_eq {header items past : Bytes} {required : UInt64} {fields : TxValidator}
    (list : Reads (readList (UInt64.ofNat (header.length + items.length))) header ())
    (read : Reads TxValidator.readItems items fields) :
    TxValidator.ofBytes lib sha3 (header ++ items) past required = fields.recovered lib sha3 := by
  unfold TxValidator.ofBytes
  simp only [List.length_append]
  rw [Action.eval_bind, List.append_assoc, list]
  simp only
  rw [Action.eval_bind, read]
  exact eval_lift_fst _ _

/-- What the signing constructor establishes, with the recovery id of the signature. -/
structure Signed (lib : Secp256k1) (sha3 : Bytes → Hash) (key : PrivKey) (tx : TxValidator) (recoveryId : UInt8) : Prop where
  valid : Secp256k1.verifySig tx.r tx.s recoveryId = true
  recover : lib.recover (Secp256k1.makeSig tx.r tx.s recoveryId) (sha3 (tx.rlpSerialize false)) = lib.toUPub key
  known : lib.toUPub key ≠ 0
  folded : tx.v.toNat = (2 * tx.chainId.toNat + 35 + recoveryId.toNat) % 2 ^ 64
  whole : tx = completed lib sha3 tx recoveryId

theorem sign_ok (consistent : Consistent lib) {sender : Address} {data : Bytes} {chainId nHeight : UInt64} {key : PrivKey}
    (built : TxValidator.sign lib sha3 sender data chainId nHeight key = .ok tx) :
    (∃ recoveryId, Signed lib sha3 key tx recoveryId) ∧ tx.chainId = chainId ∧ tx.data = data := by
  unfold TxValidator.sign at built
  simp only at built
  split at built
  · cases built
  case isFalse own =>
    split at built
    · cases built
    case _ sig signed =>
      split at built
      · cases built
      case isFalse passes =>
        split at built
        · cases built
        case isFalse recovers =>
          cases built
          have valid : Secp256k1.verifySig sig.r sig.s sig.v = true := by simpa using passes
          refine ⟨⟨sig.v, valid, (not_not.mp recovers).symm, toUPub_ne_zero consistent signed valid, ?_, ?_⟩, rfl, rfl⟩
          · have width := sig.v.toNat_lt
            have two : (2 : UInt64).toNat = 2 := rfl
            have offset : (35 : UInt64).toNat = 35 := rfl
            simp only [BitVec.toNat_ofNat, UInt64.toNat_add, UInt64.toNat_mul, UInt64.toNat_ofNat', two, offset]
            omega
          · have same := (not_not.mp own).symm
            rw [not_not.mp recovers] at same
            conv_lhs => rw [show sender = _ from same]
            rfl

theorem ofBytes_serialized (past : Bytes) (required : UInt64) (size : tx.data.length < 2 ^ 63)
    (long : 55 < tx.totalSize true) (apart : tx.data.length ≠ 55) (folded : tx.v ≠ 0) :
    TxValidator.ofBytes lib sha3 (tx.rlpSerialize true) past required =
      { tx with
        «from» := 0
        chainId := 0
        hash := 0 : TxValidator }.recovered lib sha3 := by
  have total := totalSize_eq tx true
  have header := reads_listHeader long (totalSize_lt tx size)
  rw [← total] at header
  exact ofBytes_eq (total ▸ header) (reads_items apart (by omega) folded)

theorem serialized_read {past : Bytes} {required : UInt64} (size : tx.data.length < 2 ^ 63)
    (read : TxValidator.ofBytes lib sha3 (tx.rlpSerialize true) past required = .ok tx) :
    1 ≤ tx.chainId.toNat ∧ 2 * tx.chainId.toNat + 35 ≤ tx.v.toNat ∧ tx.data.length ≠ 55 ∧ 55 < tx.totalSize true := by
  obtain ⟨items, fields, after, header, itemsRead, recovers⟩ := ofBytes_ok read
  have total : (tx.items true).flatten.length = tx.totalSize true := totalSize_eq tx true
  have spanSize : (tx.rlpSerialize true).length = (listHeader (tx.totalSize true)).length + tx.totalSize true := by
    rw [TxValidator.rlpSerialize, List.length_append, total]
  rw [spanSize, TxValidator.rlpSerialize, List.append_assoc] at header
  have long : 55 < tx.totalSize true := by
    by_contra short
    have most : tx.totalSize true ≤ 55 := by omega
    have one : (listHeader (tx.totalSize true)).length = 1 := by
      rw [listHeader, if_pos most]
      rfl
    have some : 0 < tx.totalSize true := by
      unfold TxValidator.totalSize
      simp only [if_true]
      omega
    rw [one] at header
    exact short_list_refused most some _ _ header
  obtain ⟨_, rfl⟩ := (reads_listHeader long (totalSize_lt tx size)).unique header
  obtain ⟨chainId, recoveryId, unfolded, _, _, same⟩ := recovered_eq_ok.mp recovers
  obtain ⟨some, _, folded⟩ := unfoldV_ok unfolded
  have chain : tx.chainId = chainId := (congrArg TxValidator.chainId same :)
  have v : tx.v = fields.v := (congrArg TxValidator.v same :)
  have data : tx.data = fields.data := (congrArg TxValidator.data same :)
  rw [chain, v]
  refine ⟨some, by omega, fun lost => ?_, long⟩
  obtain ⟨_, _, _, _, isData, _⟩ := readItems_ok itemsRead
  obtain ⟨byte, first, reads⟩ := @reads_data_55 (fun _ => none) tx.data (fun _ _ => rfl) lost
  rw [TxValidator.items, List.flatten_cons, first, List.append_assoc] at isData
  have nothing := (@Reads.unique _ _ _ _ [byte] _ _ _ _ reads isData).1
  rw [data, nothing] at lost
  cases lost

/-- What every constructor establishes, with the recovery id of the signature. -/
structure Complete (lib : Secp256k1) (sha3 : Bytes → Hash) (tx : TxValidator) (recoveryId : UInt8) : Prop where
  valid : Secp256k1.verifySig tx.r tx.s recoveryId = true
  recovers : lib.recover (Secp256k1.makeSig tx.r tx.s recoveryId) (sha3 (tx.rlpSerialize false)) ≠ 0
  folded : 2 * tx.chainId.toNat + 35 ≤ tx.v.toNat → tx.v.toNat = 2 * tx.chainId.toNat + 35 + recoveryId.toNat
  whole : tx = completed lib sha3 tx recoveryId

theorem Signed.complete {key : PrivKey} {recoveryId : UInt8} (signed : Signed lib sha3 key tx recoveryId) :
    Complete lib sha3 tx recoveryId where
  valid := signed.valid
  recovers zero := signed.known (signed.recover.symm.trans zero)
  folded unwrapped := by
    have one : recoveryId.toNat ≤ 1 := UInt8.le_iff_toNat_le.mp (verifySig_v signed.valid)
    have bound := tx.chainId.toNat_lt
    have wrapped := signed.folded
    omega
  whole := signed.whole

theorem ofBytes_complete {bytes past : Bytes} {required : UInt64}
    (accepted : TxValidator.ofBytes lib sha3 bytes past required = .ok tx) : ∃ recoveryId, Complete lib sha3 tx recoveryId := by
  obtain ⟨_, fields, _, _, _, recovered⟩ := ofBytes_ok accepted
  obtain ⟨chainId, recoveryId, unfolded, valid, recovers, rfl⟩ := recovered_eq_ok.mp recovered
  exact ⟨recoveryId, valid, recovers, fun _ => (unfoldV_ok unfolded).2.2, rfl⟩

/-- Whether a validator transaction comes back from its own bytes does not depend on what is behind them. -/
theorem Complete.reads_iff {recoveryId : UInt8} (complete : Complete lib sha3 tx recoveryId)
    (size : tx.data.length < 2 ^ 63) (past : Bytes) (required : UInt64) :
    TxValidator.ofBytes lib sha3 (tx.rlpSerialize true) past required = .ok tx ↔
      1 ≤ tx.chainId.toNat ∧ 2 * tx.chainId.toNat + 35 ≤ tx.v.toNat ∧ tx.data.length ≠ 55 ∧ 55 < tx.totalSize true := by
  constructor
  · exact serialized_read size
  · rintro ⟨some, unwrapped, apart, long⟩
    have nonzero : tx.v ≠ 0 := by
      rintro zero
      rw [zero] at unwrapped
      simp at unwrapped
    rw [ofBytes_serialized past required size long apart nonzero]
    exact recovered_eq_ok.mpr ⟨tx.chainId, recoveryId, unfoldV_eq some (verifySig_v complete.valid) (complete.folded unwrapped),
      complete.valid, complete.recovers, complete.whole⟩

/-- Reading the bytes of a signed validator transaction gives it back exactly if the chain id
is not zero and fits into `v`, the data is not 55 bytes long and the list is longer than 55 bytes. -/
theorem signed_validator_tx_reads_back_iff (consistent : Consistent lib) {sender : Address} {data : Bytes} {chainId nHeight : UInt64}
    {key : PrivKey} {tx : TxValidator} (built : TxValidator.sign lib sha3 sender data chainId nHeight key = .ok tx)
    (addressable : data.length < 2 ^ 63) (past : Bytes) :
    TxValidator.ofBytes lib sha3 (tx.rlpSerialize true) past chainId = .ok tx ↔
      1 ≤ chainId.toNat ∧ 2 * chainId.toNat + 35 ≤ tx.v.toNat ∧ data.length ≠ 55 ∧ 55 < tx.totalSize true := by
  obtain ⟨⟨recoveryId, signed⟩, rfl, rfl⟩ := sign_ok consistent built
  exact signed.complete.reads_iff addressable past _

/-- A transaction of four bytes, signed for a chain with the one key. -/
def signedSeed (chainId : UInt64) : Except Exception TxValidator :=
  TxValidator.sign oneKeyCurve Hash.ofBytes oneKeyAddress [0xcf, 0xff, 0xe7, 0x46] chainId 1 1

theorem chain_zero_is_refused : ∃ tx, signedSeed 0 = .ok tx ∧ ∀ past,
    TxValidator.ofBytes oneKeyCurve Hash.ofBytes (tx.rlpSerialize true) past 0 ≠ .ok tx := by
  obtain ⟨tx, built⟩ := exists_ok (show (signedSeed 0).isOk = true by decide +kernel)
  obtain ⟨_, chainId, data⟩ := sign_ok oneKeyCurve_consistent built
  refine ⟨tx, built, fun past read => ?_⟩
  have some := (serialized_read (by rw [data]; decide) read).1
  rw [chainId] at some
  exact absurd some (by decide)

theorem chain_8080_is_read_back : ∃ tx, signedSeed 8080 = .ok tx ∧ ∀ past,
    TxValidator.ofBytes oneKeyCurve Hash.ofBytes (tx.rlpSerialize true) past 8080 = .ok tx := by
  obtain ⟨tx, built⟩ := exists_ok (show (signedSeed 8080).isOk = true by decide +kernel)
  have shape : (signedSeed 8080).toOption.all fun tx => 55 < tx.totalSize true ∧ tx.v.toNat = 16195 := by decide +kernel
  rw [built] at shape
  obtain ⟨long, v⟩ := of_decide_eq_true shape
  exact ⟨tx, built, fun past => (signed_validator_tx_reads_back_iff oneKeyCurve_consistent built (by decide) past).mpr
    ⟨by decide, by rw [v]; decide, by decide, long⟩⟩

end OrbiterSDK.Proofs.ValidatorRoundTrip
