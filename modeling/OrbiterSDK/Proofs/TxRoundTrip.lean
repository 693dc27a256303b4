import OrbiterSDK.Proofs.TxItems

/-! Transactions after a round trip over their bytes. -/

namespace OrbiterSDK.Proofs.TxRoundTrip
open Lib Lib.Reader Action Utils Tx ByteStrings TxItems

theorem uintSize_le {value width : Nat} (fits : bytesRequired value ≤ width) : uintSize value ≤ 1 + width := by
  unfold uintSize
  split
  · omega
  · omega

theorem dataSize_le {data : Bytes} (fits : data.length < 2 ^ 64) : dataSize data ≤ 9 + data.length := by
  have few : bytesRequired data.length ≤ 8 := bytesRequired_le_iff.mpr fits
  unfold dataSize
  split
  · omega
  · split
    · omega
    · omega

theorem length_le_dataSize (data : Bytes) : data.length ≤ dataSize data := by
  unfold dataSize
  split
  · omega
  · split
    · omega
    · omega

section TxBlock
variable (tx : TxBlock)

private theorem to_length : (if tx.to = 0 then [0x80] else 0x94 :: tx.to.get : Bytes).length = if tx.to = 0 then 1 else 1 + 20 := by
  split
  · rfl
  · rw [List.length_cons, Address.get, uintToBytes_length]

theorem v_length : (if tx.v = 0 then [0x80] else [tx.v] : Bytes).length = 1 := by
  split
  · rfl
  · rfl

theorem totalSize_eq (includeSig : Bool) :
    (tx.items ++ if includeSig then tx.sigItems else []).flatten.length = tx.totalSize includeSig := by
  unfold TxBlock.totalSize
  cases includeSig with
  | false =>
    simp only [TxBlock.items, Bool.false_eq_true, if_false, List.append_nil, List.flatten_cons, List.flatten_nil,
      List.length_append, uintItem_length, dataItem_length, to_length, List.length_singleton]
    omega
  | true =>
    simp only [TxBlock.items, TxBlock.sigItems, eq_self, if_true, List.cons_append, List.nil_append, List.flatten_cons,
      List.flatten_nil, List.length_append, uintItem_length, dataItem_length, scalarItem_length, to_length, v_length, List.length_cons,
      List.length_nil]
    omega

theorem totalSize_lt (fits : tx.data.length < 2 ^ 63) : tx.totalSize true < 2 ^ 63 + 400 := by
  have chainId := uintSize_le (bytesRequired_uint64 tx.chainId)
  have nonce := uintSize_le (bytesRequired_uint256 tx.nonce)
  have priority := uintSize_le (bytesRequired_uint256 tx.maxPriorityFeePerGas)
  have fee := uintSize_le (bytesRequired_uint256 tx.maxFeePerGas)
  have gasLimit := uintSize_le (bytesRequired_uint256 tx.gasLimit)
  have value := uintSize_le (bytesRequired_uint256 tx.value)
  have data := @dataSize_le tx.data (by omega)
  have r := bytesRequired_uint256 tx.r
  have s := bytesRequired_uint256 tx.s
  have receiver : (if tx.to = 0 then 1 else 1 + 20) ≤ 21 := by
    split
    · omega
    · omega
  unfold TxBlock.totalSize
  rw [if_pos rfl]
  omega

end TxBlock

/-- What is left of an integer that is read with 64 bits. -/
def low64 (value : Uint256) : Uint256 := BitVec.ofNat 256 (value.toNat % 2 ^ 64)

theorem low64_eq_iff {value : Uint256} : low64 value = value ↔ value.toNat < 2 ^ 64 := by
  unfold low64
  rw [← BitVec.toNat_inj, BitVec.toNat_ofNat, Nat.mod_eq_of_lt (a := value.toNat % 2 ^ 64) (by omega)]
  omega

private theorem throughUint64_unpadded (value : Uint256) : throughUint64 (unpadded value.toNat) = .ok (low64 value) := by
  rw [throughUint64, fromBigEndian64, bytesToUint_unpadded, UInt64.toNat_ofNat']
  rfl

private theorem toUint64_unpadded (value : UInt64) : toUint64 (unpadded value.toNat) = .ok value := by
  rw [toUint64, fromBigEndian64, bytesToUint_unpadded, UInt64.ofNat_toNat]

theorem fromBigEndian256_unpadded (value : Uint256) : fromBigEndian256 (unpadded value.toNat) = .ok value := by
  rw [fromBigEndian256, bytesToUint_unpadded, if_pos value.isLt, BitVec.ofNat_toNat, BitVec.setWidth_eq]

theorem tooLarge_none (what : Exception) {count : Nat} (few : count ≤ 0x37) : tooLarge what (UInt8.ofNat count) = none :=
  if_neg (mt (@ofNat_lt_ofNat 0x37 _ (by omega) (by omega)).mp (by omega))

section Integers
variable (what : Exception) (value : Uint256)

theorem reads_uint256 : Reads (readUint fromBigEndian256 (tooLarge what)) (uintItem value.toNat) value :=
  have few := bytesRequired_uint256 value
  reads_uint (by omega) (tooLarge_none what (by omega)) (fromBigEndian256_unpadded value)

theorem reads_throughUint64 : Reads (readUint throughUint64 (tooLarge what)) (uintItem value.toNat) (low64 value) :=
  have few := bytesRequired_uint256 value
  reads_uint (by omega) (tooLarge_none what (by omega)) (throughUint64_unpadded value)

theorem reads_uint64 (value : UInt64) {refuse : UInt8 → Option Exception}
    (allowed : refuse (UInt8.ofNat (bytesRequired value.toNat)) = none) :
    Reads (readUint toUint64 refuse) (uintItem value.toNat) value :=
  have few := bytesRequired_uint64 value
  reads_uint (by omega) allowed (toUint64_unpadded value)

theorem reads_uint256Scalar {longest : UInt8} (bound : longest < 0x80) (wide : 0x20 ≤ longest.toNat) :
    Reads (readScalar longest what) (scalarItem value.toNat) value := by
  have few := bytesRequired_uint256 value
  have size := unpadded_length value.toNat
  rw [scalarItem, ← size]
  exact reads_scalar bound (by omega) (fromBigEndian256_unpadded value)

end Integers

/-- The items that are signed, with the data written in some way. -/
def itemsWith (tx : TxBlock) (data : Bytes) : List Bytes :=
  [uintItem tx.chainId.toNat, uintItem tx.nonce.toNat, uintItem tx.maxPriorityFeePerGas.toNat, uintItem tx.maxFeePerGas.toNat,
    uintItem tx.gasLimit.toNat, if tx.to = 0 then [0x80] else 0x94 :: tx.to.get, uintItem tx.value.toNat, data, [0xc0]]

variable {tx : TxBlock}

/-- The items of a transaction are read back, with nonce and gas limit cut to 64 bits. -/
theorem reads_itemsWith {data : Bytes} (recovery : tx.v ≤ 1)
    (isData : Reads (readData fun first => if first < 0xc0 then none else some "Data is too large") data tx.data) :
    Reads TxBlock.readItems (itemsWith tx data ++ tx.sigItems).flatten
      { tx with
        «from» := 0
        nonce := low64 tx.nonce
        gasLimit := low64 tx.gasLimit
        hash := 0 } := by
  have chainId := @reads_uint64 tx.chainId (tooLarge "ChainId is too large")
    (tooLarge_none _ (by have few := bytesRequired_uint64 tx.chainId; omega))
  simp only [itemsWith, TxBlock.sigItems, List.cons_append, List.nil_append, List.flatten_cons, List.flatten_nil]
  refine chainId.bind ((reads_throughUint64 _ tx.nonce).bind ((reads_uint256 _ tx.maxPriorityFeePerGas).bind
    ((reads_uint256 _ tx.maxFeePerGas).bind ((reads_throughUint64 _ tx.gasLimit).bind ((reads_to tx.to).bind
    ((reads_uint256 _ tx.value).bind (isData.bind (reads_accessList.bind ((reads_v recovery).bind ?_)))))))))
  exact (reads_uint256Scalar _ tx.r (by decide) (by decide)).bind
    ((reads_uint256Scalar _ tx.s (by decide) (by decide)).bind (reads_pure _))

theorem reads_items (apart : tx.data.length ≠ 55) (fits : tx.data.length < 2 ^ 64) (recovery : tx.v ≤ 1) :
    Reads TxBlock.readItems (tx.items ++ tx.sigItems).flatten
      { tx with
        «from» := 0
        nonce := low64 tx.nonce
        gasLimit := low64 tx.gasLimit
        hash := 0 } :=
  reads_itemsWith recovery (reads_data (fun _ small => if_pos small) apart fits)

theorem readItems_ok {input after : Bytes} (seen : TxBlock.readItems.eval input = (.ok tx, after)) :
    ∃ first second third fourth fifth sixth seventh eighth ninth tenth eleventh,
      (readUint toUint64 (tooLarge "ChainId is too large")).eval input = (.ok tx.chainId, first) ∧
      (readUint throughUint64 (tooLarge "Nonce is too large")).eval first = (.ok tx.nonce, second) ∧
      (readUint fromBigEndian256 (tooLarge "MaxPriorityFeePerGas is too large")).eval second =
        (.ok tx.maxPriorityFeePerGas, third) ∧
      (readUint fromBigEndian256 (tooLarge "MaxFeePerGas is too large")).eval third = (.ok tx.maxFeePerGas, fourth) ∧
      (readUint throughUint64 (tooLarge "GasLimit is too large")).eval fourth = (.ok tx.gasLimit, fifth) ∧
      TxBlock.readTo.eval fifth = (.ok tx.to, sixth) ∧
      (readUint fromBigEndian256 (tooLarge "Value is not a small string")).eval sixth = (.ok tx.value, seventh) ∧
      (readData fun first => if first < 0xc0 then none else some "Data is too large").eval seventh = (.ok tx.data, eighth) ∧
      TxBlock.readAccessList.eval eighth = (.ok (), ninth) ∧
      TxBlock.readV.eval ninth = (.ok tx.v, tenth) ∧
      (readScalar 0x20 "R is bigger than 32 bytes").eval tenth = (.ok tx.r, eleventh) ∧
      (readScalar 0x20 "S is bigger than 32 bytes").eval eleventh = (.ok tx.s, after) := by
  unfold TxBlock.readItems at seen
  obtain ⟨chainId, first, isChainId, seen⟩ := eval_bind_ok.mp seen
  obtain ⟨nonce, second, isNonce, seen⟩ := eval_bind_ok.mp seen
  obtain ⟨priority, third, isPriority, seen⟩ := eval_bind_ok.mp seen
  obtain ⟨fee, fourth, isFee, seen⟩ := eval_bind_ok.mp seen
  obtain ⟨gasLimit, fifth, isGasLimit, seen⟩ := eval_bind_ok.mp seen
  obtain ⟨receiver, sixth, isTo, seen⟩ := eval_bind_ok.mp seen
  obtain ⟨value, seventh, isValue, seen⟩ := eval_bind_ok.mp seen
  obtain ⟨data, eighth, isData, seen⟩ := eval_bind_ok.mp seen
  obtain ⟨⟨⟩, ninth, isAccessList, seen⟩ := eval_bind_ok.mp seen
  obtain ⟨v, tenth, isV, seen⟩ := eval_bind_ok.mp seen
  obtain ⟨r, eleventh, isR, seen⟩ := eval_bind_ok.mp seen
  obtain ⟨s, last, isS, seen⟩ := eval_bind_ok.mp seen
  cases seen
  exact ⟨first, second, third, fourth, fifth, sixth, seventh, eighth, ninth, tenth, eleventh, isChainId, isNonce, isPriority,
    isFee, isGasLimit, isTo, isValue, isData, isAccessList, isV, isR, isS⟩

/-- What the items of any transaction keep to. -/
structure Narrow (tx : TxBlock) : Prop where
  nonce : tx.nonce.toNat < 2 ^ 64
  gasLimit : tx.gasLimit.toNat < 2 ^ 64
  data : tx.data.length < 2 ^ 64
  v : tx.v ≤ 1

theorem readItems_narrow {input after : Bytes} (seen : TxBlock.readItems.eval input = (.ok tx, after)) :
    Narrow tx := by
  obtain ⟨_, _, _, _, _, _, _, _, _, _, _, _, nonce, _, _, gasLimit, _, _, data, _, v, _, _⟩ := readItems_ok seen
  exact ⟨readThroughUint64_ok nonce, readThroughUint64_ok gasLimit, (readData_ok data).1, readV_ok v⟩

/-- The items before the data are read as they were written. -/
theorem readItems_from_data {tx parsed : TxBlock} {input after : Bytes}
    (seen : TxBlock.readItems.eval (tx.items.flatten ++ input) = (.ok parsed, after)) :
    ∃ eighth ninth tenth eleventh,
      (readData fun first => if first < 0xc0 then none else some "Data is too large").eval (dataItem tx.data ++ ([0xc0] ++ input)) =
        (.ok parsed.data, eighth) ∧
      TxBlock.readAccessList.eval eighth = (.ok (), ninth) ∧
      TxBlock.readV.eval ninth = (.ok parsed.v, tenth) ∧
      (readScalar 0x20 "R is bigger than 32 bytes").eval tenth = (.ok parsed.r, eleventh) ∧
      (readScalar 0x20 "S is bigger than 32 bytes").eval eleventh = (.ok parsed.s, after) := by
  obtain ⟨first, second, third, fourth, fifth, sixth, seventh, eighth, ninth, tenth, eleventh, chainId, nonce, priority, fee,
    gasLimit, receiver, value, rest⟩ := readItems_ok seen
  have short : tooLarge "ChainId is too large" (UInt8.ofNat (bytesRequired tx.chainId.toNat)) = none :=
    tooLarge_none _ (by have few := bytesRequired_uint64 tx.chainId; omega)
  simp only [TxBlock.items, List.flatten_cons, List.flatten_nil, List.append_assoc] at chainId
  obtain ⟨_, rfl⟩ := (reads_uint64 tx.chainId short).unique chainId
  obtain ⟨_, rfl⟩ := (reads_throughUint64 _ tx.nonce).unique nonce
  obtain ⟨_, rfl⟩ := (reads_uint256 _ tx.maxPriorityFeePerGas).unique priority
  obtain ⟨_, rfl⟩ := (reads_uint256 _ tx.maxFeePerGas).unique fee
  obtain ⟨_, rfl⟩ := (reads_throughUint64 _ tx.gasLimit).unique gasLimit
  obtain ⟨_, rfl⟩ := (reads_to tx.to).unique receiver
  obtain ⟨_, rfl⟩ := (reads_uint256 _ tx.value).unique value
  exact ⟨eighth, ninth, tenth, eleventh, rest⟩

theorem data_lost {tx parsed : TxBlock} {input after : Bytes} (size : tx.data.length = 55)
    (seen : TxBlock.readItems.eval (tx.items.flatten ++ input) = (.ok parsed, after)) : parsed.data = [] := by
  obtain ⟨_, _, _, _, data, _⟩ := readItems_from_data seen
  obtain ⟨byte, header, reads⟩ := @reads_data_55 (fun first => if first < 0xc0 then none else some "Data is too large") tx.data
    (fun first small => if_pos small) size
  rw [header] at data
  exact (@Reads.unique _ _ _ _ [byte] _ _ _ _ reads data).1

section Constructors
variable {lib : Secp256k1} {sha3 : Bytes → Hash}

theorem recovered_eq_ok {tx final : TxBlock} : tx.recovered lib sha3 = .ok final ↔
    Secp256k1.verifySig tx.r tx.s tx.v = true ∧ lib.recover (Secp256k1.makeSig tx.r tx.s tx.v) (sha3 (tx.rlpSerialize false)) ≠ 0 ∧
    final = { tx with
      «from» := Secp256k1.toAddress sha3 (lib.recover (Secp256k1.makeSig tx.r tx.s tx.v) (sha3 (tx.rlpSerialize false)))
      hash := sha3 (tx.rlpSerialize true) } := by
  unfold TxBlock.recovered
  cases valid : Secp256k1.verifySig tx.r tx.s tx.v with
  | false => simp
  | true =>
    simp only [Bool.not_true, Bool.false_eq_true, if_false, true_and]
    split
    case isTrue zero => simp [zero]
    case isFalse some =>
      constructor
      · intro same
        cases same
        exact ⟨some, rfl⟩
      · rintro ⟨_, rfl⟩
        rfl

variable {required : UInt64}

theorem ofBytes_ok {bytes past : Bytes}
    (accepted : TxBlock.ofBytes lib sha3 bytes past required = .ok tx) :
    ∃ list items fields after, bytes ++ past = 0x02 :: list ∧
      (readList (UInt64.ofNat bytes.length - 1)).eval list = (.ok (), items) ∧
      TxBlock.readItems.eval items = (.ok fields, after) ∧ fields.recovered lib sha3 = .ok tx := by
  unfold TxBlock.ofBytes at accepted
  simp only at accepted
  generalize ran : eval _ (bytes ++ past) = ended at accepted
  obtain ⟨result, left⟩ := ended
  cases accepted
  obtain ⟨type, rest, peeked, ran⟩ := eval_bind_ok.mp ran
  cases memory : bytes ++ past with
  | nil =>
    rw [memory] at peeked
    cases peeked
  | cons head list =>
    rw [memory] at peeked
    cases peeked
    by_cases two : type = 0x02
    · rw [if_neg (not_not.mpr two)] at ran
      obtain ⟨_, start, took, ran⟩ := eval_bind_ok.mp ran
      cases took
      obtain ⟨⟨⟩, items, header, ran⟩ := eval_bind_ok.mp ran
      obtain ⟨fields, after, read, ran⟩ := eval_bind_ok.mp ran
      exact ⟨list, items, fields, after, by rw [two], header, read, (eval_lift_ok_iff.mp ran).1⟩
    · rw [if_pos two] at ran
      cases ran

theorem ofBytes_eq {items past : Bytes} {header : Bytes} {fields : TxBlock}
    (list : Reads (readList (UInt64.ofNat (header.length + items.length))) header ())
    (read : Reads TxBlock.readItems items fields) :
    TxBlock.ofBytes lib sha3 (0x02 :: (header ++ items)) past required = fields.recovered lib sha3 := by
  have size : UInt64.ofNat (0x02 :: (header ++ items) : Bytes).length - 1 = UInt64.ofNat (header.length + items.length) := by
    rw [List.length_cons, List.length_append, UInt64.ofNat_add]
    show _ + 1 - 1 = _
    grind
  have type : (take pastEnd 1 : TxReader Bytes).eval (0x02 :: (header ++ items) ++ past) = (.ok [0x02], header ++ (items ++ past)) := by
    rw [eval_take, if_pos (by simp), ← List.append_assoc]
    rfl
  unfold TxBlock.ofBytes
  simp only [size]
  rw [Action.eval_bind, List.cons_append, eval_peek_cons]
  simp only [ne_eq, not_true, if_false]
  rw [Action.eval_bind, ← List.cons_append, type]
  simp only
  rw [Action.eval_bind, list]
  simp only
  rw [Action.eval_bind, read]
  exact eval_lift_fst _ _

/-- The signature, the sender and the hash do not matter to what is signed. -/
theorem unsigned_congr {first second : TxBlock} (items : first.items = second.items) (size : first.totalSize false = second.totalSize false) :
    first.rlpSerialize false = second.rlpSerialize false := by
  rw [TxBlock.rlpSerialize, TxBlock.rlpSerialize, size, items]
  rfl

/-- What every key of the library satisfies: only keys with a public key sign. -/
def Consistent (lib : Secp256k1) : Prop := ∀ msg key, lib.signRecoverable msg key ≠ none → lib.pubkeyCreate key ≠ none

/-- What the signing constructors establish about numbers of a signature. -/
theorem toUPub_ne_zero {key : PrivKey} {msg : Hash} {sig : Signature} (consistent : Consistent lib)
    (signed : lib.sign msg key = .ok sig) (valid : Secp256k1.verifySig sig.r sig.s sig.v = true) : lib.toUPub key ≠ 0 := by
  unfold Secp256k1.sign at signed
  cases raw : lib.signRecoverable msg key with
  | none =>
    rw [raw] at signed
    cases signed
    exact absurd valid (by decide)
  | some rawSig =>
    have known := consistent msg key (by simp [raw])
    unfold Secp256k1.toUPub
    cases point : lib.pubkeyCreate key with
    | none => exact absurd point known
    | some rawPubkey => exact Secp256k1.serialize_ne_zero rawPubkey

theorem verifySig_v {r s : Uint256} {v : UInt8} (valid : Secp256k1.verifySig r s v = true) : v ≤ 1 := by
  unfold Secp256k1.verifySig at valid
  simp only [Bool.and_eq_true, decide_eq_true_eq] at valid
  exact valid.1.1.1.1

/-- A transaction carries its signature, its sender and its hash. -/
structure Signed (lib : Secp256k1) (sha3 : Bytes → Hash) (key : PrivKey) (tx : TxBlock) : Prop where
  valid : Secp256k1.verifySig tx.r tx.s tx.v = true
  recover : lib.recover (Secp256k1.makeSig tx.r tx.s tx.v) (sha3 (tx.rlpSerialize false)) = lib.toUPub key
  known : lib.toUPub key ≠ 0
  sender : tx.from = Secp256k1.toAddress sha3 (lib.toUPub key)
  hash : tx.hash = sha3 (tx.rlpSerialize true)

section Signing
variable {receiver sender : Address} {data : Bytes} {chainId : UInt64}
  {nonce value maxPriorityFeePerGas maxFeePerGas gasLimit : Uint256} {key : PrivKey} {tx : TxBlock}

theorem sign_ok (consistent : Consistent lib) (built : TxBlock.sign lib sha3 receiver sender data chainId nonce value
    maxPriorityFeePerGas maxFeePerGas gasLimit key = .ok tx) :
    Signed lib sha3 key tx ∧ tx.nonce = nonce ∧ tx.gasLimit = gasLimit ∧ tx.data = data := by
  unfold TxBlock.sign at built
  simp only at built
  split at built
  · cases built
  case isFalse own =>
    split at built
    · cases built
    case _ sig signed =>
      split at built
      · cases built
      case isFalse recovers =>
        split at built
        · cases built
        case isFalse passes =>
          cases built
          have valid : Secp256k1.verifySig sig.r sig.s sig.v = true := by simpa using passes
          refine ⟨⟨valid, ?_, toUPub_ne_zero consistent signed valid, (not_not.mp own).symm, rfl⟩, rfl, rfl, rfl⟩
          rw [not_not.mp recovers]
          rfl

end Signing

/-- The bytes of a transaction with a long list and no data of 55 bytes are read back up to the width of nonce and gas limit. -/
theorem ofBytes_serialized (past : Bytes) (required : UInt64) (size : tx.data.length < 2 ^ 63)
    (long : 55 < tx.totalSize true) (apart : tx.data.length ≠ 55) (recovery : tx.v ≤ 1) :
    TxBlock.ofBytes lib sha3 (tx.rlpSerialize true) past required =
      { tx with
        «from» := 0
        nonce := low64 tx.nonce
        gasLimit := low64 tx.gasLimit
        hash := 0 : TxBlock }.recovered lib sha3 := by
  have total := totalSize_eq tx true
  have header := reads_listHeader long ((totalSize_lt tx size).trans (by norm_num))
  rw [← total] at header
  exact ofBytes_eq (total ▸ header) (reads_items apart (by omega) recovery)

/-- A list that is accepted is a long one, of which the items are read. -/
theorem list_accepted {payload past : Bytes} {parsed : TxBlock} (some : 0 < payload.length)
    (fits : payload.length < 2 ^ 64)
    (accepted : TxBlock.ofBytes lib sha3 (0x02 :: (listHeader payload.length ++ payload)) past required = .ok parsed) :
    55 < payload.length ∧ ∃ fields after, TxBlock.readItems.eval (payload ++ past) = (.ok fields, after) ∧
      fields.recovered lib sha3 = .ok parsed := by
  obtain ⟨list, items, fields, after, memory, header, itemsRead, recovers⟩ := ofBytes_ok accepted
  obtain rfl : listHeader payload.length ++ (payload ++ past) = list := by
    rw [← List.append_assoc]
    exact (List.cons.inj memory).2
  have spanSize : UInt64.ofNat (0x02 :: (listHeader payload.length ++ payload) : Bytes).length - 1 =
      UInt64.ofNat ((listHeader payload.length).length + payload.length) := by
    rw [List.length_cons, List.length_append, UInt64.ofNat_add]
    show _ + 1 - 1 = _
    grind
  rw [spanSize] at header
  have long : 55 < payload.length := by
    by_contra short
    have most : payload.length ≤ 55 := by omega
    have one : (listHeader payload.length).length = 1 := by
      rw [listHeader, if_pos most]
      rfl
    rw [one] at header
    exact short_list_refused most some _ _ header
  obtain ⟨_, rfl⟩ := (reads_listHeader long fits).unique header
  exact ⟨long, fields, after, itemsRead, recovers⟩

/-- The bytes of a transaction that are accepted are a long list, in which data of 55 bytes is lost. -/
theorem serialized_accepted {tx parsed : TxBlock} {past : Bytes} (size : tx.data.length < 2 ^ 63)
    (accepted : TxBlock.ofBytes lib sha3 (tx.rlpSerialize true) past required = .ok parsed) :
    55 < tx.totalSize true ∧ Narrow parsed ∧ (tx.data.length = 55 → parsed.data = []) := by
  have total : (tx.items ++ tx.sigItems).flatten.length = tx.totalSize true := totalSize_eq tx true
  have bound := totalSize_lt tx size
  have some : 0 < tx.totalSize true := by
    unfold TxBlock.totalSize
    omega
  rw [TxBlock.rlpSerialize, ← total] at accepted
  obtain ⟨long, fields, after, itemsRead, recovers⟩ := list_accepted (total ▸ some) (by omega) accepted
  obtain ⟨_, _, rfl⟩ := recovered_eq_ok.mp recovers
  obtain ⟨nonce, gasLimit, data, v⟩ := readItems_narrow itemsRead
  refine ⟨total ▸ long, ⟨nonce, gasLimit, data, v⟩, fun lost => ?_⟩
  rw [List.flatten_append, List.append_assoc] at itemsRead
  have nothing := data_lost lost itemsRead
  exact nothing

/-- What is necessary for the bytes of a transaction to be read back. -/
theorem serialized_read {past : Bytes} (size : tx.data.length < 2 ^ 63)
    (read : TxBlock.ofBytes lib sha3 (tx.rlpSerialize true) past required = .ok tx) :
    tx.nonce.toNat < 2 ^ 64 ∧ tx.gasLimit.toNat < 2 ^ 64 ∧ tx.data.length ≠ 55 ∧ 55 < tx.totalSize true := by
  obtain ⟨long, narrow, data⟩ := serialized_accepted size read
  refine ⟨narrow.nonce, narrow.gasLimit, fun lost => ?_, long⟩
  rw [data lost] at lost
  cases lost

/-- What every constructor establishes: the signature is one of the sender, and the hash that of the bytes. -/
structure Complete (lib : Secp256k1) (sha3 : Bytes → Hash) (tx : TxBlock) : Prop where
  valid : Secp256k1.verifySig tx.r tx.s tx.v = true
  recovers : lib.recover (Secp256k1.makeSig tx.r tx.s tx.v) (sha3 (tx.rlpSerialize false)) ≠ 0
  sender : tx.from = Secp256k1.toAddress sha3 (lib.recover (Secp256k1.makeSig tx.r tx.s tx.v) (sha3 (tx.rlpSerialize false)))
  hash : tx.hash = sha3 (tx.rlpSerialize true)

theorem Signed.complete {key : PrivKey} (signed : Signed lib sha3 key tx) : Complete lib sha3 tx where
  valid := signed.valid
  recovers zero := signed.known (signed.recover.symm.trans zero)
  sender := by
    rw [signed.recover]
    exact signed.sender
  hash := signed.hash

theorem ofBytes_complete {bytes past : Bytes}
    (accepted : TxBlock.ofBytes lib sha3 bytes past required = .ok tx) : Complete lib sha3 tx := by
  obtain ⟨_, _, _, _, _, _, _, recovered⟩ := ofBytes_ok accepted
  obtain ⟨valid, recovers, rfl⟩ := recovered_eq_ok.mp recovered
  exact ⟨valid, recovers, rfl, rfl⟩

/-- What is sufficient for the bytes of a transaction to be read back. -/
theorem Complete.read (complete : Complete lib sha3 tx) (size : tx.data.length < 2 ^ 63)
    (nonce : tx.nonce.toNat < 2 ^ 64) (gasLimit : tx.gasLimit.toNat < 2 ^ 64) (apart : tx.data.length ≠ 55)
    (long : 55 < tx.totalSize true) (past : Bytes) (required : UInt64) :
    TxBlock.ofBytes lib sha3 (tx.rlpSerialize true) past required = .ok tx := by
  rw [ofBytes_serialized past required size long apart (verifySig_v complete.valid), low64_eq_iff.mpr nonce,
    low64_eq_iff.mpr gasLimit]
  refine recovered_eq_ok.mpr ⟨complete.valid, complete.recovers, ?_⟩
  have whole : tx = { tx with
      «from» := Secp256k1.toAddress sha3
        (lib.recover (Secp256k1.makeSig tx.r tx.s tx.v) (sha3 (tx.rlpSerialize false)))
      hash := sha3 (tx.rlpSerialize true) } := by rw [← complete.sender, ← complete.hash]
  exact whole

/-- Whether a transaction comes back from its own bytes does not depend on what is behind them. -/
theorem Complete.reads_iff (complete : Complete lib sha3 tx) (size : tx.data.length < 2 ^ 63) (past : Bytes)
    (required : UInt64) : TxBlock.ofBytes lib sha3 (tx.rlpSerialize true) past required = .ok tx ↔
      tx.nonce.toNat < 2 ^ 64 ∧ tx.gasLimit.toNat < 2 ^ 64 ∧ tx.data.length ≠ 55 ∧ 55 < tx.totalSize true := by
  constructor
  · exact serialized_read size
  · rintro ⟨nonce, gasLimit, apart, long⟩
    exact complete.read size nonce gasLimit apart long past required

/-- Reading the bytes of a signed transaction gives the transaction back exactly if nonce and
gas limit have 64 bits, the data is not 55 bytes long and the list is longer than 55 bytes. -/
theorem signed_tx_reads_back_iff (consistent : Consistent lib) {receiver sender : Address} {data : Bytes} {chainId : UInt64}
    {nonce value maxPriorityFeePerGas maxFeePerGas gasLimit : Uint256} {key : PrivKey} {tx : TxBlock}
    (built : TxBlock.sign lib sha3 receiver sender data chainId nonce value maxPriorityFeePerGas maxFeePerGas gasLimit key = .ok tx)
    (addressable : data.length < 2 ^ 63) (past : Bytes) :
    TxBlock.ofBytes lib sha3 (tx.rlpSerialize true) past chainId = .ok tx ↔
      nonce.toNat < 2 ^ 64 ∧ gasLimit.toNat < 2 ^ 64 ∧ data.length ≠ 55 ∧ 55 < tx.totalSize true := by
  obtain ⟨signed, rfl, rfl, rfl⟩ := sign_ok consistent built
  exact signed.complete.reads_iff addressable past chainId

end Constructors

def oneKeyCurve : Secp256k1 where
  pubkeyCreate key := if key = 1 then some 2 else none
  signRecoverable _ key := if key = 1 then some ⟨BitVec.twoPow 256 255, BitVec.twoPow 256 254, 0⟩ else none
  ecdsaRecover _ _ := some 2

theorem oneKeyCurve_consistent : Consistent oneKeyCurve := by
  intro msg key signs none
  have other : key ≠ 1 := by
    rintro rfl
    cases none
  exact signs (if_neg other)

def oneKeyAddress : Address := Secp256k1.toAddress Hash.ofBytes (oneKeyCurve.toUPub 1)

/-- A transfer with some data, signed with the one key. -/
def signedTransfer (data : Bytes) : Except Exception TxBlock :=
  TxBlock.sign oneKeyCurve Hash.ofBytes 9 oneKeyAddress data 8080 0 1 1 1 21000 1

theorem exists_ok {α : Type} {outcome : Except Exception α} (ok : outcome.isOk = true) : ∃ value, outcome = .ok value := by
  cases outcome with
  | error what => cases ok
  | ok value => exact ⟨value, rfl⟩

theorem oneKeyCurve_signs (msg : Hash) : oneKeyCurve.sign msg 1 = .ok ⟨BitVec.twoPow 256 255, BitVec.twoPow 256 254, 0⟩ := by
  have small : ¬ Secp256k1.ecConst.toNat / 2 < (BitVec.twoPow 256 254).toNat := by decide
  have raw : oneKeyCurve.signRecoverable msg 1 = some ⟨BitVec.twoPow 256 255, BitVec.twoPow 256 254, 0⟩ := by
    simp only [oneKeyCurve, if_true]
  rw [Secp256k1.sign, raw]
  simp only [if_neg small]
  rfl

/-- The one key signs any data, and long data is read back. -/
theorem signedTransfer_reads_back {data : Bytes} (long : 55 < data.length) (addressable : data.length < 2 ^ 63) :
    ∃ tx, signedTransfer data = .ok tx ∧ tx.data = data ∧
      ∀ past required, TxBlock.ofBytes oneKeyCurve Hash.ofBytes (tx.rlpSerialize true) past required = .ok tx := by
  have valid : Secp256k1.verifySig (BitVec.twoPow 256 255) (BitVec.twoPow 256 254) 0 = true := by decide
  have built : ∃ tx, signedTransfer data = .ok tx := by
    unfold signedTransfer TxBlock.sign
    simp only [oneKeyCurve_signs]
    rw [if_neg (not_not.mpr (by rfl)), if_neg (not_not.mpr (by rfl)), if_neg (by rw [valid]; decide)]
    exact ⟨_, rfl⟩
  obtain ⟨tx, built⟩ := built
  obtain ⟨signed, nonce, gasLimit, same⟩ := sign_ok oneKeyCurve_consistent built
  have total : 55 < tx.totalSize true := by
    have least := length_le_dataSize tx.data
    rw [same] at least
    unfold TxBlock.totalSize
    rw [same]
    omega
  refine ⟨tx, built, same, fun past required => signed.complete.read (same ▸ addressable) ?_ ?_ (by rw [same]; omega) total past required⟩
  · rw [nonce]
    decide
  · rw [gasLimit]
    decide

theorem data_of_55_bytes_is_lost : ∃ tx, signedTransfer (List.replicate 55 0) = .ok tx ∧ ∀ past,
    TxBlock.ofBytes oneKeyCurve Hash.ofBytes (tx.rlpSerialize true) past 8080 ≠ .ok tx := by
  obtain ⟨tx, built⟩ := exists_ok (show (signedTransfer (List.replicate 55 0)).isOk = true by decide +kernel)
  obtain ⟨_, _, _, data⟩ := sign_ok oneKeyCurve_consistent built
  refine ⟨tx, built, fun past read => ?_⟩
  obtain ⟨_, _, apart, _⟩ := serialized_read (by rw [data]; decide) read
  exact apart (by rw [data]; rfl)

theorem data_of_54_bytes_is_kept : ∃ tx, signedTransfer (List.replicate 54 0) = .ok tx ∧ ∀ past,
    TxBlock.ofBytes oneKeyCurve Hash.ofBytes (tx.rlpSerialize true) past 8080 = .ok tx := by
  obtain ⟨tx, built⟩ := exists_ok (show (signedTransfer (List.replicate 54 0)).isOk = true by decide +kernel)
  refine ⟨tx, built, fun past => (signed_tx_reads_back_iff oneKeyCurve_consistent built (by decide) past).mpr ?_⟩
  refine ⟨by decide, by decide, by decide, ?_⟩
  have long : (signedTransfer (List.replicate 54 0)).toOption.all fun tx => 55 < tx.totalSize true := by decide +kernel
  rw [built] at long
  exact of_decide_eq_true long

end OrbiterSDK.Proofs.TxRoundTrip
