import OrbiterSDK.Lib.HashTree
import OrbiterSDK.Proofs.Canonical
import OrbiterSDK.Proofs.TxShapes
import OrbiterSDK.Proofs.ValidatorRoundTrip

/-! A second signature for every transaction. Signing takes the smaller of the two numbers
that sign a message; reading takes either, and the hash tells them apart. -/

namespace OrbiterSDK.Proofs.Malleability
open Lib Lib.Reader Utils Tx ByteStrings TxItems TxRoundTrip

/-- What recovery satisfies: the other signature of a message belongs to the same key. -/
def Symmetric (lib : Secp256k1) : Prop := ∀ (r s : Uint256) (v : UInt8) (msg : Hash), v ≤ 1 → 0 < s → s < Secp256k1.ecConst →
  lib.ecdsaRecover ⟨r, Secp256k1.ecConst - s, 1 - v⟩ msg = lib.ecdsaRecover ⟨r, s, v⟩ msg

private theorem zero_or_one {v : UInt8} (small : v ≤ 1) : v = 0 ∨ v = 1 := by
  have bound : v.toNat ≤ 1 := UInt8.le_iff_toNat_le.mp small
  by_cases zero : v.toNat = 0
  · exact .inl (UInt8.toNat_inj.mp zero)
  · exact .inr (UInt8.toNat_inj.mp (show v.toNat = 1 by omega))

section Flip
variable {lib : Secp256k1} {r s : Uint256} {v : UInt8}

private theorem verifySig_iff : Secp256k1.verifySig r s v = true ↔
    v ≤ 1 ∧ 0 < r ∧ 0 < s ∧ r < Secp256k1.ecConst ∧ s < Secp256k1.ecConst := by
  unfold Secp256k1.verifySig
  simp only [Bool.and_eq_true, decide_eq_true_eq, and_assoc]

private theorem toNat_flipped (below : s < Secp256k1.ecConst) :
    (Secp256k1.ecConst - s).toNat = Secp256k1.ecConst.toNat - s.toNat :=
  BitVec.toNat_sub_of_le (BitVec.le_of_lt below)

theorem verifySig_flipped (valid : Secp256k1.verifySig r s v = true) :
    Secp256k1.verifySig r (Secp256k1.ecConst - s) (1 - v) = true := by
  obtain ⟨small, someR, someS, belowR, belowS⟩ := verifySig_iff.mp valid
  have flipped := toNat_flipped belowS
  refine verifySig_iff.mpr ⟨?_, someR, ?_, belowR, ?_⟩
  · rcases zero_or_one small with rfl | rfl
    · decide
    · decide
  · rw [BitVec.lt_def] at someS belowS ⊢
    rw [flipped]
    show 0 < _
    omega
  · rw [BitVec.lt_def] at someS belowS ⊢
    rw [flipped]
    have some : 0 < s.toNat := someS
    omega

theorem recover_flipped (symmetric : Symmetric lib) (valid : Secp256k1.verifySig r s v = true) (msg : Hash) :
    lib.recover (Secp256k1.makeSig r (Secp256k1.ecConst - s) (1 - v)) msg = lib.recover (Secp256k1.makeSig r s v) msg := by
  obtain ⟨small, _, someS, _, belowS⟩ := verifySig_iff.mp valid
  have few : ¬ 3 < v := by
    rcases zero_or_one small with rfl | rfl
    · decide
    · decide
  have fewToo : ¬ 3 < 1 - v := by
    rcases zero_or_one small with rfl | rfl
    · decide
    · decide
  unfold Secp256k1.recover Secp256k1.makeSig
  simp only [if_neg few, if_neg fewToo, symmetric r s v msg small someS belowS]

end Flip

/-- A list whose length is written on eight bytes. -/
private theorem reads_paddedHeader {payload : Bytes} (fits : payload.length < 256 ^ 8) :
    Reads (readList (UInt64.ofNat ((0xff :: uintToBytes 8 payload.length).length + payload.length)))
      (0xff :: uintToBytes 8 payload.length) () := by
  have length := uintToBytes_length 8 payload.length
  have list := reads_list (Nat.le_of_eq length) (bytesToUint_uintToBytes fits)
  rw [length] at list
  rw [List.length_cons, length]
  exact list

private theorem reads_paddedData {refuses : UInt8 → Option Exception} {data : Bytes} (size : data.length < 2 ^ 63)
    (accepts : refuses 0xbf = none) : Reads (readData refuses) (0xbf :: (uintToBytes 8 data.length ++ data)) data := by
  have length := uintToBytes_length 8 data.length
  have held := bytesToUint_uintToBytes (show data.length < 256 ^ 8 by omega)
  have long := @reads_longData refuses (uintToBytes 8 data.length) data (Nat.le_of_eq length) (by rw [length]; exact accepts) held
  rw [length] at long
  exact long

section TxBlock
variable {lib : Secp256k1} {sha3 : Bytes → Hash} {tx : TxBlock} {s : Uint256} {v : UInt8}

/-- The transaction with another signature. -/
def resigned (sha3 : Bytes → Hash) (tx : TxBlock) (s : Uint256) (v : UInt8) : TxBlock :=
  let other := { tx with
    v := v
    s := s }
  { other with hash := sha3 (other.rlpSerialize true) }

theorem resigned_totalSize : (resigned sha3 tx s v).totalSize false = tx.totalSize false := by
  unfold TxBlock.totalSize
  simp only [Bool.false_eq_true, if_false]
  rfl

theorem resigned_unsigned : (resigned sha3 tx s v).rlpSerialize false = tx.rlpSerialize false :=
  unsigned_congr rfl resigned_totalSize

/-- Its items, with the data in the long form. -/
def resignedPayload (tx : TxBlock) (s : Uint256) (v : UInt8) : Bytes :=
  (itemsWith tx (0xbf :: (uintToBytes 8 tx.data.length ++ tx.data)) ++ (resigned (fun _ => 0) tx s v).sigItems).flatten

/-- Its bytes, with the list in the long form. -/
def resignedBytes (tx : TxBlock) (s : Uint256) (v : UInt8) : Bytes :=
  0x02 :: ((0xff :: uintToBytes 8 (resignedPayload tx s v).length) ++ resignedPayload tx s v)

theorem resignedPayload_lt (size : tx.data.length < 2 ^ 63) : (resignedPayload tx s v).length < 2 ^ 64 := by
  have unsigned := totalSize_eq tx false
  have total := totalSize_lt tx size
  have most : tx.totalSize false ≤ tx.totalSize true := by
    unfold TxBlock.totalSize
    simp
  have r := bytesRequired_uint256 (resigned (fun _ => 0) tx s v).r
  have s := bytesRequired_uint256 (resigned (fun _ => 0) tx s v).s
  have length := uintToBytes_length 8 tx.data.length
  have data := length_le_dataSize tx.data
  rw [← dataItem_length] at data
  simp only [TxBlock.items, Bool.false_eq_true, if_false, List.append_nil, List.flatten_cons, List.length_append] at unsigned
  simp only [resignedPayload, itemsWith, TxBlock.sigItems, List.flatten_append, List.flatten_cons, List.flatten_nil,
    List.length_append, List.length_cons, List.length_nil, scalarItem_length, v_length, length]
  omega

/-- Neither the sender nor the hash of a transaction goes into either. -/
private theorem recovered_again {fields : TxBlock} (recovers : fields.recovered lib sha3 = .ok tx) : tx.recovered lib sha3 = .ok tx := by
  obtain ⟨valid, known, rfl⟩ := recovered_eq_ok.mp recovers
  exact recovered_eq_ok.mpr ⟨valid, known, rfl⟩

theorem recovered_resigned (recovers : tx.recovered lib sha3 = .ok tx) (valid : Secp256k1.verifySig tx.r s v = true)
    (key : ∀ msg, lib.recover (Secp256k1.makeSig tx.r s v) msg = lib.recover (Secp256k1.makeSig tx.r tx.s tx.v) msg) :
    (resigned sha3 tx s v).recovered lib sha3 = .ok (resigned sha3 tx s v) := by
  obtain ⟨_, known, whole⟩ := recovered_eq_ok.mp recovers
  have sender : tx.from = Secp256k1.toAddress sha3
      (lib.recover (Secp256k1.makeSig tx.r tx.s tx.v) (sha3 (tx.rlpSerialize false))) := (congrArg TxBlock.from whole :)
  have same : lib.recover (Secp256k1.makeSig tx.r s v) (sha3 ((resigned sha3 tx s v).rlpSerialize false)) =
      lib.recover (Secp256k1.makeSig tx.r tx.s tx.v) (sha3 (tx.rlpSerialize false)) := by
    rw [resigned_unsigned]
    exact key _
  refine recovered_eq_ok.mpr ⟨valid, fun zero => known (same.symm.trans zero), ?_⟩
  rw [show (resigned sha3 tx s v).r = tx.r from rfl, show (resigned sha3 tx s v).s = s from rfl,
    show (resigned sha3 tx s v).v = v from rfl, same, ← sender]
  rfl

theorem resigned_accepted (narrow : Narrow tx) (size : tx.data.length < 2 ^ 63) (recovers : tx.recovered lib sha3 = .ok tx)
    (valid : Secp256k1.verifySig tx.r s v = true)
    (key : ∀ msg, lib.recover (Secp256k1.makeSig tx.r s v) msg = lib.recover (Secp256k1.makeSig tx.r tx.s tx.v) msg)
    (past : Bytes) (required : UInt64) :
    TxBlock.ofBytes lib sha3 (resignedBytes tx s v) past required = .ok (resigned sha3 tx s v) := by
  have header := reads_paddedHeader (@resignedPayload_lt tx s v size)
  have data := @reads_paddedData (fun first => if first < 0xc0 then none else some "Data is too large") tx.data size rfl
  have items : Reads TxBlock.readItems (resignedPayload tx s v) _ :=
    @reads_itemsWith (resigned (fun _ => 0) tx s v) _ (verifySig_v valid) data
  have other : (resigned sha3 tx s v).recovered lib sha3 = .ok (resigned sha3 tx s v) := recovered_resigned recovers valid key
  refine (ofBytes_eq header items).trans ?_
  rw [show low64 (resigned (fun _ => 0) tx s v).nonce = (resigned sha3 tx s v).nonce from low64_eq_iff.mpr narrow.nonce,
    show low64 (resigned (fun _ => 0) tx s v).gasLimit = (resigned sha3 tx s v).gasLimit from low64_eq_iff.mpr narrow.gasLimit]
  exact other

/-- With the same unsigned serialization, two transactions are serialized alike only with the same recovery id. -/
theorem v_of_serialized {other : TxBlock} (unsigned : other.rlpSerialize false = tx.rlpSerialize false) (small : tx.v ≤ 1)
    (smallToo : other.v ≤ 1) (same : other.rlpSerialize true = tx.rlpSerialize true) : other.v = tx.v := by
  rw [Canonical.rlpSerialize_eq, Canonical.rlpSerialize_eq] at same unsigned
  have payload := Rlp.flatten_eq_of_list_eq (List.cons.inj same).2
  have items := Rlp.flatten_eq_of_list_eq (List.cons.inj unsigned).2
  simp only [Bool.false_eq_true, if_false, List.append_nil] at items
  simp only [if_true, List.flatten_append, items, List.append_cancel_left_eq, TxBlock.sigItems, List.flatten_cons] at payload
  have read := reads_v smallToo ([scalarItem other.r.toNat, scalarItem other.s.toNat].flatten)
  simp only [List.flatten_cons] at read
  rw [payload] at read
  exact ((reads_v small).unique read).1

theorem accepted_recovered {bytes past : Bytes} {required : UInt64} (accepted : TxBlock.ofBytes lib sha3 bytes past required = .ok tx) :
    Narrow tx ∧ tx.recovered lib sha3 = .ok tx := by
  obtain ⟨_, _, fields, _, _, _, itemsRead, recovers⟩ := ofBytes_ok accepted
  have narrow := readItems_narrow itemsRead
  refine ⟨?_, recovered_again recovers⟩
  obtain ⟨_, _, rfl⟩ := recovered_eq_ok.mp recovers
  exact ⟨narrow.nonce, narrow.gasLimit, narrow.data, narrow.v⟩

private theorem hash_of_recovered (recovers : tx.recovered lib sha3 = .ok tx) : tx.hash = sha3 (tx.rlpSerialize true) :=
  (congrArg TxBlock.hash (recovered_eq_ok.mp recovers).2.2 :)

end TxBlock

section TxValidator
variable {lib : Secp256k1} {sha3 : Bytes → Hash} {tx : TxValidator} {s v : Uint256} {recoveryId : UInt8}

/-- The validator transaction with another signature. -/
def resignedValidator (sha3 : Bytes → Hash) (tx : TxValidator) (s v : Uint256) : TxValidator :=
  let other := { tx with
    v := v
    s := s }
  { other with hash := sha3 (other.rlpSerialize true) }

theorem resignedValidator_unsigned : (resignedValidator sha3 tx s v).rlpSerialize false = tx.rlpSerialize false := by
  unfold TxValidator.rlpSerialize TxValidator.totalSize TxValidator.items
  simp only [Bool.false_eq_true, if_false]
  rfl

def resignedValidatorPayload (tx : TxValidator) (s v : Uint256) : Bytes :=
  [0xbf :: (uintToBytes 8 tx.data.length ++ tx.data), uintItem tx.nHeight.toNat, uintItem v.toNat, scalarItem tx.r.toNat,
    scalarItem s.toNat].flatten

def resignedValidatorBytes (tx : TxValidator) (s v : Uint256) : Bytes :=
  (0xff :: uintToBytes 8 (resignedValidatorPayload tx s v).length) ++ resignedValidatorPayload tx s v

theorem resignedValidatorPayload_lt (size : tx.data.length < 2 ^ 63) : (resignedValidatorPayload tx s v).length < 2 ^ 64 := by
  have nHeight := uintSize_le (bytesRequired_uint64 tx.nHeight)
  have v := uintSize_le (bytesRequired_uint256 v)
  have r := bytesRequired_uint256 tx.r
  have s := bytesRequired_uint256 s
  have length := uintToBytes_length 8 tx.data.length
  simp only [resignedValidatorPayload, List.flatten_cons, List.flatten_nil, List.length_append, List.length_cons, List.length_nil,
    uintItem_length, scalarItem_length, length]
  omega

/-- An accepted validator transaction, with its recovery id. -/
structure Recovered (lib : Secp256k1) (sha3 : Bytes → Hash) (tx : TxValidator) (recoveryId : UInt8) : Prop where
  unfolded : TxValidator.unfoldV tx.v = .ok (tx.chainId, recoveryId)
  valid : Secp256k1.verifySig tx.r tx.s recoveryId = true
  known : lib.recover (Secp256k1.makeSig tx.r tx.s recoveryId) (sha3 (tx.rlpSerialize false)) ≠ 0
  whole : tx = ValidatorRoundTrip.completed lib sha3 tx recoveryId

theorem validator_recovered {fields : TxValidator} (recovers : fields.recovered lib sha3 = .ok tx) :
    ∃ recoveryId, Recovered lib sha3 tx recoveryId := by
  obtain ⟨chainId, recoveryId, unfolded, valid, known, rfl⟩ := ValidatorRoundTrip.recovered_eq_ok.mp recovers
  exact ⟨recoveryId, unfolded, valid, known, rfl⟩

theorem recovered_resignedValidator (recovered : Recovered lib sha3 tx recoveryId) {otherId : UInt8}
    (unfolded : TxValidator.unfoldV v = .ok (tx.chainId, otherId)) (valid : Secp256k1.verifySig tx.r s otherId = true)
    (key : ∀ msg, lib.recover (Secp256k1.makeSig tx.r s otherId) msg = lib.recover (Secp256k1.makeSig tx.r tx.s recoveryId) msg) :
    { resignedValidator sha3 tx s v with
      «from» := 0
      chainId := 0
      hash := 0 : TxValidator }.recovered lib sha3 = .ok (resignedValidator sha3 tx s v) := by
  have sender : tx.from = Secp256k1.toAddress sha3
      (lib.recover (Secp256k1.makeSig tx.r tx.s recoveryId) (sha3 (tx.rlpSerialize false))) :=
    (congrArg TxValidator.from recovered.whole :)
  have same : lib.recover (Secp256k1.makeSig tx.r s otherId) (sha3 ((resignedValidator sha3 tx s v).rlpSerialize false)) =
      lib.recover (Secp256k1.makeSig tx.r tx.s recoveryId) (sha3 (tx.rlpSerialize false)) := by
    rw [resignedValidator_unsigned]
    exact key _
  refine ValidatorRoundTrip.recovered_eq_ok.mpr ⟨tx.chainId, otherId, unfolded, valid, fun zero => recovered.known (same.symm.trans zero), ?_⟩
  have whole : resignedValidator sha3 tx s v = ValidatorRoundTrip.completed lib sha3 (resignedValidator sha3 tx s v) otherId := by
    rw [ValidatorRoundTrip.completed, show (resignedValidator sha3 tx s v).r = tx.r from rfl,
      show (resignedValidator sha3 tx s v).s = s from rfl, same, ← sender]
    rfl
  exact whole

theorem resignedValidator_accepted (recovered : Recovered lib sha3 tx recoveryId) (size : tx.data.length < 2 ^ 63) {otherId : UInt8}
    (unfolded : TxValidator.unfoldV v = .ok (tx.chainId, otherId)) (valid : Secp256k1.verifySig tx.r s otherId = true)
    (key : ∀ msg, lib.recover (Secp256k1.makeSig tx.r s otherId) msg = lib.recover (Secp256k1.makeSig tx.r tx.s recoveryId) msg)
    (past : Bytes) (required : UInt64) :
    TxValidator.ofBytes lib sha3 (resignedValidatorBytes tx s v) past required = .ok (resignedValidator sha3 tx s v) := by
  have header := reads_paddedHeader (@resignedValidatorPayload_lt tx s v size)
  have data := @reads_paddedData (fun _ => none) tx.data size rfl
  have items : Reads TxValidator.readItems (resignedValidatorPayload tx s v) _ :=
    @ValidatorRoundTrip.reads_itemsWith (resignedValidator sha3 tx s v) _ data
  have other := recovered_resignedValidator recovered unfolded valid key
  exact (ValidatorRoundTrip.ofBytes_eq header items).trans other

theorem validator_v_of_serialized {other : TxValidator} (unsigned : other.rlpSerialize false = tx.rlpSerialize false)
    (chainId : other.chainId = tx.chainId) (folded : tx.v ≠ 0) (foldedToo : other.v ≠ 0)
    (same : other.rlpSerialize true = tx.rlpSerialize true) : other.v = tx.v := by
  rw [TxValidator.rlpSerialize, TxValidator.rlpSerialize, Canonical.listHeader_eq, Canonical.listHeader_eq,
    ← ValidatorRoundTrip.totalSize_eq, ← ValidatorRoundTrip.totalSize_eq] at same unsigned
  have payload := Rlp.flatten_eq_of_list_eq same
  have items := Rlp.flatten_eq_of_list_eq unsigned
  simp only [TxValidator.items, Bool.false_eq_true, if_false, chainId, List.flatten_cons, ← List.append_assoc,
    List.append_cancel_right_eq] at items
  rw [ValidatorRoundTrip.signedItems_eq folded, ValidatorRoundTrip.signedItems_eq foldedToo] at payload
  simp only [List.flatten_cons] at payload
  rw [← List.append_assoc, items, List.append_assoc, List.append_cancel_left_eq, List.append_cancel_left_eq] at payload
  have read := reads_uint256 "" other.v ([scalarItem other.r.toNat, scalarItem other.s.toNat].flatten)
  simp only [List.flatten_cons] at read
  rw [payload] at read
  exact ((reads_uint256 "" tx.v).unique read).1

private theorem validator_hash_of_recovered (recovered : Recovered lib sha3 tx recoveryId) : tx.hash = sha3 (tx.rlpSerialize true) :=
  (congrArg TxValidator.hash recovered.whole :)

theorem validator_accepted_recovered {bytes past : Bytes} {required : UInt64}
    (accepted : TxValidator.ofBytes lib sha3 bytes past required = .ok tx) : ∃ recoveryId, Recovered lib sha3 tx recoveryId := by
  obtain ⟨_, _, _, _, _, recovers⟩ := ValidatorRoundTrip.ofBytes_ok accepted
  exact validator_recovered recovers

end TxValidator

variable {lib : Secp256k1} {sha3 : Bytes → Hash}

/-- The same transaction of the same sender, with the other signature. -/
structure Mirrors (tx other : TxBlock) : Prop where
  sender : other.from = tx.from
  unsigned : other.rlpSerialize false = tx.rlpSerialize false
  r : other.r = tx.r
  s : other.s = Secp256k1.ecConst - tx.s
  v : other.v = 1 - tx.v

/-- The recovery ids are what remains of `v`: together one. -/
structure ValidatorMirrors (tx other : TxValidator) : Prop where
  sender : other.from = tx.from
  unsigned : other.rlpSerialize false = tx.rlpSerialize false
  chainId : other.chainId = tx.chainId
  r : other.r = tx.r
  s : other.s = Secp256k1.ecConst - tx.s
  v : other.v.toNat + tx.v.toNat = 4 * tx.chainId.toNat + 71

theorem mirror_accepted (symmetric : Symmetric lib) {bytes past : Bytes} {required : UInt64} {tx : TxBlock}
    (accepted : TxBlock.ofBytes lib sha3 bytes past required = .ok tx) (addressable : tx.data.length < 2 ^ 63) :
    ∃ other bytes', Mirrors tx other ∧ ∀ past', TxBlock.ofBytes lib sha3 bytes' past' required = .ok other := by
  obtain ⟨narrow, recovers⟩ := accepted_recovered accepted
  have valid := (recovered_eq_ok.mp recovers).1
  generalize flippedS : Secp256k1.ecConst - tx.s = s
  have flipped := verifySig_flipped valid
  have key := recover_flipped symmetric valid
  rw [flippedS] at flipped key
  exact ⟨resigned sha3 tx s (1 - tx.v), resignedBytes tx s (1 - tx.v), ⟨rfl, resigned_unsigned, rfl, flippedS.symm, rfl⟩,
    fun past' => resigned_accepted narrow addressable recovers flipped key past' required⟩

theorem mirror_differs {bytes past bytes' past' : Bytes} {required : UInt64} {tx other : TxBlock}
    (accepted : TxBlock.ofBytes lib sha3 bytes past required = .ok tx)
    (acceptedToo : TxBlock.ofBytes lib sha3 bytes' past' required = .ok other) (mirrors : Mirrors tx other)
    (safe : HashTree.Collisionless sha3 [tx.rlpSerialize true, other.rlpSerialize true]) : other.hash ≠ tx.hash := by
  obtain ⟨narrow, recovers⟩ := accepted_recovered accepted
  obtain ⟨narrowToo, recoversToo⟩ := accepted_recovered acceptedToo
  rw [hash_of_recovered recovers, hash_of_recovered recoversToo]
  intro same
  have v := v_of_serialized mirrors.unsigned narrow.v narrowToo.v (safe _ (by simp) _ (by simp) same)
  rw [mirrors.v] at v
  rcases zero_or_one narrow.v with zero | one
  · rw [zero] at v
    exact absurd v (by decide)
  · rw [one] at v
    exact absurd v (by decide)

theorem validator_mirror_accepted (symmetric : Symmetric lib) {bytes past : Bytes} {required : UInt64} {tx : TxValidator}
    (accepted : TxValidator.ofBytes lib sha3 bytes past required = .ok tx) (addressable : tx.data.length < 2 ^ 63) :
    ∃ other bytes', ValidatorMirrors tx other ∧ ∀ past', TxValidator.ofBytes lib sha3 bytes' past' required = .ok other := by
  obtain ⟨recoveryId, recovered⟩ := validator_accepted_recovered accepted
  obtain ⟨some, small, folded⟩ := ValidatorRoundTrip.unfoldV_ok recovered.unfolded
  have bound := tx.chainId.toNat_lt
  have one : recoveryId.toNat ≤ 1 := UInt8.le_iff_toNat_le.mp small
  have complement : 1 - recoveryId ≤ 1 ∧ (1 - recoveryId).toNat = 1 - recoveryId.toNat := by
    rcases zero_or_one small with rfl | rfl
    · decide
    · decide
  obtain ⟨v, value⟩ : ∃ v : Uint256, v.toNat = 4 * tx.chainId.toNat + 71 - tx.v.toNat :=
    ⟨BitVec.ofNat 256 (4 * tx.chainId.toNat + 71 - tx.v.toNat), by rw [BitVec.toNat_ofNat, Nat.mod_eq_of_lt (by omega)]⟩
  have unfolded : TxValidator.unfoldV v = .ok (tx.chainId, 1 - recoveryId) :=
    ValidatorRoundTrip.unfoldV_eq some complement.1 (by rw [value, complement.2]; omega)
  generalize flippedS : Secp256k1.ecConst - tx.s = s
  have flipped := verifySig_flipped recovered.valid
  have key := recover_flipped symmetric recovered.valid
  rw [flippedS] at flipped key
  have mirrors : ValidatorMirrors tx (resignedValidator sha3 tx s v) :=
    ⟨rfl, resignedValidator_unsigned, rfl, rfl, flippedS.symm, (by rw [show (resignedValidator sha3 tx s v).v = v from rfl]; omega)⟩
  exact ⟨resignedValidator sha3 tx s v, resignedValidatorBytes tx s v, mirrors,
    fun past' => resignedValidator_accepted recovered addressable unfolded flipped key past' required⟩

theorem validator_mirror_differs {bytes past bytes' past' : Bytes} {required : UInt64} {tx other : TxValidator}
    (accepted : TxValidator.ofBytes lib sha3 bytes past required = .ok tx)
    (acceptedToo : TxValidator.ofBytes lib sha3 bytes' past' required = .ok other) (mirrors : ValidatorMirrors tx other)
    (safe : HashTree.Collisionless sha3 [tx.rlpSerialize true, other.rlpSerialize true]) : other.hash ≠ tx.hash := by
  obtain ⟨_, recovered⟩ := validator_accepted_recovered accepted
  obtain ⟨_, recoveredToo⟩ := validator_accepted_recovered acceptedToo
  rw [validator_hash_of_recovered recovered, validator_hash_of_recovered recoveredToo]
  intro same
  obtain ⟨_, _, folded⟩ := ValidatorRoundTrip.unfoldV_ok recovered.unfolded
  obtain ⟨_, _, foldedToo⟩ := ValidatorRoundTrip.unfoldV_ok recoveredToo.unfolded
  have nonzero : ∀ v : Uint256, 35 ≤ v.toNat → v ≠ 0 := by
    rintro v large rfl
    simp at large
  have v := validator_v_of_serialized mirrors.unsigned mirrors.chainId (nonzero _ (by omega)) (nonzero _ (by omega))
    (safe _ (by simp) _ (by simp) same)
  -- Twice the same number is not odd.
  have sum := mirrors.v
  rw [v] at sum
  omega

/-- Every accepted transaction is accepted with the other signature as well, and then has another hash. -/
theorem mirrored_signatures_have_other_hashes (symmetric : Symmetric lib) :
    (∀ {bytes past : Bytes} {required : UInt64} {tx : TxBlock},
      TxBlock.ofBytes lib sha3 bytes past required = .ok tx → tx.data.length < 2 ^ 63 →
      (∃ other bytes', Mirrors tx other ∧ ∀ past', TxBlock.ofBytes lib sha3 bytes' past' required = .ok other) ∧
      ∀ {bytes' past' : Bytes} {other : TxBlock}, TxBlock.ofBytes lib sha3 bytes' past' required = .ok other → Mirrors tx other →
        HashTree.Collisionless sha3 [tx.rlpSerialize true, other.rlpSerialize true] → other.hash ≠ tx.hash) ∧
    (∀ {bytes past : Bytes} {required : UInt64} {tx : TxValidator},
      TxValidator.ofBytes lib sha3 bytes past required = .ok tx → tx.data.length < 2 ^ 63 →
      (∃ other bytes', ValidatorMirrors tx other ∧ ∀ past', TxValidator.ofBytes lib sha3 bytes' past' required = .ok other) ∧
      ∀ {bytes' past' : Bytes} {other : TxValidator}, TxValidator.ofBytes lib sha3 bytes' past' required = .ok other →
        ValidatorMirrors tx other →
        HashTree.Collisionless sha3 [tx.rlpSerialize true, other.rlpSerialize true] → other.hash ≠ tx.hash) :=
  ⟨fun accepted addressable => ⟨mirror_accepted symmetric accepted addressable, mirror_differs accepted⟩,
    fun accepted addressable => ⟨validator_mirror_accepted symmetric accepted addressable, validator_mirror_differs accepted⟩⟩

def mirroredTransferPayload : Bytes :=
  [[0x01], [0x80], [0x01], [0x01], [0x82, 0x52, 0x08], 0x94 :: List.replicate 20 9, [0x01], [0x80], [0xc0], [0x01],
    0xa0 :: 0x80 :: List.replicate 31 0, 0xa0 :: uintToBytes 32 (Secp256k1.ecConst.toNat - 2 ^ 254)].flatten

def mirroredTransferBytes : Bytes := 0x02 :: 0xf8 :: UInt8.ofNat mirroredTransferPayload.length :: mirroredTransferPayload

private theorem transfers : ∃ tx other, TxBlock.ofBytes oneKeyCurve Hash.ofBytes (TxShapes.transferBytes []) [] 1 = .ok tx ∧
    TxBlock.ofBytes oneKeyCurve Hash.ofBytes mirroredTransferBytes [] 1 = .ok other ∧ Mirrors tx other ∧
    Hash.ofBytes (tx.rlpSerialize true) ≠ Hash.ofBytes (other.rlpSerialize true) ∧ tx.data = [] ∧ other.hash ≠ tx.hash := by
  obtain ⟨tx, read⟩ := exists_ok (show (TxBlock.ofBytes oneKeyCurve Hash.ofBytes (TxShapes.transferBytes []) [] 1).isOk = true by
    decide +kernel)
  obtain ⟨other, readToo⟩ := exists_ok (show (TxBlock.ofBytes oneKeyCurve Hash.ofBytes mirroredTransferBytes [] 1).isOk = true by
    decide +kernel)
  have facts : (TxBlock.ofBytes oneKeyCurve Hash.ofBytes (TxShapes.transferBytes []) [] 1).toOption.all fun tx =>
      (TxBlock.ofBytes oneKeyCurve Hash.ofBytes mirroredTransferBytes [] 1).toOption.all fun other =>
        (other.from = tx.from ∧ other.rlpSerialize false = tx.rlpSerialize false ∧ other.r = tx.r ∧
          other.s = Secp256k1.ecConst - tx.s ∧ other.v = 1 - tx.v) ∧
        Hash.ofBytes (tx.rlpSerialize true) ≠ Hash.ofBytes (other.rlpSerialize true) ∧ tx.data = [] ∧ other.hash ≠ tx.hash := by
    decide +kernel
  rw [read, readToo] at facts
  obtain ⟨⟨sender, unsigned, r, s, v⟩, rest⟩ := of_decide_eq_true facts
  exact ⟨tx, other, read, readToo, ⟨sender, unsigned, r, s, v⟩, rest⟩

theorem second_signature_is_another_hash : ∃ tx other,
    TxBlock.ofBytes oneKeyCurve Hash.ofBytes (TxShapes.transferBytes []) [] 1 = .ok tx ∧
    TxBlock.ofBytes oneKeyCurve Hash.ofBytes mirroredTransferBytes [] 1 = .ok other ∧ Mirrors tx other ∧ other.hash ≠ tx.hash := by
  obtain ⟨tx, other, read, readToo, mirrors, _, _, differ⟩ := transfers
  exact ⟨tx, other, read, readToo, mirrors, differ⟩

private theorem oneKeyCurve_symmetric : Symmetric oneKeyCurve := by
  intro r s v msg small some below
  simp only [oneKeyCurve]

theorem transfer_has_a_mirror : ∃ tx,
    (∃ other bytes', Mirrors tx other ∧ ∀ past', TxBlock.ofBytes oneKeyCurve Hash.ofBytes bytes' past' 1 = .ok other) ∧
    ∃ other, TxBlock.ofBytes oneKeyCurve Hash.ofBytes mirroredTransferBytes [] 1 = .ok other ∧ other.hash ≠ tx.hash := by
  obtain ⟨tx, other, read, readToo, mirrors, apart, data, _⟩ := transfers
  obtain ⟨exists_mirror, differs⟩ := (@mirrored_signatures_have_other_hashes oneKeyCurve Hash.ofBytes oneKeyCurve_symmetric).1 read
    (by rw [data]; decide)
  refine ⟨tx, exists_mirror, other, readToo, differs readToo mirrors ?_⟩
  intro left leftIn right rightIn same
  rcases List.mem_pair.mp leftIn with rfl | rfl <;> rcases List.mem_pair.mp rightIn with rfl | rfl
  · rfl
  · exact absurd same apart
  · exact absurd same.symm apart
  · rfl

end OrbiterSDK.Proofs.Malleability
