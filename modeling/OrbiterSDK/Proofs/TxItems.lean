import OrbiterSDK.Proofs.ByteStrings
import OrbiterSDK.Tx

/-! Items one at a time: what is written for a value is read as that value, and what is
read has a certain form. -/

namespace OrbiterSDK.Proofs.TxItems
open Lib Lib.Reader Utils Tx ByteStrings

theorem ofNat_add_sub {count offset : Nat} (fits : count + offset < 256) :
    (UInt8.ofNat (count + offset) - UInt8.ofNat offset).toNat = count := by
  rw [UInt8.toNat_sub, UInt8.toNat_ofNat', UInt8.toNat_ofNat']
  omega

private theorem ofNat_le_ofNat {left right : Nat} (leftFits : left < 256) (rightFits : right < 256) :
    UInt8.ofNat left ≤ UInt8.ofNat right ↔ left ≤ right := by
  rw [UInt8.le_iff_toNat_le, UInt8.toNat_ofNat', UInt8.toNat_ofNat']
  omega

theorem ofNat_lt_ofNat {left right : Nat} (leftFits : left < 256) (rightFits : right < 256) :
    UInt8.ofNat left < UInt8.ofNat right ↔ left < right := by
  rw [UInt8.lt_iff_toNat_lt, UInt8.toNat_ofNat', UInt8.toNat_ofNat']
  omega

@[simp] theorem unpadded_length (value : Nat) : (unpadded value).length = bytesRequired value := uintToBytes_length _ _

@[simp] theorem bytesToUint_unpadded (value : Nat) : bytesToUint (unpadded value) = value :=
  bytesToUint_uintToBytes (lt_pow_bytesRequired value)

theorem unpadded_zero : unpadded 0 = [] := by
  rw [unpadded, show bytesRequired 0 = 0 by rw [bytesRequired, if_pos rfl]]
  rfl

theorem bytesRequired_small {value : Nat} (some : value ≠ 0) (small : value < 256) : bytesRequired value = 1 := by
  have most : bytesRequired value ≤ 1 := bytesRequired_le_iff.mpr (by simpa using small)
  have least := bytesRequired_pos some
  omega

theorem unpadded_small {value : Nat} (some : value ≠ 0) (small : value < 256) : unpadded value = [UInt8.ofNat value] := by
  rw [unpadded, bytesRequired_small some small]
  rfl

theorem smallItem_eq {value : Nat} (some : value ≠ 0) : smallItem value = uintItem value := by
  unfold smallItem uintItem
  rw [if_neg some]

@[simp] theorem uintItem_length (value : Nat) : (uintItem value).length = uintSize value := by
  unfold uintItem uintSize
  by_cases zero : value = 0
  · simp [zero]
  · rw [if_neg zero]
    split
    · rfl
    · simp [Nat.add_comm]

@[simp] theorem smallItem_length (value : Nat) : (smallItem value).length = uintSize value := by
  unfold smallItem uintSize
  split
  · rfl
  · simp [Nat.add_comm]

@[simp] theorem scalarItem_length (value : Nat) : (scalarItem value).length = 1 + bytesRequired value := by
  simp [scalarItem, Nat.add_comm]

@[simp] theorem dataItem_length (data : Bytes) : (dataItem data).length = dataSize data := by
  unfold dataItem dataSize
  split
  · rfl
  · split
    · simp [Nat.add_comm]
    · simp only [List.length_cons, List.length_append, unpadded_length]
      omega

section Reads
variable {α : Type} {convert : Bytes → Except Exception α} {refuse : UInt8 → Option Exception} {value : α}

theorem reads_payload {payload : Bytes} (some : 0 < payload.length) (short : payload.length < 0x80)
    (allowed : refuse (UInt8.ofNat payload.length) = none) (converted : convert payload = .ok value) :
    Reads (readUint convert refuse) (UInt8.ofNat (payload.length + 0x80) :: payload) value := by
  have size : UInt8.ofNat (payload.length + 0x80) - 0x80 = UInt8.ofNat payload.length := by
    apply UInt8.toNat_inj.mp
    rw [show (0x80 : UInt8) = UInt8.ofNat 0x80 from rfl, ofNat_add_sub (by omega), UInt8.toNat_ofNat']
    omega
  have large : (0x80 : UInt8) ≤ UInt8.ofNat (payload.length + 0x80) :=
    (@ofNat_le_ofNat 0x80 _ (by omega) (by omega)).mpr (by omega)
  have counted : (UInt8.ofNat payload.length).toNat = payload.length := by
    rw [UInt8.toNat_ofNat']
    omega
  have nonzero : UInt8.ofNat payload.length ≠ 0 := by
    intro zero
    have none := congrArg UInt8.toNat zero
    rw [counted] at none
    exact Nat.ne_of_gt some none
  intro rest
  unfold readUint
  rw [List.cons_append, Action.eval_bind, eval_peek_cons]
  simp only [if_pos large, size, if_pos nonzero, allowed, counted]
  have head := @reads_take _ Exception pastEnd 1 [UInt8.ofNat (payload.length + 0x80)] rfl
  exact (head.bind ((reads_take rfl).finish (reads_lift converted))) rest

theorem reads_byte {byte : UInt8} (small : byte ≤ 0x80) (converted : convert (if byte = 0x80 then [] else [byte]) = .ok value) :
    Reads (readUint convert refuse) [byte] value := by
  have none : (if 0x80 ≤ byte then byte - 0x80 else 0) = 0 := by
    split
    case isTrue large =>
      rw [UInt8.le_antisymm small large]
      rfl
    case isFalse => rfl
  intro rest
  unfold readUint
  rw [List.cons_append, Action.eval_bind, eval_peek_cons]
  simp only [none, ne_eq, not_true, if_false]
  have head := @reads_take _ Exception pastEnd 1 [byte] rfl
  exact (head.finish (reads_lift converted)) rest

theorem reads_uint {number : Nat} (short : bytesRequired number < 0x80)
    (allowed : refuse (UInt8.ofNat (bytesRequired number)) = none) (converted : convert (unpadded number) = .ok value) :
    Reads (readUint convert refuse) (uintItem number) value := by
  unfold uintItem
  by_cases zero : number = 0
  · rw [if_pos zero]
    rw [zero, unpadded_zero] at converted
    exact reads_byte (by decide) converted
  · rw [if_neg zero]
    split
    case isTrue small =>
      rw [unpadded_small zero (by omega)] at converted
      have fits : UInt8.ofNat number < 0x80 := (@ofNat_lt_ofNat _ 0x80 (by omega) (by omega)).mpr small
      refine reads_byte (UInt8.le_of_lt fits) ?_
      rw [if_neg (UInt8.ne_of_lt fits)]
      exact converted
    case isFalse large =>
      have size := unpadded_length number
      rw [← size]
      exact reads_payload (size ▸ bytesRequired_pos zero) (size ▸ short) (size ▸ allowed) converted

theorem reads_scalar {longest : UInt8} {what : Exception} {payload : Bytes} {number : Uint256} (bound : longest < 0x80)
    (short : payload.length ≤ longest.toNat) (converted : fromBigEndian256 payload = .ok number) :
    Reads (readScalar longest what) (UInt8.ofNat (payload.length + 0x80) :: payload) number := by
  have limit : longest.toNat < 0x80 := UInt8.lt_iff_toNat_lt.mp bound
  have size : (UInt8.ofNat (payload.length + 0x80) - 0x80).toNat = payload.length :=
    @ofNat_add_sub payload.length 0x80 (by omega)
  have allowed : ¬ longest < UInt8.ofNat (payload.length + 0x80) - 0x80 := by
    rw [UInt8.lt_iff_toNat_lt, size]
    omega
  intro rest
  unfold readScalar
  rw [List.cons_append, Action.eval_bind, eval_peek_cons]
  simp only [if_neg allowed, size]
  have head := @reads_take _ Exception pastEnd 1 [UInt8.ofNat (payload.length + 0x80)] rfl
  exact (head.bind ((reads_take rfl).finish (reads_lift converted))) rest

theorem reads_shortData {payload : Bytes} (short : payload.length < 55) :
    Reads (readData refuse) (UInt8.ofNat (payload.length + 0x80) :: payload) payload := by
  have size : (UInt8.ofNat (payload.length + 0x80) - 0x80).toNat = payload.length :=
    @ofNat_add_sub payload.length 0x80 (by omega)
  have large : ¬ UInt8.ofNat (payload.length + 0x80) < 0x80 := mt (@ofNat_lt_ofNat _ 0x80 (by omega) (by omega)).mp (by omega)
  have small : UInt8.ofNat (payload.length + 0x80) < 0xb7 := (@ofNat_lt_ofNat _ 0xb7 (by omega) (by omega)).mpr (by omega)
  intro rest
  unfold readData
  rw [List.cons_append, Action.eval_bind, eval_peek_cons]
  simp only [if_neg large, if_pos small, size]
  have head := @reads_take _ Exception pastEnd 1 [UInt8.ofNat (payload.length + 0x80)] rfl
  exact (head.bind (reads_take rfl)) rest

/-- The length of the data may itself take up to eight bytes; zero bytes hold zero. -/
theorem reads_longData {size payload : Bytes} (few : size.length ≤ 8)
    (allowed : refuse (UInt8.ofNat (size.length + 0xb7)) = none) (holds : bytesToUint size = payload.length) :
    Reads (readData refuse) (UInt8.ofNat (size.length + 0xb7) :: (size ++ payload)) payload := by
  have count : (UInt8.ofNat (size.length + 0xb7) - 0xb7).toNat = size.length := @ofNat_add_sub size.length 0xb7 (by omega)
  have large : ¬ UInt8.ofNat (size.length + 0xb7) < 0x80 := mt (@ofNat_lt_ofNat _ 0x80 (by omega) (by omega)).mp (by omega)
  have long : ¬ UInt8.ofNat (size.length + 0xb7) < 0xb7 := mt (@ofNat_lt_ofNat _ 0xb7 (by omega) (by omega)).mp (by omega)
  have fits : bytesToUint size < 2 ^ 64 := by
    have wide : 256 ^ size.length ≤ 256 ^ 8 := Nat.pow_le_pow_right (by omega) few
    have held := bytesToUint_lt size
    omega
  have length : (fromBigEndian64 size).toNat = payload.length := by
    rw [fromBigEndian64, UInt64.toNat_ofNat', Nat.mod_eq_of_lt fits, holds]
  intro rest
  unfold readData
  rw [List.cons_append, Action.eval_bind, eval_peek_cons]
  simp only [if_neg large, if_neg long, allowed, count]
  have head := @reads_take _ Exception pastEnd 1 [UInt8.ofNat (size.length + 0xb7)] rfl
  exact (head.bind ((reads_take rfl).bind (length ▸ reads_take rfl))) rest

/-- Data of any length but 55 is read as it was written. -/
theorem reads_data {data : Bytes} (allowed : ∀ first < 0xc0, refuse first = none) (apart : data.length ≠ 55)
    (fits : data.length < 2 ^ 64) : Reads (readData refuse) (dataItem data) data := by
  unfold dataItem
  split
  case isTrue empty =>
    rw [List.eq_nil_of_length_eq_zero empty]
    exact @reads_shortData refuse [] (by decide)
  case isFalse =>
    split
    case isTrue => exact reads_shortData (by omega)
    case isFalse =>
      have few : bytesRequired data.length ≤ 8 := bytesRequired_le_iff.mpr fits
      have size := unpadded_length data.length
      rw [← size]
      refine reads_longData (size ▸ few) (allowed _ ?_) (bytesToUint_unpadded _)
      exact (@ofNat_lt_ofNat _ 0xc0 (by omega) (by omega)).mpr (by omega)

/-- The first byte before 55 bytes of data is taken for that of a long string without a length. -/
theorem reads_data_55 {data : Bytes} (allowed : ∀ first < 0xc0, refuse first = none) (size : data.length = 55) :
    ∃ first : UInt8, dataItem data = first :: data ∧ Reads (readData refuse) [first] [] := by
  refine ⟨0xb7, ?_, @reads_longData refuse [] [] (by decide) (allowed _ (by decide)) rfl⟩
  unfold dataItem
  rw [if_neg (by omega), if_pos (by omega), size]
  rfl

end Reads

theorem address_ofBytes_get («to» : Address) : Address.ofBytes «to».get = «to» := by
  have power : (2 : Nat) ^ 160 = 256 ^ 20 := by norm_num
  exact bitVec_ofBytes power «to»

private theorem reads_toBytes {payload : Bytes} (size : payload.length = 20) :
    Reads TxBlock.readTo (0x94 :: payload) (Address.ofBytes payload) := by
  have length : (0x94 : UInt8) - 0x80 = 20 := rfl
  intro rest
  unfold TxBlock.readTo
  rw [List.cons_append, Action.eval_bind, eval_peek_cons]
  simp only [length, ne_eq, not_true, false_and, if_false]
  have head := @reads_take _ Exception pastEnd 1 [(0x94 : UInt8)] rfl
  have body := @reads_take _ Exception pastEnd (20 : UInt8).toNat payload size
  refine (head.bind (body.finish ?_)) rest
  rw [if_neg (by decide)]
  exact reads_pure _

theorem reads_to («to» : Address) : Reads TxBlock.readTo (if «to» = 0 then [0x80] else 0x94 :: «to».get) «to» := by
  split
  case isTrue zero =>
    rw [zero]
    exact fun _ => rfl
  case isFalse some =>
    have bytes := reads_toBytes (show «to».get.length = 20 from uintToBytes_length 20 _)
    rwa [address_ofBytes_get] at bytes

theorem reads_accessList : Reads TxBlock.readAccessList [0xc0] () := fun _ => rfl

theorem reads_v {v : UInt8} (small : v ≤ 1) : Reads TxBlock.readV (if v = 0 then [0x80] else [v]) v := by
  intro rest
  unfold TxBlock.readV
  by_cases zero : v = 0
  · rw [if_pos zero, zero]
    rfl
  · have one : v = 1 := by
      apply UInt8.toNat_inj.mp
      have bound := UInt8.le_iff_toNat_le.mp small
      have some : v.toNat ≠ 0 := fun none => zero (UInt8.toNat_inj.mp none)
      have most : v.toNat ≤ 1 := bound
      show v.toNat = 1
      omega
    rw [if_neg zero, one]
    rfl

theorem readUint_ok {α : Type} {convert : Bytes → Except Exception α} {refuse : UInt8 → Option Exception} {input after : Bytes}
    {value : α} (seen : (readUint convert refuse).eval input = (.ok value, after)) : ∃ payload, convert payload = .ok value := by
  unfold readUint at seen
  obtain ⟨first, middle, _, seen⟩ := eval_bind_ok.mp seen
  generalize (if 0x80 ≤ first then first - 0x80 else 0) = length at seen
  by_cases some : length ≠ 0
  · simp only [if_pos some] at seen
    cases refused : refuse length with
    | some what =>
      rw [refused] at seen
      cases seen
    | none =>
      rw [refused] at seen
      obtain ⟨_, _, _, seen⟩ := eval_bind_ok.mp seen
      obtain ⟨payload, _, _, seen⟩ := eval_bind_ok.mp seen
      exact ⟨payload, (eval_lift_ok_iff.mp seen).1⟩
  · simp only [if_neg some] at seen
    obtain ⟨payload, _, _, seen⟩ := eval_bind_ok.mp seen
    exact ⟨_, (eval_lift_ok_iff.mp seen).1⟩

theorem readThroughUint64_ok {refuse : UInt8 → Option Exception} {input after : Bytes} {value : Uint256}
    (seen : (readUint throughUint64 refuse).eval input = (.ok value, after)) : value.toNat < 2 ^ 64 := by
  obtain ⟨payload, converted⟩ := readUint_ok seen
  cases converted
  have fits := (fromBigEndian64 payload).toNat_lt
  rw [BitVec.toNat_ofNat, Nat.mod_eq_of_lt (by omega)]
  exact fits

theorem readData_ok {refuse : UInt8 → Option Exception} {input after data : Bytes}
    (seen : (readData refuse).eval input = (.ok data, after)) : data.length < 2 ^ 64 ∧ data.length ≤ input.length := by
  have within : ∀ {count : Nat} {taken rest early : Bytes}, (take pastEnd count).eval early = (.ok taken, rest) →
      taken.length = count ∧ taken.length + rest.length = early.length := by
    intro count taken rest early took
    obtain ⟨rfl, size⟩ := eval_take_ok took
    exact ⟨size, by simp⟩
  unfold readData at seen
  obtain ⟨first, middle, peeked, read⟩ := eval_bind_ok.mp seen
  obtain rfl : middle = input := by
    cases input with
    | nil => cases peeked
    | cons head rest => cases peeked; rfl
  by_cases small : first < 0x80
  · rw [if_pos small] at read
    obtain ⟨size, total⟩ := within read
    omega
  rw [if_neg small] at read
  by_cases short : first < 0xb7
  · rw [if_pos short] at read
    obtain ⟨_, _, took, read⟩ := eval_bind_ok.mp read
    obtain ⟨_, before⟩ := within took
    obtain ⟨size, total⟩ := within read
    have bound := (first - 0x80).toNat_lt
    omega
  rw [if_neg short] at read
  cases refused : refuse first with
  | some what =>
    rw [refused] at read
    cases read
  | none =>
    rw [refused] at read
    obtain ⟨_, _, took, read⟩ := eval_bind_ok.mp read
    obtain ⟨dataLength, _, counted, read⟩ := eval_bind_ok.mp read
    obtain ⟨_, before⟩ := within took
    obtain ⟨_, middle⟩ := within counted
    obtain ⟨size, total⟩ := within read
    have bound := (fromBigEndian64 dataLength).toNat_lt
    omega

theorem readV_ok {input after : Bytes} {v : UInt8} (seen : TxBlock.readV.eval input = (.ok v, after)) : v ≤ 1 := by
  unfold TxBlock.readV at seen
  obtain ⟨first, middle, _, seen⟩ := eval_bind_ok.mp seen
  generalize (if first = 0x80 then 0 else first) = read at seen
  by_cases large : 1 < read
  · simp only [if_pos large] at seen
    cases seen
  · simp only [if_neg large] at seen
    obtain ⟨_, _, _, seen⟩ := eval_bind_ok.mp seen
    cases seen
    exact UInt8.not_lt.mp large

/-- A byte that is read as `v` stands for nothing or is at most one. -/
theorem readV_first {first : UInt8} {rest after : Bytes} {v : UInt8}
    (seen : TxBlock.readV.eval (first :: rest) = (.ok v, after)) : first = 0x80 ∨ first ≤ 1 := by
  by_contra other
  obtain ⟨some, large⟩ := not_or.mp other
  unfold TxBlock.readV at seen
  rw [Action.eval_bind, eval_peek_cons] at seen
  simp only [if_neg some, if_pos (UInt8.not_le.mp large)] at seen
  cases seen

theorem readScalar_first {longest first : UInt8} {what : Exception} {rest after : Bytes} {value : Uint256} (bound : longest < 0x80)
    (seen : (readScalar longest what).eval (first :: rest) = (.ok value, after)) : ¬ first < 0x80 := by
  intro small
  have wrapped : longest < first - 0x80 := by
    rw [UInt8.lt_iff_toNat_lt] at small bound ⊢
    rw [UInt8.toNat_sub]
    show _ < (2 ^ 8 - 0x80 + first.toNat) % 2 ^ 8
    have limit : longest.toNat < 0x80 := bound
    have below : first.toNat < 0x80 := small
    omega
  unfold readScalar at seen
  rw [Action.eval_bind, eval_peek_cons] at seen
  simp only [if_pos wrapped] at seen
  cases seen

/-- A length of up to eight bytes that fits what follows. -/
theorem reads_list {size : Bytes} {rest : Nat} (few : size.length ≤ 8) (holds : bytesToUint size = rest) :
    Reads (readList (UInt64.ofNat (1 + size.length + rest))) (UInt8.ofNat (size.length + 0xf7) :: size) () := by
  have count : (UInt8.ofNat (size.length + 0xf7) - 0xf7).toNat = size.length := @ofNat_add_sub size.length 0xf7 (by omega)
  have list : ¬ UInt8.ofNat (size.length + 0xf7) < 0xf7 := mt (@ofNat_lt_ofNat _ 0xf7 (by omega) (by omega)).mp (by omega)
  have left : UInt64.ofNat (1 + size.length + rest) - UInt64.ofNat size.length - 1 = fromBigEndian64 size := by
    rw [fromBigEndian64, holds, UInt64.ofNat_add, UInt64.ofNat_add]
    show 1 + UInt64.ofNat size.length + UInt64.ofNat rest - UInt64.ofNat size.length - 1 = UInt64.ofNat rest
    grind
  intro input
  unfold readList
  rw [List.cons_append, Action.eval_bind, eval_peek_cons]
  simp only [if_neg list, count, left]
  have head := @reads_take _ Exception pastEnd 1 [UInt8.ofNat (size.length + 0xf7)] rfl
  refine (head.bind ((reads_take rfl).finish ?_)) input
  intro after
  rw [Action.eval_ite, if_neg fun less => UInt64.lt_irrefl _ less, Action.eval_ite, if_neg fun less => UInt64.lt_irrefl _ less]
  rfl

theorem listHeader_long {totalSize : Nat} (long : 55 < totalSize) :
    listHeader totalSize = UInt8.ofNat ((unpadded totalSize).length + 0xf7) :: unpadded totalSize := by
  rw [listHeader, if_neg (Nat.not_le.mpr long), unpadded_length]

theorem listHeader_length {totalSize : Nat} (fits : totalSize < 2 ^ 64) : (listHeader totalSize).length ≤ 9 := by
  have few : bytesRequired totalSize ≤ 8 := bytesRequired_le_iff.mpr fits
  unfold listHeader
  split
  · exact Nat.le_add_left 1 8
  · rw [List.length_cons, unpadded_length]
    omega

theorem reads_listHeader {totalSize : Nat} (long : 55 < totalSize) (fits : totalSize < 2 ^ 64) :
    Reads (readList (UInt64.ofNat ((listHeader totalSize).length + totalSize))) (listHeader totalSize) () := by
  have few : bytesRequired totalSize ≤ 8 := bytesRequired_le_iff.mpr fits
  have size := unpadded_length totalSize
  rw [listHeader, if_neg (by omega)]
  have header := reads_list (size ▸ few) (bytesToUint_unpadded totalSize)
  rwa [size, Nat.add_comm 1, ← size, ← List.length_cons, size] at header

/-- A list of up to 55 bytes is refused: its header is not taken for one, or at 55 bytes for that of an empty list. -/
theorem short_list_refused {totalSize : Nat} (short : totalSize ≤ 55) (some : 0 < totalSize) (input after : Bytes) :
    (readList (UInt64.ofNat (1 + totalSize))).eval (listHeader totalSize ++ input) ≠ (.ok (), after) := by
  rw [listHeader, if_pos short, List.cons_append]
  intro seen
  unfold readList at seen
  obtain ⟨first, middle, peeked, seen⟩ := eval_bind_ok.mp seen
  rw [eval_peek_cons] at peeked
  cases peeked
  by_cases most : totalSize = 55
  · subst most
    simp [Action.eval_bind, eval_take, fromBigEndian64] at seen
  · have list : UInt8.ofNat (totalSize + 0xc0) < 0xf7 := (@ofNat_lt_ofNat _ 0xf7 (by omega) (by omega)).mpr (by omega)
    rw [if_pos list] at seen
    cases seen

end OrbiterSDK.Proofs.TxItems
