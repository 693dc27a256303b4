import OrbiterSDK.Codecs
import OrbiterSDK.Proofs.ByteStrings

/-! Which values the integer codecs write and read back, whatever the arrays and the
words of a big integer held before. -/

namespace OrbiterSDK.Proofs.IntegerCodecs
open Codecs ByteStrings
open Utils (uintToBytes bytesToUint bytesRequired uintToBytes_length)

theorem copyBack_eq (bytes : Bytes) : ∀ {last : Nat} {ret : Bytes}, bytes.length ≤ last + 1 → last < ret.length →
    copyBack last bytes ret = ret.take (last + 1 - bytes.length) ++ bytes.reverse ++ ret.drop (last + 1) := by
  induction bytes with
  | nil =>
    intro last ret _ _
    simp [copyBack]
  | cons byte rest ih =>
    intro last ret few inside
    simp only [List.length_cons] at few
    rw [copyBack]
    cases rest with
    | nil => simp [copyBack, List.set_eq_take_append_cons_drop, inside]
    | cons next rest =>
      simp only [List.length_cons] at few ih ⊢
      rw [ih (by omega) (by rw [List.length_set]; omega)]
      have place : last - 1 + 1 = last := by omega
      have front : last + 1 - (rest.length + 1 + 1) = last - (rest.length + 1) := by omega
      have before : (ret.set last byte).take (last - (rest.length + 1)) = ret.take (last - (rest.length + 1)) := by
        rw [List.take_set_of_le (by omega)]
      have behind : (ret.set last byte).drop last = byte :: ret.drop (last + 1) := by
        rw [List.drop_eq_getElem_cons (by rw [List.length_set]; exact inside), List.drop_set_of_lt (by omega)]
        simp
      rw [place, front, before, behind]
      simp

theorem exportBits_length (value : Nat) : (exportBits value).length = max 1 (bytesRequired value) := uintToBytes_length _ _

theorem bytesToUint_exportBits (value : Nat) : bytesToUint (exportBits value) = value := by
  apply bytesToUint_uintToBytes
  exact lt_of_lt_of_le (lt_pow_bytesRequired value) (Nat.pow_le_pow_right (by decide) (le_max_right _ _))

variable {value width : Nat}

theorem exportBits_length_le (fits : value < 256 ^ width) (nonempty : 0 < width) :
    (exportBits value).length ≤ width := by
  rw [exportBits_length]
  exact max_le nonempty (bytesRequired_le_iff.mpr fits)

/-- What the array held before stays in front of the number. -/
theorem copied {ret : Bytes} (fits : value < 256 ^ (width + 1)) (size : ret.length = width + 1) :
    copyBack width (exportBits value).reverse ret = ret.take (width + 1 - (exportBits value).length) ++ exportBits value := by
  have few := exportBits_length_le fits (Nat.succ_pos _)
  rw [copyBack_eq _ (by simpa using few) (by omega), List.drop_eq_nil_of_le (by omega), List.length_reverse,
    List.reverse_reverse, List.append_nil]

theorem copied_length {ret : Bytes} (fits : value < 256 ^ (width + 1)) (size : ret.length = width + 1) :
    (copyBack width (exportBits value).reverse ret).length = width + 1 := by
  have few := exportBits_length_le fits (Nat.succ_pos _)
  rw [copied fits size, List.length_append, List.length_take, size]
  omega

theorem copied_eq_iff {ret : Bytes} (fits : value < 256 ^ (width + 1)) (size : ret.length = width + 1) :
    copyBack width (exportBits value).reverse ret = uintToBytes (width + 1) value ↔
      bytesToUint (ret.take (width + 1 - (exportBits value).length)) = 0 := by
  have number : bytesToUint (copyBack width (exportBits value).reverse ret) =
      bytesToUint (ret.take (width + 1 - (exportBits value).length)) * 256 ^ (exportBits value).length + value := by
    rw [copied fits size, bytesToUint_append, bytesToUint_exportBits]
  have positive : 0 < 256 ^ (exportBits value).length := Nat.pow_pos (by decide)
  constructor
  · intro same
    rw [same, bytesToUint_uintToBytes fits] at number
    have zero : bytesToUint (ret.take (width + 1 - (exportBits value).length)) * 256 ^ (exportBits value).length = 0 := by
      omega
    exact (Nat.mul_eq_zero.mp zero).resolve_right positive.ne'
  · intro clear
    have again := uintToBytes_bytesToUint (copyBack width (exportBits value).reverse ret)
    rw [number, clear, Nat.zero_mul, Nat.zero_add, copied_length fits size] at again
    exact again.symm

theorem copied_over_zeros (fits : value < 256 ^ (width + 1)) :
    copyBack width (exportBits value).reverse (List.replicate (width + 1) 0) = uintToBytes (width + 1) value := by
  have zeros : ∀ count, bytesToUint (List.replicate count 0) = 0 := by
    intro count
    induction count with
    | zero => rfl
    | succ count ih => rw [List.replicate_succ, bytesToUint_cons, ih]; simp
  rw [copied_eq_iff fits List.length_replicate, List.take_replicate]
  exact zeros _

/-- Only a number that fills the array leaves nothing of what was there. -/
theorem copied_over_all_iff (fits : value < 256 ^ (width + 1)) (wide : 0 < width) :
    (∀ ret : Bytes, ret.length = width + 1 →
      copyBack width (exportBits value).reverse ret = uintToBytes (width + 1) value) ↔ 256 ^ width ≤ value := by
  have full : width + 1 ≤ (exportBits value).length ↔ 256 ^ width ≤ value := by
    have small := @bytesRequired_le_iff value width
    rw [exportBits_length, le_max_iff]
    omega
  rw [← full]
  constructor
  · intro always
    by_contra short
    have clear := (copied_eq_iff fits List.length_replicate).mp (always (List.replicate (width + 1) 1) List.length_replicate)
    obtain ⟨more, left⟩ : ∃ more, width + 1 - (exportBits value).length = more + 1 := ⟨width - (exportBits value).length, by omega⟩
    rw [List.take_replicate, left, Nat.min_eq_left (by omega), List.replicate_succ, bytesToUint_cons] at clear
    have : 0 < 256 ^ (List.replicate more (1 : UInt8)).length := Nat.pow_pos (by decide)
    simp at clear
  · intro fills ret size
    rw [copied_eq_iff fits size, Nat.sub_eq_zero_of_le fills]
    rfl

theorem read_back {width N : Nat} (size : N = 8 * width) (func expected : String) (value : BitVec N) :
    bytesToUintN width func expected N (uintToBytes width value.toNat) = .ok value := by
  have power : 2 ^ N = 256 ^ width := by rw [size, Nat.pow_mul]
  rw [bytesToUintN, if_neg (by simp [uintToBytes_length]), bitVec_ofBytes power]

theorem memory_reverse (width value : Nat) : (memory width value).reverse = uintToBytes width value := by
  induction width generalizing value with
  | zero => rfl
  | succ width ih => rw [memory, List.reverse_cons, ih, uintToBytes]

private theorem memory_length (width value : Nat) : (memory width value).length = width := by
  rw [← List.length_reverse, memory_reverse, uintToBytes_length]

theorem unset_iff {width N : Nat} (size : N = 8 * (width + 1)) (wide : 0 < width) (func expected : String)
    (value : BitVec N) :
    (∀ ret : Bytes, ret.length = width + 1 →
      copyBack width (exportBits value.toNat).reverse ret = uintToBytes (width + 1) value.toNat ∧
        bytesToUintN (width + 1) func expected N (copyBack width (exportBits value.toNat).reverse ret) = .ok value) ↔
      256 ^ width ≤ value.toNat := by
  have power : 2 ^ N = 256 ^ (width + 1) := by rw [size, Nat.pow_mul]
  have fits : value.toNat < 256 ^ (width + 1) := power ▸ value.isLt
  rw [← copied_over_all_iff fits wide]
  constructor
  · exact fun both ret size => (both ret size).1
  · intro always ret retSize
    rw [always ret retSize]
    exact ⟨rfl, read_back size func expected value⟩

/-- A codec gives the big-endian form and reads it back, whatever its array held before. -/
def Faithful (codec : Codec) (value : BitVec codec.N) : Prop :=
  ∀ ret : Bytes, ret.length = codec.N / 8 →
    codec.toBytes ret value = uintToBytes (codec.N / 8) value.toNat ∧ codec.ofBytes (codec.toBytes ret value) = .ok value

/-- The value fills the array, or the codec writes all of it. -/
def Filling (codec : Codec) (value : BitVec codec.N) : Prop :=
  codec.N = 32 ∨ codec.N = 64 ∨ codec.N = 256 ∨ 2 ^ (codec.N - 8) ≤ value.toNat

theorem unset_codec {width N : Nat} {toBytes : Bytes → BitVec N → Bytes} {ofBytes : Bytes → Except Exception (BitVec N)}
    (func expected : String) (size : N = 8 * (width + 1)) (wide : 0 < width) (other : N ≠ 32 ∧ N ≠ 64 ∧ N ≠ 256)
    (writes : toBytes = fun ret i => copyBack width (exportBits i.toNat).reverse ret)
    (reads : ofBytes = bytesToUintN (width + 1) func expected N) (value : BitVec N) :
    Faithful ⟨N, toBytes, ofBytes⟩ value ↔ Filling ⟨N, toBytes, ofBytes⟩ value := by
  have bytes : N / 8 = width + 1 := by omega
  have power : 2 ^ (N - 8) = 256 ^ width := by
    have bits : N - 8 = 8 * width := by omega
    rw [bits, Nat.pow_mul]
  unfold Faithful Filling
  simp only [writes, reads, bytes, power, other.1, other.2.1, other.2.2, false_or]
  exact unset_iff size wide func expected value

theorem set_codec {width N : Nat} {toBytes : Bytes → BitVec N → Bytes} {ofBytes : Bytes → Except Exception (BitVec N)}
    (func expected : String) (size : N = 8 * width) (whole : N = 32 ∨ N = 64 ∨ N = 256)
    (writes : ∀ ret i, toBytes ret i = uintToBytes width i.toNat)
    (reads : ofBytes = bytesToUintN width func expected N) (value : BitVec N) :
    Faithful ⟨N, toBytes, ofBytes⟩ value ↔ Filling ⟨N, toBytes, ofBytes⟩ value := by
  have bytes : N / 8 = width := by omega
  refine iff_of_true (fun ret _ => ?_) ?_
  · simp only [writes, reads, bytes, true_and]
    exact read_back size func expected value
  · rcases whole with narrow | word | wide
    · exact .inl narrow
    · exact .inr (.inl word)
    · exact .inr (.inr (.inl wide))

private theorem uint256_written (ret : Bytes) (i : BitVec 256) : uint256ToBytes ret i = uintToBytes 32 i.toNat :=
  copied_over_zeros (lt_of_lt_of_eq i.isLt (by norm_num))

/-- Every codec of the list, for every value. -/
theorem codecs_faithful_iff : ∀ codec ∈ codecs, ∀ value : BitVec codec.N, Faithful codec value ↔ Filling codec value := by
  unfold codecs
  repeat' refine List.forall_mem_cons.mpr ⟨?_, ?_⟩
  all_goals first
    | exact unset_codec _ _ rfl (by decide) (by decide) rfl rfl
    | exact set_codec _ _ rfl (by decide) uint256_written rfl
    | exact set_codec _ _ rfl (by decide) (fun _ _ => memory_reverse _ _) rfl
    | exact fun _ impossible => absurd impossible (List.not_mem_nil)

/-- A large reserve of a pair is saved and reloaded as it is. -/
theorem large_reserve_is_reloaded : Faithful ⟨112, uint112ToBytes, bytesToUint112⟩ (BitVec.ofNat 112 (2 ^ 111)) :=
  (codecs_faithful_iff ⟨112, uint112ToBytes, bytesToUint112⟩ (by simp [codecs]) _).mpr
    (.inr (.inr (.inr (by decide))))

/-- A small one comes back with what the array held in front of it. -/
theorem small_reserve_is_not_reloaded : ¬ ∀ codec ∈ codecs, ∀ value : BitVec codec.N, Faithful codec value := by
  intro faithful
  have reserve := faithful ⟨112, uint112ToBytes, bytesToUint112⟩ (by simp [codecs]) (BitVec.ofNat 112 1000)
  have written := (reserve (List.replicate 14 0xff) rfl).1
  have first := congrArg (fun bytes : Bytes => bytes.head?) written
  exact absurd first (by decide +kernel)

private theorem not_toNat (byte : UInt8) : (~~~byte).toNat = 255 - byte.toNat := by
  have small := byte.toNat_lt
  rw [UInt8.toNat_not]
  rfl

/-- Flipped and incremented, bytes given from the last one on are the opposite number. -/
theorem increment_length (bytes : Bytes) : (increment bytes).length = bytes.length := by
  induction bytes with
  | nil => rfl
  | cons byte rest ih =>
    unfold increment
    split
    · rfl
    · simp [ih]

theorem bytesToUint_reverse_cons (byte : UInt8) (rest : Bytes) :
    bytesToUint (byte :: rest).reverse = bytesToUint rest.reverse * 256 + byte.toNat := by
  rw [List.reverse_cons, bytesToUint_append, bytesToUint_singleton, List.length_singleton, pow_one]

theorem bytesToUint_reverse_lt (bytes : Bytes) : bytesToUint bytes.reverse < 256 ^ bytes.length := by
  simpa using bytesToUint_lt bytes.reverse

theorem bytesToUint_flipped (bytes : Bytes) :
    bytesToUint (bytes.map (~~~ ·)).reverse + bytesToUint bytes.reverse + 1 = 256 ^ bytes.length := by
  induction bytes with
  | nil => rfl
  | cons byte rest ih =>
    have small := byte.toNat_lt
    rw [List.map_cons, bytesToUint_reverse_cons, bytesToUint_reverse_cons, not_toNat, List.length_cons, pow_succ, ← ih]
    omega

theorem bytesToUint_increment (bytes : Bytes) :
    bytesToUint (increment bytes).reverse = (bytesToUint bytes.reverse + 1) % 256 ^ bytes.length := by
  induction bytes with
  | nil => rfl
  | cons byte rest ih =>
    have small := byte.toNat_lt
    have bound := bytesToUint_reverse_lt rest
    unfold increment
    split
    case isTrue notLast =>
      have below : byte.toNat < 255 := by
        have : byte.toNat ≠ 255 := fun last => notLast (UInt8.toNat_inj.mp last)
        omega
      have next : (byte + 1).toNat = byte.toNat + 1 := by
        have one : (1 : UInt8).toNat = 1 := rfl
        rw [UInt8.toNat_add, one]
        exact Nat.mod_eq_of_lt (by omega)
      rw [bytesToUint_reverse_cons, bytesToUint_reverse_cons, next, List.length_cons, pow_succ, Nat.mod_eq_of_lt (by omega)]
      omega
    case isFalse last =>
      obtain rfl : byte = 0xff := not_not.mp last
      rw [bytesToUint_reverse_cons, bytesToUint_reverse_cons, ih, List.length_cons, pow_succ]
      have carried : bytesToUint rest.reverse * 256 + (0xff : UInt8).toNat + 1 = (bytesToUint rest.reverse + 1) * 256 := by
        have last : (0xff : UInt8).toNat = 255 := by decide
        rw [last]
        omega
      rw [carried, Nat.mul_mod_mul_right]
      simp

/-- The 32 bytes of a number in two's complement, most significant first. -/
def twosComplement (i : Int) : Bytes := uintToBytes 32 (i % 2 ^ 256).toNat

theorem negated {bytes : Bytes} (size : bytes.length = 32) (positive : 0 < bytesToUint bytes.reverse) :
    (increment (bytes.map (~~~ ·))).reverse = uintToBytes 32 (2 ^ 256 - bytesToUint bytes.reverse) := by
  have length : (increment (bytes.map (~~~ ·))).reverse.length = 32 := by simp [increment_length, size]
  have flipped := bytesToUint_flipped bytes
  have number : bytesToUint (increment (bytes.map (~~~ ·))).reverse = 2 ^ 256 - bytesToUint bytes.reverse := by
    have power : (256 : Nat) ^ 32 = 2 ^ 256 := by norm_num
    rw [bytesToUint_increment, List.length_map, size, power]
    rw [size, power] at flipped
    rw [Nat.mod_eq_of_lt (by omega)]
    omega
  have again := uintToBytes_bytesToUint (increment (bytes.map (~~~ ·))).reverse
  rw [length, number] at again
  exact again.symm

theorem twosComplement_of_nonneg {i : Int} (nonneg : 0 ≤ i) (high : i < 2 ^ 256) : twosComplement i = uintToBytes 32 i.natAbs := by
  have same : (i % 2 ^ 256).toNat = i.natAbs := by omega
  rw [twosComplement, same]

theorem twosComplement_of_neg {i : Int} (negative : i < 0) (low : -2 ^ 256 < i) :
    twosComplement i = uintToBytes 32 (2 ^ 256 - i.natAbs) := by
  have same : (i % 2 ^ 256).toNat = 2 ^ 256 - i.natAbs := by omega
  rw [twosComplement, same]

theorem bytesToUint_reverse_append (front back : Bytes) :
    bytesToUint (front ++ back).reverse = bytesToUint back.reverse * 256 ^ front.length + bytesToUint front.reverse := by
  rw [List.reverse_append, bytesToUint_append, List.length_reverse]

theorem bytesToUint_zeros (count : Nat) : bytesToUint (List.replicate count 0) = 0 := by
  induction count with
  | zero => rfl
  | succ count ih =>
    rw [List.replicate_succ, bytesToUint_cons, ih]
    simp

/-- What is read as the magnitude: the number under what the other words held. -/
def magnitude (before : Bytes) (value : Nat) : Nat :=
  bytesToUint (before.drop (8 * limbs value)).reverse * 256 ^ (8 * limbs value) + value

private theorem magnitude_full {value : Nat} {before : Bytes} (size : before.length = 32) (full : 4 ≤ limbs value) :
    magnitude before value = value := by
  rw [magnitude, List.drop_eq_nil_of_le (by omega)]
  simp [bytesToUint]

theorem magnitude_short {value : Nat} (short : limbs value < 4) : value < magnitude (List.replicate 32 1) value := by
  obtain ⟨more, left⟩ : ∃ more, 32 - 8 * limbs value = more + 1 := ⟨31 - 8 * limbs value, by omega⟩
  have above : 0 < bytesToUint ((List.replicate 32 (1 : UInt8)).drop (8 * limbs value)).reverse := by
    rw [List.drop_replicate, left, List.reverse_replicate, List.replicate_succ, bytesToUint_cons]
    have positive : 0 < 256 ^ (List.replicate more (1 : UInt8)).length := Nat.pow_pos (by decide)
    simp
  have positive : 0 < 256 ^ (8 * limbs value) := Nat.pow_pos (by decide)
  have := Nat.mul_pos above positive
  unfold magnitude
  omega

section Signed
variable {i : Int} (low : -2 ^ 255 ≤ i) (high : i < 2 ^ 255)
include low high

theorem natAbs_fits : i.natAbs < 256 ^ (31 + 1) := by
  have power : (256 : Nat) ^ (31 + 1) = 2 ^ 256 := by norm_num
  rw [power]
  omega

theorem int256ToBytes_iff :
    (∀ ret : Bytes, ret.length = 32 → int256ToBytes ret i = twosComplement i) ↔ i < 0 ∨ 2 ^ 248 ≤ i := by
  have fits := natAbs_fits low high
  by_cases negative : i < 0
  · refine iff_of_true (fun ret _ => ?_) (.inl negative)
    have few := exportBits_length_le fits (by decide)
    have ones : ~~~(0 : UInt8) = 0xff := by decide
    have padded : int256ToBytes ret i =
        (increment (((exportBits i.natAbs).reverse ++
          List.replicate (32 - (exportBits i.natAbs).length) 0).map (~~~ ·))).reverse := by
      simp only [int256ToBytes, if_pos negative, List.map_append, List.map_replicate, ones, List.length_reverse]
    have number : bytesToUint ((exportBits i.natAbs).reverse ++ List.replicate (32 - (exportBits i.natAbs).length) 0).reverse =
        i.natAbs := by
      rw [bytesToUint_reverse_append, List.reverse_replicate, bytesToUint_zeros, List.reverse_reverse,
        bytesToUint_exportBits, Nat.zero_mul, Nat.zero_add]
    have size : ((exportBits i.natAbs).reverse ++ List.replicate (32 - (exportBits i.natAbs).length) (0 : UInt8)).length = 32 := by
      rw [List.length_append, List.length_reverse, List.length_replicate]
      omega
    rw [padded, negated size (by omega), number, twosComplement_of_neg negative (by omega)]
  · have nonneg : 0 ≤ i := by omega
    simp only [int256ToBytes, if_neg negative, twosComplement_of_nonneg nonneg (by omega)]
    rw [copied_over_all_iff fits (by decide)]
    have power : (256 : Nat) ^ 31 = 2 ^ 248 := by norm_num
    rw [power]
    omega

theorem limbs_full : 4 ≤ limbs i.natAbs ↔ 2 ^ 192 ≤ i.natAbs := by
  have small := @bytesRequired_le_iff i.natAbs 24
  have power : (256 : Nat) ^ 24 = 2 ^ 192 := by norm_num
  rw [power] at small
  unfold limbs
  omega

theorem limbs_le : limbs i.natAbs ≤ 4 := by
  have few := bytesRequired_le_iff.mpr (natAbs_fits low high)
  unfold limbs
  omega

/-- What the unused words held counts above the magnitude. -/
theorem representation_number {before : Bytes} (size : before.length = 32) :
    (representation before i.natAbs).length = 32 ∧
    bytesToUint (representation before i.natAbs).reverse =
      bytesToUint (before.drop (8 * limbs i.natAbs)).reverse * 256 ^ (8 * limbs i.natAbs) + i.natAbs := by
  have few := limbs_le low high
  have inside : i.natAbs < 256 ^ (8 * limbs i.natAbs) := by
    apply bytesRequired_le_iff.mp
    unfold limbs
    omega
  constructor
  · rw [representation, List.length_append, memory_length, List.length_drop, size]
    omega
  · rw [representation, bytesToUint_reverse_append, memory_length, memory_reverse, bytesToUint_uintToBytes inside]

theorem encodeInt_negative {before : Bytes} (size : before.length = 32) (negative : i < 0) :
    magnitude before i.natAbs < 2 ^ 256 ∧ encodeInt before i = uintToBytes 32 (2 ^ 256 - magnitude before i.natAbs) := by
  obtain ⟨length, number⟩ := representation_number low high size
  have bound := bytesToUint_reverse_lt (representation before i.natAbs)
  have power : (256 : Nat) ^ 32 = 2 ^ 256 := by norm_num
  rw [length, number, power] at bound
  refine ⟨bound, ?_⟩
  rw [encodeInt, if_pos negative, negated length (by omega), number]
  rfl

/-- The words that a number does not need must be none, or its magnitude is read with them. -/
theorem encodeInt_iff :
    (∀ before : Bytes, before.length = 32 → encodeInt before i = twosComplement i) ↔ 0 ≤ i ∨ i ≤ -2 ^ 192 := by
  have fits := natAbs_fits low high
  by_cases negative : i < 0
  · have full := limbs_full low high
    constructor
    · intro always
      by_contra small
      obtain ⟨bound, written⟩ := encodeInt_negative low high (List.length_replicate : (List.replicate 32 (1 : UInt8)).length = 32) negative
      have more := @magnitude_short i.natAbs (by omega)
      have number := congrArg bytesToUint ((always _ List.length_replicate).symm.trans written)
      rw [twosComplement_of_neg negative (by omega), bytesToUint_uintToBytes (by omega),
        bytesToUint_uintToBytes (by omega)] at number
      omega
    · intro large before size
      rw [(encodeInt_negative low high size negative).2, magnitude_full size (by omega),
        twosComplement_of_neg negative (by omega)]
  · refine iff_of_true (fun before _ => ?_) (.inl (by omega))
    rw [encodeInt, if_neg negative, copied_over_zeros fits, twosComplement_of_nonneg (by omega) (by omega)]

end Signed

theorem borrowed_ge (bytes : Bytes) (place : Nat) (nonempty : bytes ≠ []) : place ≤ Utils.borrowed bytes place := by
  cases bytes with
  | nil => exact absurd rfl nonempty
  | cons byte rest => exact Nat.le_add_right _ _

/-- Only a last byte of zero borrows from the place before it. -/
theorem borrowed_one (byte next : UInt8) (rest : Bytes) : Utils.borrowed (byte :: next :: rest) 1 = 1 ↔ byte ≠ 0 := by
  have more := borrowed_ge (next :: rest) (1 * 256) (List.cons_ne_nil _ _)
  unfold Utils.borrowed
  split
  case isTrue zero =>
    refine iff_of_false (by omega) (not_not.mpr zero)
  case isFalse other => simp [other]

theorem bytesToInt256_eq {bytes : Bytes} (size : bytes.length = 32) :
    Utils.bytesToInt256 bytes =
      if 2 ^ 255 ≤ bytesToUint bytes then (bytesToUint bytes : Int) - 2 ^ 256 + 1 - (Utils.borrowed bytes.reverse 1 : Int)
      else (bytesToUint bytes : Int) := by
  cases bytes with
  | nil => simp at size
  | cons first rest =>
    have length : rest.length = 31 := by simpa using size
    have bound := bytesToUint_lt rest
    have power : (256 : Nat) ^ 31 = 2 ^ 248 := by norm_num
    have number := bytesToUint_cons first rest
    rw [length, power] at bound number
    have sign : 0x80 ≤ first ↔ 2 ^ 255 ≤ bytesToUint (first :: rest) := by
      rw [UInt8.le_iff_toNat_le, number]
      have top : (0x80 : UInt8).toNat = 128 := by decide
      rw [top]
      omega
    simp only [Utils.bytesToInt256, List.headD_cons, sign]
    split
    · omega
    · rfl

theorem borrowed_one_iff {bytes : Bytes} (size : bytes.length = 32) :
    Utils.borrowed bytes.reverse 1 = 1 ↔ ¬ 256 ∣ bytesToUint bytes := by
  obtain ⟨back, rfl⟩ : ∃ back, bytes = back.reverse := ⟨bytes.reverse, bytes.reverse_reverse.symm⟩
  rw [List.length_reverse] at size
  rw [List.reverse_reverse]
  cases back with
  | nil => simp at size
  | cons byte rest =>
    cases rest with
    | nil => simp at size
    | cons next rest =>
      have small := byte.toNat_lt
      have zero : byte = 0 ↔ byte.toNat = 0 := UInt8.toNat_inj.symm
      rw [borrowed_one, bytesToUint_reverse_cons, ne_eq, zero]
      omega

theorem borrowed_positive {bytes : Bytes} (size : bytes.length = 32) : 1 ≤ Utils.borrowed bytes.reverse 1 := by
  apply borrowed_ge
  intro empty
  simp [List.reverse_eq_nil_iff.mp empty] at size

theorem decodeInt_eq (more : Fin 32) {bytes : Bytes} (size : bytes.length = 32) :
    decodeInt more bytes = ABI.Decoder.narrowInt (more + 1) (Utils.bytesToInt256 bytes) := by
  have whole : (bytes.drop 0).take (32 - 0) = bytes := by simp [← size]
  have inside : ABI.Decoder.range bytes 0 (0 + 32) = .ok bytes := by
    rw [ABI.Decoder.range, if_pos ⟨by omega, by omega⟩]
    exact congrArg Except.ok whole
  have enough : ABI.Decoder.enough bytes (0 + 32) "Data too short for int256" = .ok () := if_neg (by omega)
  rw [decodeInt, ABI.Decoder.decodeWord, ABI.Decoder.decodeFixed, enough, inside]
  cases converted : ABI.Decoder.narrowInt (more + 1) (Utils.bytesToInt256 bytes) with
  | error _ => simp [converted, bind, Except.bind, Except.map]
  | ok _ => simp [converted, bind, Except.bind, Except.map, pure, Except.pure]

theorem narrowInt_ok {size : Nat} {value narrowed : Int} (same : ABI.Decoder.narrowInt size value = .ok narrowed) :
    narrowed = value := by
  have either : ABI.Decoder.narrowInt size value = .ok value ∨ ABI.Decoder.narrowInt size value = .error Uint256.outOfRange :=
    ite_eq_or_eq _ _ _
  rcases either with ok | error
  · exact Except.ok.inj (same.symm.trans ok)
  · cases same.symm.trans error

theorem wide_enough {value : Int} (fits : value.natAbs < 2 ^ 256) : ABI.Decoder.narrowInt ((31 : Fin 32) + 1) value = .ok value := by
  have size : ((31 : Fin 32) : Nat) + 1 = 32 := rfl
  rw [size]
  simpa [ABI.Decoder.narrowInt] using fits

section Signed
variable {i : Int} (low : -2 ^ 255 ≤ i) (high : i < 2 ^ 255)
include low high

omit low high in
theorem twosComplement_length : (twosComplement i).length = 32 := uintToBytes_length _ _

theorem bytesToInt256_iff : Utils.bytesToInt256 (twosComplement i) = i ↔ 0 ≤ i ∨ ¬ 256 ∣ i := by
  have size := @twosComplement_length i
  have borrow := borrowed_one_iff size
  have number : bytesToUint (twosComplement i) = (i % 2 ^ 256).toNat := by
    rw [twosComplement, bytesToUint_uintToBytes (by omega)]
  rw [bytesToInt256_eq size]
  rw [number] at borrow ⊢
  split <;> omega

theorem decodeInt_iff : decodeInt 31 (twosComplement i) = .ok i ↔ 0 ≤ i ∨ ¬ 256 ∣ i := by
  rw [← bytesToInt256_iff low high, decodeInt_eq 31 twosComplement_length]
  constructor
  · intro same
    exact (narrowInt_ok same).symm
  · intro same
    rw [same]
    exact wide_enough (by omega)

theorem round_trip_iff (more : Fin 32) (held : ABI.Decoder.narrowInt (more + 1) i = .ok i) :
    (∀ before : Bytes, before.length = 32 → decodeInt more (encodeInt before i) = .ok i) ↔
      0 ≤ i ∨ i ≤ -2 ^ 192 ∧ ¬ 256 ∣ i := by
  have read := bytesToInt256_iff low high
  have written := encodeInt_iff low high
  constructor
  · intro always
    by_contra neither
    have negative : i < 0 := by omega
    have large : i ≤ -2 ^ 192 := by
      by_contra small
      have full := limbs_full low high
      have more := @magnitude_short i.natAbs (by omega)
      have size : (List.replicate 32 (1 : UInt8)).length = 32 := List.length_replicate
      obtain ⟨bound, encoded⟩ := encodeInt_negative low high size negative
      have same := narrowInt_ok ((decodeInt_eq _ (by rw [encoded, uintToBytes_length])).symm.trans (always _ size))
      have length := uintToBytes_length 32 (2 ^ 256 - magnitude (List.replicate 32 1) i.natAbs)
      have borrow := borrowed_positive length
      rw [encoded, bytesToInt256_eq length, bytesToUint_uintToBytes (by omega)] at same
      split at same <;> omega
    have same := always (List.replicate 32 1) List.length_replicate
    rw [written.mpr (.inr large) _ List.length_replicate, decodeInt_eq _ twosComplement_length] at same
    have := read.mp (narrowInt_ok same).symm
    omega
  · intro either before size
    have encoded := written.mpr (by omega) before size
    have decoded := read.mpr (by omega)
    rw [encoded, decodeInt_eq _ twosComplement_length, decoded, held]

/-- Both writers give two's complement, whatever was in memory, and both readers and all types give the number back. -/
structure Complemented (i : Int) : Prop where
  encoded : ∀ before : Bytes, before.length = 32 → encodeInt before i = twosComplement i
  written : ∀ ret : Bytes, ret.length = 32 → int256ToBytes ret i = twosComplement i
  decoded : decodeInt 31 (twosComplement i) = .ok i
  read : Utils.bytesToInt256 (twosComplement i) = i
  roundTrips : ∀ more : Fin 32, ABI.Decoder.narrowInt (more + 1) i = .ok i →
    ∀ before : Bytes, before.length = 32 → decodeInt more (encodeInt before i) = .ok i

/-- Large numbers only, and of the negative ones those without a zero byte at the end. -/
theorem complemented_iff : Complemented i ↔ 2 ^ 248 ≤ i ∨ i ≤ -2 ^ 192 ∧ ¬ 256 ∣ i := by
  have encoded := encodeInt_iff low high
  have written := int256ToBytes_iff low high
  have decoded := decodeInt_iff low high
  have read := bytesToInt256_iff low high
  constructor
  · intro sound
    have := encoded.mp sound.encoded
    have := written.mp sound.written
    have := read.mp sound.read
    omega
  · intro large
    refine ⟨encoded.mpr (by omega), written.mpr (by omega), decoded.mpr (by omega), read.mpr (by omega), ?_⟩
    intro more held
    exact (round_trip_iff low high more held).mpr (by omega)

end Signed

/-- A number with four words and another last byte. -/
theorem long_negative_is_complemented : Complemented (-2 ^ 192 - 1) :=
  (complemented_iff (by decide) (by decide)).mpr (.inr (by decide))

/-- The borrow goes past a last byte of zero, and takes one there too. -/
theorem short_negative_is_doubled : ¬ ∀ i : Int, -2 ^ 255 ≤ i → i < 2 ^ 255 → Complemented i := by
  intro all
  have read := (all (-256) (by decide) (by decide)).read
  exact absurd read (by decide)

end OrbiterSDK.Proofs.IntegerCodecs
