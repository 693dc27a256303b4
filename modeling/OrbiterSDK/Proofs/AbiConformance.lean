import OrbiterSDK.Lib.SolidityAbi
import OrbiterSDK.Proofs.AbiRoundTrip
import OrbiterSDK.Proofs.Canonical

/-! What is encoded, compared with the encoding of the contract ABI. They differ in empty strings, for which a word of
zeros is written, and in the offsets beside a tuple that is counted as one word for each member although it has more. -/

namespace OrbiterSDK.ABI
open Lib

def Word.plain : (word : Word) → word.Value → SolidityAbi.Value
  | .uint _, value => .number (BitVec.toNat value)
  | .int _, value => .number (Int.toNat (value % 2 ^ 256))
  | .bool, value => .number (Bool.toNat value)
  | .address, value => .number (BitVec.toNat value)
  | .hash, value => .fixedBytes (Hash.get value)
  | .enumeration _, value => .number (BitVec.toNat value)

mutual

/-- The value that a caller reads. -/
def Ty.plain : (ty : Ty) → ty.Value → SolidityAbi.Value
  | .word word, value => word.plain value
  | .bytes, value => .bytes value
  | .string, value => .bytes value
  | .vector element, values => .array (List.map element.plain values)
  | .tuple members, values => .tuple (members.plain values)

def Tys.plain : (tys : Tys) → tys.Values → List SolidityAbi.Value
  | .last ty, value => [ty.plain value]
  | .cons ty rest, values => ty.plain values.1 :: rest.plain values.2

end

/-- A tuple in a tuple may be one word as well. -/
def Ty.OneWord : Ty → Prop
  | .tuple (.last ty) => ty.OneWord
  | .tuple (.cons _ _) => False
  | _ => True

def Tys.AllOneWord : Tys → Prop
  | .last ty => ty.OneWord
  | .cons ty rest => ty.OneWord ∧ rest.AllOneWord

/-- The members of a static tuple are one word each. -/
def Ty.Flat : Ty → Prop
  | .tuple members => members.isTupleOfDynamicTypes = false → members.AllOneWord
  | _ => True

def Tys.AllFlat : Tys → Prop
  | .last ty => ty.Flat
  | .cons ty rest => ty.Flat ∧ rest.AllFlat

/-- The static tuples that stand beside dynamic values. -/
def Tys.FlatBeside (tys : Tys) : Prop := tys.isTupleOfDynamicTypes = true → tys.AllFlat

/-- The zeros behind some bytes are counted up from one word on, and in an `int`. -/
def PaddedWell (bytes : Bytes) : Prop := bytes ≠ [] ∧ (bytes.length ≤ 2 ^ 31 ∨ 32 ∣ bytes.length)

mutual

def Ty.Conforms : (ty : Ty) → ty.Value → Prop
  | .word (.enumeration _), value => BitVec.toNat value < 2 ^ 8
  | .word _, _ => True
  | .bytes, value => PaddedWell value
  | .string, value => PaddedWell value
  | .vector element, values => List.Forall element.Conforms values
  | .tuple members, values => members.FlatBeside ∧ members.MembersConform values

def Tys.MembersConform : (tys : Tys) → tys.Values → Prop
  | .last ty, value => ty.Conforms value
  | .cons ty rest, values => ty.Conforms values.1 ∧ rest.MembersConform values.2

end
end OrbiterSDK.ABI

namespace OrbiterSDK.Proofs.AbiConformance
open Lib Utils ByteStrings TxItems ABI Encoder AbiLayout AbiRoundTrip
open SolidityAbi (Alike frame heads tails)

theorem offsetWord_eq (offset : Nat) : offsetWord offset = SolidityAbi.word offset := by
  rw [offsetWord, Canonical.unpadded_eq_bigEndian]
  rfl

private theorem bytesToUint_offsetWord (offset : Nat) : bytesToUint (offsetWord offset) = offset :=
  (bytesToUint_padLeftBytes _ 32).trans (bytesToUint_unpadded offset)

theorem word_bytesToUint {bytes : Bytes} (size : bytes.length = 32) : SolidityAbi.word (bytesToUint bytes) = bytes := by
  have small : bytesToUint bytes < 256 ^ 32 := size ▸ bytesToUint_lt bytes
  have length := @SolidityAbi.word_length (bytesToUint bytes) (lt_of_lt_of_eq small (by norm_num))
  rw [← offsetWord_eq] at length ⊢
  rw [← uintToBytes_bytesToUint (offsetWord (bytesToUint bytes)), bytesToUint_offsetWord, length, ← size, uintToBytes_bytesToUint]

theorem number_iff {bytes : Bytes} (size : bytes.length = 32) (value : Nat) :
    bytes = SolidityAbi.enc (.number value) ↔ bytesToUint bytes = value := by
  have own := word_bytesToUint size
  rw [SolidityAbi.enc]
  constructor
  · intro same
    exact SolidityAbi.word_inj (own.trans same)
  · rintro rfl
    exact own.symm

theorem bytesToUint_encodeUint {bits : Nat} (few : bits ≤ 256) (value : BitVec bits) :
    bytesToUint (encodeUint value.toNat) = value.toNat := by
  apply bytesToUint_uintToBytes
  have more : 2 ^ bits ≤ 2 ^ 256 := Nat.pow_le_pow_right (by decide) few
  exact lt_of_lt_of_eq (lt_of_lt_of_le value.isLt more) (by norm_num)

theorem encodeWord_iff (word : Word) (value : word.Value) (unsigned : (Ty.word word).Unsigned) :
    encodeWord word value = SolidityAbi.enc (word.plain value) ↔ (Ty.word word).Conforms value := by
  have size := encodeWord_length word value
  cases word with
  | uint more =>
    apply (number_iff size _).trans
    rw [encodeWord, bytesToUint_encodeUint (by omega)]
    exact iff_of_true rfl trivial
  | int more => exact absurd rfl (unsigned more)
  | bool =>
    apply (number_iff size _).trans
    rw [encodeWord, bytesToUint_padLeftBytes, bytesToUint_singleton]
    cases value with
    | false => exact iff_of_true rfl trivial
    | true => exact iff_of_true rfl trivial
  | address =>
    apply (number_iff size _).trans
    rw [encodeWord, bytesToUint_padLeftBytes, Address.get,
      bytesToUint_uintToBytes (lt_of_lt_of_eq (BitVec.isLt value) (by norm_num))]
    exact iff_of_true rfl trivial
  | hash =>
    have whole : SolidityAbi.padded (Hash.get value) = Hash.get value := by
      rw [SolidityAbi.padded, Hash.get_length]
      exact List.append_nil _
    refine iff_of_true ?_ trivial
    rw [encodeWord, Word.plain, SolidityAbi.enc, whole]
  | enumeration more =>
    apply (number_iff size _).trans
    have small : BitVec.toNat value % 2 ^ 8 < 256 ^ 32 := lt_trans (Nat.mod_lt _ (by norm_num)) (by norm_num)
    rw [encodeWord, encodeUint, bytesToUint_uintToBytes small]
    exact Nat.mod_eq_iff_lt (by norm_num)

theorem encodeBytes_iff (bytes : Bytes) : encodeBytes bytes = SolidityAbi.enc (.bytes bytes) ↔ PaddedWell bytes := by
  have zeros : pad bytes.length - bytes.length = (32 - bytes.length % 32) % 32 ↔ PaddedWell bytes := by
    have some : bytes ≠ [] ↔ bytes.length ≠ 0 := not_congr List.length_eq_zero_iff.symm
    unfold pad PaddedWell
    rw [some, Nat.dvd_iff_mod_eq_zero]
    split
    · omega
    · omega
  have length : Utils.padLeftBytes (Utils.unpadded bytes.length) 32 = SolidityAbi.word bytes.length := offsetWord_eq bytes.length
  rw [encodeBytes, SolidityAbi.enc, length, List.append_cancel_left_eq, padRightBytes, SolidityAbi.padded, List.append_cancel_left_eq,
    ← zeros]
  constructor
  · intro same
    simpa only [List.length_replicate] using congrArg List.length same
  · intro same
    rw [same]

theorem tupleSize_pos (tys : Tys) : 1 ≤ tys.tupleSize := by
  cases tys with
  | last ty => exact Nat.le_refl 1
  | cons ty rest => exact Nat.le_add_left 1 _

theorem oneWord_iff : (ty : Ty) → ty.isDynamic = false → (ty.OneWord ↔ ty.headSize = 32)
  | .word _, _ => iff_of_true trivial rfl
  | .tuple (.last ty), static => by
    have own := oneWord_iff ty static
    have none : ¬ (Tys.last ty).isTupleOfDynamicTypes = true := Bool.eq_false_iff.mp static
    rw [Ty.OneWord, own, Ty.headSize, if_neg none, Tys.headSizes]
  | .tuple (.cons ty rest), static => by
    have one := headSize_least ty
    have others := headSizes_least rest
    have size := tupleSize_pos rest
    have none : ¬ (Tys.cons ty rest).isTupleOfDynamicTypes = true := Bool.eq_false_iff.mp static
    rw [Ty.OneWord, Ty.headSize, if_neg none, Tys.headSizes]
    exact iff_of_false id (by omega)

theorem allOneWord_iff : (tys : Tys) → tys.isTupleOfDynamicTypes = false → (tys.AllOneWord ↔ 32 * tys.tupleSize = tys.headSizes)
  | .last ty, static => (oneWord_iff ty static).trans eq_comm
  | .cons ty rest, static => by
    rw [Tys.isTupleOfDynamicTypes, Bool.or_eq_false_iff] at static
    have one := headSize_least ty
    have others := headSizes_least rest
    rw [Tys.AllOneWord, oneWord_iff ty static.1, allOneWord_iff rest static.2, Tys.tupleSize, Tys.headSizes]
    omega

/-- A static tuple is counted as one word for each member, which is never too much. -/
theorem calculateOffsetForType_le (ty : Ty) : calculateOffsetForType ty ≤ ty.headSize := by
  unfold calculateOffsetForType
  cases ty with
  | tuple members =>
    have least := headSizes_least members
    cases dynamic : members.isTupleOfDynamicTypes with
    | true => exact (if_pos dynamic).trans_le (headSize_least _)
    | false =>
      have none : ¬ members.isTupleOfDynamicTypes = true := Bool.eq_false_iff.mp dynamic
      rw [Ty.isDynamic, if_neg none, Ty.headSize, if_neg none]
      exact least
  | _ => exact Nat.le_refl 32

theorem flat_iff (ty : Ty) : ty.Flat ↔ calculateOffsetForType ty = ty.headSize := by
  cases ty with
  | tuple members =>
    rw [Ty.Flat, calculateOffsetForType, Ty.isDynamic, Ty.headSize]
    cases dynamic : members.isTupleOfDynamicTypes with
    | true => exact iff_of_true (fun static => by cases static) rfl
    | false => exact (imp_iff_right rfl).trans (allOneWord_iff members dynamic)
  | _ => exact iff_of_true trivial rfl

private theorem calculateTotalOffset_le (tys : Tys) : calculateTotalOffset tys ≤ tys.headSizes := by
  cases tys with
  | last ty => exact calculateOffsetForType_le ty
  | cons ty rest => exact Nat.add_le_add (calculateOffsetForType_le ty) (calculateTotalOffset_le rest)

theorem allFlat_iff (tys : Tys) : tys.AllFlat ↔ calculateTotalOffset tys = tys.headSizes := by
  cases tys with
  | last ty => exact flat_iff ty
  | cons ty rest =>
    have one := calculateOffsetForType_le ty
    have others := calculateTotalOffset_le rest
    rw [Tys.AllFlat, flat_iff ty, allFlat_iff rest, calculateTotalOffset, Tys.headSizes]
    omega

private theorem flatBeside_iff (tys : Tys) : tys.FlatBeside ↔ tys.OwnOffsets := imp_congr_right fun _ => allFlat_iff tys

def laid (part : AbiLayout.Part) : SolidityAbi.Part := ⟨part.dynamic, part.packed⟩

/-- What is packed are the heads from the next offset on, and the tails. -/
theorem pack_eq (items : List AbiLayout.Part) : ∀ packing : Packing,
    (pack items packing).result = packing.result ++ heads packing.nextOffset (items.map laid) ∧
      (pack items packing).dynamicBytes = packing.dynamicBytes ++ tails (items.map laid) := by
  induction items with
  | nil => exact fun packing => ⟨(List.append_nil _).symm, (List.append_nil _).symm⟩
  | cons item rest ih =>
    intro packing
    obtain ⟨result, dynamicBytes⟩ := ih (packing.encodeItem item.dynamic item.packed)
    rw [pack_cons, result, dynamicBytes, List.map_cons, SolidityAbi.tails_cons]
    rcases item with ⟨_ | _, packed⟩
    · rw [SolidityAbi.heads_static rfl, SolidityAbi.tail_static rfl, encodeItem_static]
      exact ⟨List.append_assoc _ _ _, rfl⟩
    · rw [SolidityAbi.heads_dynamic rfl, SolidityAbi.tail_dynamic rfl, encodeItem_dynamic, offsetWord_eq]
      exact ⟨List.append_assoc _ _ _, List.append_assoc _ _ _⟩

theorem pack_all (items : List AbiLayout.Part) (offset : Nat) :
    (pack items ⟨[], offset, []⟩).all = heads offset (items.map laid) ++ tails (items.map laid) := by
  obtain ⟨result, dynamicBytes⟩ := pack_eq items ⟨[], offset, []⟩
  rw [Packing.all, result, dynamicBytes]
  rfl

theorem plain_length (word : Word) (value : word.Value) : (SolidityAbi.enc (word.plain value)).length = 32 := by
  have bounded {bits : Nat} (few : bits ≤ 256) (value : BitVec bits) : (SolidityAbi.enc (.number value.toNat)).length = 32 :=
    SolidityAbi.word_length (lt_of_lt_of_le value.isLt (Nat.pow_le_pow_right (by decide) few))
  cases word with
  | uint more => exact bounded (by omega) _
  | int more =>
    rw [Word.plain, SolidityAbi.enc]
    apply SolidityAbi.word_length
    have least := Int.emod_nonneg value (by norm_num : (2 : Int) ^ 256 ≠ 0)
    have most := Int.emod_lt_of_pos value (by norm_num : (0 : Int) < 2 ^ 256)
    omega
  | bool =>
    cases value with
    | false => exact SolidityAbi.word_length (by norm_num [Bool.toNat])
    | true => exact SolidityAbi.word_length (by norm_num [Bool.toNat])
  | address => exact bounded (by decide) _
  | hash =>
    rw [Word.plain, SolidityAbi.enc, SolidityAbi.padded, Hash.get_length, List.length_append, Hash.get_length]
    rfl
  | enumeration more => exact bounded (by omega) _

mutual

theorem plain_dynamic : (ty : Ty) → (value : ty.Value) → SolidityAbi.dynamic (ty.plain value) = ty.isDynamic
  | .word word, _ => by cases word <;> rfl
  | .bytes, _ => rfl
  | .string, _ => rfl
  | .vector _, _ => rfl
  | .tuple members, values => plain_anyDynamic members values
termination_by structural ty => ty

theorem plain_anyDynamic : (tys : Tys) → (values : tys.Values) → SolidityAbi.anyDynamic (tys.plain values) = tys.isTupleOfDynamicTypes
  | .last ty, value => (Bool.or_false _).trans (plain_dynamic ty value)
  | .cons ty rest, values => congrArg₂ (· || ·) (plain_dynamic ty values.1) (plain_anyDynamic rest values.2)
termination_by structural tys => tys

end

theorem plain_headSize {ty : Ty} {value : ty.Value}
    (length : ty.isDynamic = false → (SolidityAbi.enc (ty.plain value)).length = ty.headSize) :
    SolidityAbi.headSize ⟨SolidityAbi.dynamic (ty.plain value), SolidityAbi.enc (ty.plain value)⟩ = ty.headSize := by
  rw [plain_dynamic]
  cases dynamic : ty.isDynamic with
  | true => exact (headSize_dynamic dynamic).symm
  | false => exact length dynamic

mutual

theorem enc_length : (ty : Ty) → ty.isDynamic = false → (value : ty.Value) → (SolidityAbi.enc (ty.plain value)).length = ty.headSize
  | .word word, _, value => plain_length word value
  | .tuple members, static, values => by
    have own : ¬ members.isTupleOfDynamicTypes = true := Bool.eq_false_iff.mp static
    have each := SolidityAbi.static_parts ((plain_anyDynamic members values).trans static)
    rw [Ty.plain, SolidityAbi.enc, SolidityAbi.frame_eq, SolidityAbi.tails_allStatic each, List.append_nil,
      SolidityAbi.heads_allStatic_length each, plain_headSizes members values, Ty.headSize, if_neg own]
termination_by structural ty => ty

theorem plain_headSizes : (tys : Tys) → (values : tys.Values) →
    SolidityAbi.headSizes (SolidityAbi.parts (tys.plain values)) = tys.headSizes
  | .last ty, value => plain_headSize fun static => enc_length ty static value
  | .cons ty rest, values => by
    have one := plain_headSize fun static => enc_length ty static values.1
    rw [Tys.plain, SolidityAbi.parts, SolidityAbi.headSizes_cons, one, plain_headSizes rest values.2, Tys.headSizes]
termination_by structural tys => tys

end

private theorem item_alike (ty : Ty) (value : ty.Value) :
    Alike ⟨ty.isDynamic, encode ty value⟩ ⟨SolidityAbi.dynamic (ty.plain value), SolidityAbi.enc (ty.plain value)⟩ :=
  ⟨(plain_dynamic ty value).symm, fun static => (encode_length ty static value).trans (enc_length ty static value).symm⟩

theorem parts_alike : (tys : Tys) → (values : tys.Values) →
    List.Forall₂ Alike ((parts tys values).map laid) (SolidityAbi.parts (tys.plain values))
  | .last ty, value => .cons (item_alike ty value) .nil
  | .cons ty rest, values => .cons (item_alike ty values.1) (parts_alike rest values.2)

theorem item_iff {ty : Ty} {value : ty.Value} {conforms : Prop} (same : encode ty value = SolidityAbi.enc (ty.plain value) ↔ conforms) :
    SolidityAbi.Part.mk ty.isDynamic (encode ty value) = ⟨SolidityAbi.dynamic (ty.plain value), SolidityAbi.enc (ty.plain value)⟩ ↔
      conforms := by
  rw [plain_dynamic, SolidityAbi.Part.mk.injEq, same]
  exact and_iff_right rfl

/-- Frames of members that are packed from the offset on that is computed for them. -/
theorem frame_members {tys : Tys} {values : tys.Values} {conforms : Prop}
    (fits : (pack (parts tys values) ⟨[], calculateTotalOffset tys, []⟩).all.length < 2 ^ 64)
    (same : (parts tys values).map laid = SolidityAbi.parts (tys.plain values) ↔ conforms) :
    (pack (parts tys values) ⟨[], calculateTotalOffset tys, []⟩).all = frame (SolidityAbi.parts (tys.plain values)) ↔
      tys.FlatBeside ∧ conforms := by
  have offset := calculateTotalOffset_le tys
  have least := pack_length (parts tys values) ⟨[], calculateTotalOffset tys, []⟩
  rw [parts_headSizes] at least
  have some : (∃ part ∈ (parts tys values).map laid, part.dynamic = true) ↔ tys.isTupleOfDynamicTypes = true := by
    rw [← parts_dynamic tys values, List.any_eq_true]
    simp only [List.mem_map, exists_exists_and_eq_and, laid]
  rw [pack_all] at fits ⊢
  rw [pack_all] at least
  rw [SolidityAbi.frame_iff (parts_alike tys values) (by omega), same, plain_headSizes, some, flatBeside_iff, and_comm, Tys.OwnOffsets]

/-- Frames of elements, whose heads are counted one by one. -/
theorem frame_elements {element : Ty} {values : List element.Value}
    (fits : (pack (elements element values) ⟨[], 32 * values.length, []⟩).all.length < 2 ^ 64)
    (same : ∀ value ∈ values, encode element value = SolidityAbi.enc (element.plain value) ↔ element.Conforms value) :
    (pack (elements element values) ⟨[], 32 * values.length, []⟩).all = frame (SolidityAbi.parts (values.map element.plain)) ↔
      List.Forall element.Conforms values := by
  have packed := pack_length (elements element values) ⟨[], 32 * values.length, []⟩
  have least := headSize_least element
  have each : values.length * 32 ≤ values.length * element.headSize := Nat.mul_le_mul_left _ least
  rw [elements_headSizes] at packed
  have alike : List.Forall₂ Alike ((elements element values).map laid) (SolidityAbi.parts (values.map element.plain)) := by
    rw [elements, List.map_map, SolidityAbi.parts_map, List.forall₂_map_left_iff, List.forall₂_map_right_iff, List.forall₂_same]
    exact fun value _ => item_alike element value
  have equal : (elements element values).map laid = SolidityAbi.parts (values.map element.plain) ↔ List.Forall element.Conforms values := by
    rw [elements, List.map_map, SolidityAbi.parts_map, List.map_inj_left, List.forall_iff_forall_mem]
    exact forall₂_congr fun value member => item_iff (same value member)
  have place : (∃ part ∈ (elements element values).map laid, part.dynamic = true) →
      32 * values.length = SolidityAbi.headSizes (SolidityAbi.parts (values.map element.plain)) := by
    rintro ⟨part, member, dynamic⟩
    obtain ⟨item, listed, rfl⟩ := List.mem_map.mp member
    obtain ⟨value, _, rfl⟩ := List.mem_map.mp listed
    have own : element.headSize = 32 := headSize_dynamic dynamic
    have sizes : SolidityAbi.headSizes ((elements element values).map laid) = headSizes (elements element values) := by
      rw [SolidityAbi.headSizes, List.map_map]
      rfl
    rw [← SolidityAbi.headSizes_alike alike, sizes, elements_headSizes, own, Nat.mul_comm]
  rw [pack_all] at fits packed ⊢
  rw [SolidityAbi.frame_iff alike (by omega), equal]
  exact and_iff_left place

theorem part_le {items : List AbiLayout.Part} {part : AbiLayout.Part} (member : part ∈ items) (offset : Nat) :
    part.packed.length ≤ (pack items ⟨[], offset, []⟩).all.length := by
  rw [pack_all]
  exact SolidityAbi.length_le_frame (List.mem_map_of_mem (f := laid) member) offset

mutual

theorem encode_iff : (ty : Ty) → ty.Unsigned → (value : ty.Value) → (encode ty value).length < 2 ^ 64 →
    (encode ty value = SolidityAbi.enc (ty.plain value) ↔ ty.Conforms value)
  | .word word, unsigned, value, _ => encodeWord_iff word value unsigned
  | .bytes, _, bytes, _ => encodeBytes_iff bytes
  | .string, _, bytes, _ => encodeBytes_iff bytes
  | .vector element, unsigned, values, fits => by
    rw [encode_vector, List.length_append] at fits
    have length : (values.map element.plain).length = values.length := List.length_map _
    have each : ∀ value ∈ values, encode element value = SolidityAbi.enc (element.plain value) ↔ element.Conforms value := by
      intro value member
      have listed : ⟨element.isDynamic, encode element value⟩ ∈ elements element values := List.mem_map_of_mem member
      have least := part_le listed (32 * values.length)
      exact encode_iff element unsigned value (lt_of_le_of_lt least (by omega))
    rw [encode_vector, Ty.plain, SolidityAbi.enc, length, ← offsetWord_eq, List.append_cancel_left_eq]
    exact frame_elements (by omega) each
  | .tuple members, unsigned, values, fits => by
    have packed : encode (.tuple members) values = (pack (parts members values) ⟨[], calculateTotalOffset members, []⟩).all := by
      rw [encode, encodeItems_eq]
    rw [packed] at fits ⊢
    have each := parts_iff members unsigned values fun part member => lt_of_le_of_lt (part_le member _) fits
    rw [Ty.plain, SolidityAbi.enc]
    exact frame_members fits each
termination_by structural ty => ty

theorem parts_iff : (tys : Tys) → tys.Unsigned → (values : tys.Values) → (∀ part ∈ parts tys values, part.packed.length < 2 ^ 64) →
    ((parts tys values).map laid = SolidityAbi.parts (tys.plain values) ↔ tys.MembersConform values)
  | .last ty, unsigned, value, fits => by
    have one := encode_iff ty unsigned value (fits _ List.mem_cons_self)
    rw [parts, List.map_cons, Tys.plain, SolidityAbi.parts, List.cons_eq_cons]
    exact (and_iff_left rfl).trans (item_iff one)
  | .cons ty rest, unsigned, values, fits => by
    have one := encode_iff ty unsigned.1 values.1 (fits _ List.mem_cons_self)
    have others := parts_iff rest unsigned.2 values.2 fun part member => fits part (List.mem_cons_of_mem _ member)
    rw [parts, List.map_cons, Tys.plain, SolidityAbi.parts, List.cons_eq_cons, others]
    exact and_congr_left' (item_iff one)
termination_by structural tys => tys

end

/-- A caller reads what was encoded exactly if there is no empty string and no offset beside a static tuple with members
of several words. -/
theorem encodeData_conforms_iff (tys : Tys) (unsigned : tys.Unsigned) (values : tys.Values)
    (fits : (encodeData tys values).length < 2 ^ 64) :
    encodeData tys values = SolidityAbi.enc (.tuple (tys.plain values)) ↔ tys.FlatBeside ∧ tys.MembersConform values :=
  encode_iff (.tuple tys) unsigned values fits

/-- Bytes, a pair and some names. -/
abbrev labelled : Tys := .cons .bytes (.cons (.tuple (.cons uint256 (.last (.word .address)))) (.last (.vector .string)))

abbrev labels : labelled.Values := ([1, 2, 3], ((5, 7), [[97], [98, 99]]))

theorem labels_conform : encodeData labelled labels = SolidityAbi.enc (.tuple
    [.bytes [1, 2, 3], .tuple [.number 5, .number 7], .array [.bytes [97], .bytes [98, 99]]]) := by
  have unsigned : labelled.Unsigned := by simp [Tys.Unsigned, Ty.Unsigned]
  have flat : labelled.FlatBeside := fun _ => ⟨trivial, fun _ => ⟨trivial, trivial⟩, trivial⟩
  have few : ∀ bytes ∈ ([[1, 2, 3], [97], [98, 99]] : List Bytes), PaddedWell bytes := by
    intro bytes member
    simp only [List.mem_cons, List.not_mem_nil, or_false] at member
    rcases member with rfl | rfl | rfl <;> exact ⟨by decide, .inl (by decide)⟩
  have pair : (Ty.tuple (.cons uint256 (.last (.word .address)))).Conforms (5, 7) :=
    ⟨fun _ => ⟨trivial, trivial⟩, trivial, trivial⟩
  have members : labelled.MembersConform labels := ⟨few _ (by decide), pair, few _ (by decide), few _ (by decide)⟩
  exact (encodeData_conforms_iff labelled unsigned labels (by decide +kernel)).mpr ⟨flat, members⟩

theorem empty_string_differs :
    encodeData (.last .string) ([] : Bytes) ≠ SolidityAbi.enc (.tuple [.bytes []]) ∧
      encodeData namedPoint ((1, 2, 3), [97]) ≠ SolidityAbi.enc (.tuple [.tuple [.number 1, .tuple [.number 2, .number 3]], .bytes [97]]) := by
  decide +kernel

end OrbiterSDK.Proofs.AbiConformance
