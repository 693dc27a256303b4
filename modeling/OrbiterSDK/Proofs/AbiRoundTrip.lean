import OrbiterSDK.Proofs.AbiLayout
import OrbiterSDK.Proofs.BlockEntries

/-! Values of nested types after a round trip. Offsets that are computed from the types find
what they point to if every static tuple beside dynamic types has one word for each member. -/

namespace OrbiterSDK.ABI

mutual

/-- The bytes that a value takes in its list. -/
def Ty.headSize : Ty → Nat
  | .word _ => 32
  | .bytes => 32
  | .string => 32
  | .vector _ => 32
  | .tuple members => if members.isTupleOfDynamicTypes then 32 else members.headSizes

def Tys.headSizes : Tys → Nat
  | .last ty => ty.headSize
  | .cons ty rest => ty.headSize + rest.headSizes

end

/-- Offsets are counted from the real end of the words, wherever there are any. -/
def Tys.OwnOffsets (tys : Tys) : Prop := tys.isTupleOfDynamicTypes = true → calculateTotalOffset tys = tys.headSizes

mutual

/-- All lists that are written for a value count their offsets so. -/
def Ty.Aligned : (ty : Ty) → ty.Value → Prop
  | .word _, _ => True
  | .bytes, _ => True
  | .string, _ => True
  | .vector element, values => List.Forall element.Aligned values
  | .tuple members, values => members.OwnOffsets ∧ members.MembersAligned values

def Tys.MembersAligned : (tys : Tys) → tys.Values → Prop
  | .last ty, value => ty.Aligned value
  | .cons ty rest, values => ty.Aligned values.1 ∧ rest.MembersAligned values.2

end

mutual

/-- No signed integers. -/
def Ty.Unsigned : Ty → Prop
  | .word word => ∀ more, word ≠ .int more
  | .bytes => True
  | .string => True
  | .vector element => element.Unsigned
  | .tuple members => members.Unsigned

def Tys.Unsigned : Tys → Prop
  | .last ty => ty.Unsigned
  | .cons ty rest => ty.Unsigned ∧ rest.Unsigned

end

mutual

/-- Enumerations are written as one byte. -/
def Ty.EnumsFit : (ty : Ty) → ty.Value → Prop
  | .word (.enumeration _), value => BitVec.toNat value < 2 ^ 8
  | .word _, _ => True
  | .bytes, _ => True
  | .string, _ => True
  | .vector element, values => List.Forall element.EnumsFit values
  | .tuple members, values => members.EnumsFit values

def Tys.EnumsFit : (tys : Tys) → tys.Values → Prop
  | .last ty, value => ty.EnumsFit value
  | .cons ty rest, values => ty.EnumsFit values.1 ∧ rest.EnumsFit values.2

end

def Word.stored : (word : Word) → word.Value → word.Value
  | .enumeration _, value => BitVec.ofNat _ (value.toNat % 2 ^ 8)
  | .uint _, value => value
  | .int _, value => value
  | .bool, value => value
  | .address, value => value
  | .hash, value => value

mutual

/-- What is left of a value when it has been written. -/
def Ty.stored : (ty : Ty) → ty.Value → ty.Value
  | .word word, value => word.stored value
  | .bytes, value => value
  | .string, value => value
  | .vector element, values => List.map element.stored values
  | .tuple members, values => members.stored values

def Tys.stored : (tys : Tys) → tys.Values → tys.Values
  | .last ty, value => ty.stored value
  | .cons ty rest, values => (ty.stored values.1, rest.stored values.2)

end
end OrbiterSDK.ABI

namespace OrbiterSDK.Proofs.AbiRoundTrip
open Lib Utils ByteStrings TxItems ABI Encoder Decoder AbiLayout

mutual

theorem headSize_least : (ty : Ty) → 32 ≤ ty.headSize
  | .word _ => Nat.le_refl _
  | .bytes => Nat.le_refl _
  | .string => Nat.le_refl _
  | .vector _ => Nat.le_refl _
  | .tuple members => by
    have least := headSizes_least members
    have some : 1 ≤ members.tupleSize := by
      cases members with
      | last ty => exact Nat.le_refl 1
      | cons ty rest => exact Nat.le_add_left 1 _
    unfold Ty.headSize
    split
    · exact Nat.le_refl _
    · omega
termination_by structural ty => ty

theorem headSizes_least : (tys : Tys) → 32 * tys.tupleSize ≤ tys.headSizes
  | .last ty => headSize_least ty
  | .cons ty rest => by
    have first := headSize_least ty
    have others := headSizes_least rest
    unfold Tys.tupleSize Tys.headSizes
    omega
termination_by structural tys => tys

end

theorem encodeUint_length (num : Nat) : (encodeUint num).length = 32 := uintToBytes_length 32 num

theorem encodeInt_length (num : Int) : (encodeInt num).length = 32 := by
  unfold encodeInt
  split
  · exact uintToBytes_length 32 _
  · exact uintToBytes_length 32 _

theorem encodeWord_length (word : Word) (value : word.Value) : (encodeWord word value).length = 32 := by
  cases word with
  | uint more =>
    rw [encodeWord]
    exact encodeUint_length _
  | int more =>
    rw [encodeWord]
    exact encodeInt_length _
  | bool =>
    rw [encodeWord]
    exact padLeftBytes_length (by simp)
  | address =>
    rw [encodeWord]
    apply padLeftBytes_length
    rw [Address.get, uintToBytes_length]
    omega
  | hash =>
    rw [encodeWord]
    exact Hash.get_length _
  | enumeration more =>
    rw [encodeWord]
    exact encodeUint_length _

def parts : (tys : Tys) → tys.Values → List Part
  | .last ty, value => [⟨ty.isDynamic, encode ty value⟩]
  | .cons ty rest, values => ⟨ty.isDynamic, encode ty values.1⟩ :: parts rest values.2

def elements (element : Ty) (values : List element.Value) : List Part := values.map fun value => ⟨element.isDynamic, encode element value⟩

theorem encodeItems_eq : (tys : Tys) → (values : tys.Values) → (packing : Packing) →
    encodeItems tys values packing = pack (parts tys values) packing
  | .last _, _, _ => by
    unfold encodeItems parts
    rfl
  | .cons _ rest, values, packing => by
    unfold encodeItems parts
    rw [encodeItems_eq rest]
    rfl

theorem parts_dynamic : (tys : Tys) → (values : tys.Values) → (parts tys values).any Part.dynamic = tys.isTupleOfDynamicTypes
  | .last _, _ => Bool.or_false _
  | .cons ty rest, values => congrArg (ty.isDynamic || ·) (parts_dynamic rest values.2)

theorem pack_static {items : List Part} : ∀ {packing : Packing}, items.any Part.dynamic = false →
    pack items packing = { packing with result := packing.result ++ (items.map Part.packed).flatten } := by
  induction items with
  | nil =>
    intro packing static
    show packing = _
    rw [List.map_nil, List.flatten_nil, List.append_nil]
  | cons part rest ih =>
    intro packing static
    rw [List.any_cons, Bool.or_eq_false_iff] at static
    rw [pack_cons, ih static.2, static.1, encodeItem_static, List.map_cons, List.flatten_cons, List.append_assoc]

theorem headSizes_static {items : List Part} (static : items.any Part.dynamic = false) :
    ((items.map Part.packed).flatten).length = headSizes items := by
  induction items with
  | nil => rfl
  | cons part rest ih =>
    rw [List.any_cons, Bool.or_eq_false_iff] at static
    rw [List.map_cons, List.flatten_cons, List.length_append, ih static.2, headSizes_cons, Part.headSize, static.1]
    rfl

theorem headSize_dynamic {ty : Ty} (dynamic : ty.isDynamic = true) : ty.headSize = 32 := by
  cases ty with
  | word word => cases dynamic
  | bytes => rfl
  | string => rfl
  | vector element => rfl
  | tuple members => exact if_pos dynamic

/-- A value of a static type has as many bytes as its type says, and the place of a dynamic one has 32. -/
theorem headSize_part {ty : Ty} {value : ty.Value} (length : ty.isDynamic = false → (encode ty value).length = ty.headSize) :
    (AbiLayout.Part.mk ty.isDynamic (encode ty value)).headSize = ty.headSize := by
  unfold Part.headSize
  cases dynamic : ty.isDynamic with
  | true => exact (headSize_dynamic dynamic).symm
  | false => exact length dynamic

mutual

/-- A static value takes as many bytes as its type says. -/
theorem encode_length : (ty : Ty) → ty.isDynamic = false → (value : ty.Value) → (encode ty value).length = ty.headSize
  | .word word, _, value => encodeWord_length word value
  | .tuple members, static, values => by
    have none : (parts members values).any Part.dynamic = false := (parts_dynamic members values).trans static
    have own : ¬ members.isTupleOfDynamicTypes = true := by
      rw [show members.isTupleOfDynamicTypes = false from static]
      decide
    unfold encode
    rw [encodeItems_eq, pack_static none, Packing.all, List.append_nil, List.nil_append, headSizes_static none,
      parts_headSizes members values, Ty.headSize, if_neg own]
termination_by structural ty => ty

theorem parts_headSizes : (tys : Tys) → (values : tys.Values) → headSizes (parts tys values) = tys.headSizes
  | .last ty, value => by
    exact (Nat.add_zero _).trans (headSize_part fun dynamic => encode_length ty dynamic value)
  | .cons ty rest, values => by
    have one := headSize_part fun dynamic => encode_length ty dynamic values.1
    rw [parts, headSizes_cons, parts_headSizes rest values.2, one]
    rfl
termination_by structural tys => tys

end

theorem item_headSize (ty : Ty) (value : ty.Value) : (AbiLayout.Part.mk ty.isDynamic (encode ty value)).headSize = ty.headSize :=
  headSize_part fun dynamic => encode_length ty dynamic value

theorem elements_headSizes (element : Ty) (values : List element.Value) :
    headSizes (elements element values) = values.length * element.headSize := by
  induction values with
  | nil => exact (Nat.zero_mul _).symm
  | cons value rest ih =>
    have cons : elements element (value :: rest) = ⟨element.isDynamic, encode element value⟩ :: elements element rest := rfl
    rw [cons, headSizes_cons, ih, item_headSize, List.length_cons, Nat.succ_mul, Nat.add_comm]

/-- A vector of static elements is packed as one of dynamic elements, without any offsets. -/
theorem encode_vector (element : Ty) (values : List element.Value) : encode (.vector element) values =
    offsetWord values.length ++ (pack (elements element values) ⟨[], 32 * values.length, []⟩).all := by
  have packed : (elements element values).map Part.packed = values.map (encode element) := by
    rw [elements, List.map_map]
    rfl
  unfold encode
  split
  case isTrue dynamic =>
    simp only [pack, elements, List.foldl_map, dynamic]
    rfl
  case isFalse static =>
    have none : (elements element values).any Part.dynamic = false := by
      rw [List.any_eq_false]
      intro part member
      obtain ⟨value, _, rfl⟩ := List.mem_map.mp member
      exact static
    rw [pack_static none, packed, Packing.all, List.nil_append, List.append_nil]
    rfl

theorem elements_ready (element : Ty) (values : List element.Value) : Ready (elements element values) ⟨[], 32 * values.length, []⟩ := by
  intro some
  obtain ⟨part, member, dynamic⟩ := List.any_eq_true.mp some
  obtain ⟨value, _, rfl⟩ := List.mem_map.mp member
  have own : element.headSize = 32 := headSize_dynamic dynamic
  rw [elements_headSizes, own]
  simp only [List.length_nil]
  omega

theorem elements_length (element : Ty) (values : List element.Value) :
    values.length ≤ (pack (elements element values) ⟨[], 32 * values.length, []⟩).all.length := by
  have packed := pack_length (elements element values) ⟨[], 32 * values.length, []⟩
  have least := headSize_least element
  have each : values.length ≤ values.length * element.headSize := Nat.le_mul_of_pos_right _ (by omega)
  rw [elements_headSizes] at packed
  omega

theorem parts_ready {tys : Tys} (own : tys.OwnOffsets) (values : tys.Values) : Ready (parts tys values) ⟨[], calculateTotalOffset tys, []⟩ := by
  intro some
  rw [parts_dynamic] at some
  rw [parts_headSizes]
  have offset := own some
  simp only [List.length_nil]
  omega

theorem placed_dynamic {dynamic : Bool} {bytes packed : Bytes} {index : Nat} (some : dynamic = true) :
    Part.PlacedAt bytes index ⟨dynamic, packed⟩ ↔ ∃ offset < 2 ^ 64, Holds bytes index (offsetWord offset) ∧ Holds bytes offset packed := by
  rw [some]
  rfl

theorem placed_static {dynamic : Bool} {bytes packed : Bytes} {index : Nat} (none : dynamic = false) :
    Part.PlacedAt bytes index ⟨dynamic, packed⟩ ↔ Holds bytes index packed := by
  rw [none]
  rfl

/-- Static items one behind the other are all in their places. -/
theorem static_placed {items : List Part} {bytes : Bytes} {index : Nat} (none : items.any Part.dynamic = false) (fits : bytes.length < 2 ^ 64)
    (held : Holds bytes index (items.map Part.packed).flatten) : AllPlaced bytes index items := by
  have bound := held.bound
  obtain ⟨before, after, whole, place⟩ := held
  have ready : Ready items ⟨before, 0, []⟩ := by
    intro some
    rw [none] at some
    cases some
  have all : (pack items ⟨before, 0, []⟩).all = before ++ (items.map Part.packed).flatten := by
    rw [pack_static none, Packing.all, List.append_nil]
  rw [← place]
  apply pack_placed ready
  · rw [all, List.length_append, place]
    omega
  · refine ⟨after, ?_⟩
    rw [all, whole, List.append_assoc]

section Reading
variable {bytes part : Bytes} {index : Nat}

theorem enough_pure {needed : Nat} {what : Exception} (fits : needed ≤ bytes.length) : enough bytes needed what = pure () :=
  if_neg (Nat.not_lt.mpr fits)

theorem range_holds {finish : Nat} (held : Holds bytes index part) (size : finish = index + part.length) : range bytes index finish = pure part := by
  have bound := held.bound
  have taken := held.take_drop
  have inside : index ≤ finish ∧ finish ≤ bytes.length := by omega
  have length : finish - index = part.length := by omega
  unfold range
  rw [if_pos inside, length, taken]
  rfl

theorem subspan_pure {offset : Nat} (fits : offset ≤ bytes.length) : subspan bytes offset = pure (bytes.drop offset) := if_pos fits

theorem add64_exact {left right : Nat} (fits : left + right < 2 ^ 64) : add64 left right = left + right := Nat.mod_eq_of_lt fits

theorem word64_holds {number : Nat} (held : Holds bytes index (offsetWord number)) (small : number < 2 ^ 64) (fits : bytes.length < 2 ^ 64) :
    word64 bytes index = pure number := by
  have size := offsetWord_length small
  have bound := held.bound
  have exact : add64 index 32 = index + 32 := add64_exact (by omega)
  have value : bytesToUint (offsetWord number) = number := (bytesToUint_padLeftBytes _ _).trans (bytesToUint_unpadded number)
  unfold word64
  rw [exact, range_holds held (congrArg (index + ·) size.symm), pure_bind, fromBigEndian64, value, UInt64.toNat_ofNat',
    Nat.mod_eq_of_lt small]

theorem decodeFixed_holds {α : Type} {what : Exception} {convert : Bytes → Except Exception α} {value : α} (held : Holds bytes index part)
    (size : part.length = 32) (converted : convert part = pure value) : decodeFixed what convert bytes index = pure (value, index + 32) := by
  have bound := held.bound
  unfold decodeFixed
  rw [enough_pure (by omega), pure_bind, range_holds held (congrArg (index + ·) size.symm), pure_bind, converted, pure_bind]

theorem narrow_pure {size value : Nat} (fits : value < 2 ^ (8 * size)) : narrow size value = pure (BitVec.ofNat _ value) := if_pos fits

private theorem bytesToUint_encodeUint {num : Nat} (fits : num < 256 ^ 32) : bytesToUint (encodeUint num) = num := bytesToUint_uintToBytes fits

private theorem word_fits {size : Nat} (few : size ≤ 32) {num : Nat} (fits : num < 2 ^ (8 * size)) : num < 256 ^ 32 := by
  have wide : (2 : Nat) ^ (8 * size) ≤ 2 ^ (8 * 32) := Nat.pow_le_pow_right (by decide) (Nat.mul_le_mul_left 8 few)
  rw [Nat.pow_mul 2 8 32] at wide
  exact Nat.lt_of_lt_of_le fits wide

private theorem decodeUint_holds {size num : Nat} (held : Holds bytes index (encodeUint num)) (few : size ≤ 32) (fits : num < 2 ^ (8 * size)) :
    decodeUint (narrow size) bytes index = pure (BitVec.ofNat _ num, index + 32) := by
  apply decodeFixed_holds held (encodeUint_length num)
  rw [bytesToUint_encodeUint (word_fits few fits), narrow_pure fits]

theorem decodeWord_holds {word : Word} {value : word.Value} (unsigned : ∀ more, word ≠ .int more) (held : Holds bytes index (encodeWord word value)) :
    decodeWord word bytes index = pure (word.stored value, index + 32) := by
  cases word with
  | uint more =>
    rw [encodeWord] at held
    have read := @decodeUint_holds _ _ (more + 1) _ held (by omega) value.isLt
    rw [BitVec.ofNat_toNat, BitVec.setWidth_eq] at read
    exact read
  | int more => exact absurd rfl (unsigned more)
  | bool =>
    have size := encodeWord_length .bool value
    apply decodeFixed_holds held size
    cases value with
    | true => rfl
    | false => rfl
  | address =>
    have size := encodeWord_length .address value
    apply decodeFixed_holds held size
    have twenty : (Address.get value).length = 20 := uintToBytes_length 20 _
    have zeros : (List.replicate (32 - 20) 0 : Bytes).length = 12 := List.length_replicate
    have same : (encodeWord .address value).drop 12 = Address.get value := by
      rw [encodeWord, padLeftBytes, twenty, ← zeros, List.drop_left]
    rw [same, address_ofBytes_get]
    rfl
  | hash =>
    have size := encodeWord_length .hash value
    apply decodeFixed_holds held size
    rw [encodeWord, BlockEntries.hash_ofBytes_get]
    rfl
  | enumeration more =>
    have byte : BitVec.toNat value % 2 ^ 8 < 2 ^ 8 := Nat.mod_lt _ (by decide)
    have wide : 2 ^ 8 ≤ 2 ^ (8 * (more.val + 1)) := Nat.pow_le_pow_right (by decide) (Nat.le_mul_of_pos_right 8 (Nat.succ_pos _))
    rw [encodeWord] at held
    exact decodeUint_holds held (by omega) (Nat.lt_of_lt_of_le byte wide)

/-- The bytes behind an offset, whose length is at the offset. -/
theorem decodeBytes_holds {offset : Nat} {data : Bytes} {first second third : Exception} (small : offset < 2 ^ 64) (fits : bytes.length < 2 ^ 64)
    (word : Holds bytes index (offsetWord offset)) (held : Holds bytes offset (encodeBytes data)) :
    decodeBytes first second third bytes index = pure (data, index + 32) := by
  have length : Holds bytes offset (offsetWord data.length) := held.left
  have behind := held.right
  have short : data.length < 2 ^ 64 := by
    have bound := behind.left.bound
    omega
  have size := offsetWord_length short
  have wordSize := offsetWord_length small
  have wordBound := word.bound
  have lengthBound := length.bound
  rw [show padLeftBytes (unpadded data.length) 32 = offsetWord data.length from rfl, size] at behind
  have bound := behind.left.bound
  have toLength : add64 offset 32 = offset + 32 := add64_exact (by omega)
  have toEnd : add64 (offset + 32) data.length = offset + 32 + data.length := add64_exact (by omega)
  unfold decodeBytes
  rw [enough_pure (by omega), pure_bind, word64_holds word small fits, pure_bind, toLength, enough_pure (by omega), pure_bind,
    word64_holds length short fits, pure_bind, toEnd, enough_pure (by omega), pure_bind, range_holds behind.left rfl, pure_bind]

theorem decodeElements_placed {element : Ty} {values : List element.Value}
    (each : ∀ value ∈ values, ∀ index : Nat, Part.PlacedAt bytes index ⟨element.isDynamic, encode element value⟩ →
      decode element bytes index = pure (element.stored value, index + element.headSize)) :
    ∀ index : Nat, AllPlaced bytes index (elements element values) →
      decodeElements (decode element bytes) values.length index = pure (values.map element.stored) := by
  induction values with
  | nil =>
    intro index placed
    rfl
  | cons value rest ih =>
    intro index placed
    obtain ⟨here, later⟩ := placed
    rw [item_headSize] at later
    have others := ih (fun other member => each other (List.mem_cons_of_mem _ member)) _ later
    rw [List.length_cons, decodeElements, each value List.mem_cons_self index here, pure_bind]
    dsimp only
    rw [others, pure_bind]
    rfl

end Reading

mutual

theorem decode_placed : (ty : Ty) → ty.Unsigned → ∀ value : ty.Value, ty.Aligned value → ∀ (bytes : Bytes) (index : Nat), bytes.length < 2 ^ 64 →
    Part.PlacedAt bytes index ⟨ty.isDynamic, encode ty value⟩ → decode ty bytes index = pure (ty.stored value, index + ty.headSize)
  | .word _, unsigned, value, _, bytes, index, fits, placed => decodeWord_holds unsigned placed
  | .bytes, _, value, _, bytes, index, fits, placed => by
    obtain ⟨offset, small, word, held⟩ := placed
    exact decodeBytes_holds small fits word held
  | .string, _, value, _, bytes, index, fits, placed => by
    obtain ⟨offset, small, word, held⟩ := placed
    exact decodeBytes_holds small fits word held
  | .vector element, unsigned, values, aligned, bytes, index, fits, placed => by
    obtain ⟨offset, small, word, held⟩ := placed
    rw [encode_vector] at held
    have length := held.left
    have behind := held.right
    have wordBound := word.bound
    have lengthBound := length.bound
    have wordSize := offsetWord_length small
    have inside := behind.bound
    have short : List.length values < 2 ^ 64 := by
      have few := elements_length element values
      omega
    rw [offsetWord_length short] at behind lengthBound
    have toView : add64 offset 32 = offset + 32 := add64_exact (by omega)
    have bound := behind.bound
    have placed : AllPlaced (bytes.drop (offset + 32)) 0 (elements element values) := by
      apply pack_placed (elements_ready element values)
      · omega
      · exact behind.drop
    have shorter : (bytes.drop (offset + 32)).length < 2 ^ 64 := by
      rw [List.length_drop]
      omega
    have read := decodeElements_placed (fun value member index => decode_placed element unsigned value (List.forall_iff_forall_mem.mp aligned value member) _ index shorter)
      0 placed
    rw [decode, enough_pure (by omega), pure_bind, word64_holds word small fits, pure_bind, toView, enough_pure (by omega), pure_bind,
      word64_holds length short fits, pure_bind, subspan_pure (by omega), pure_bind, read, pure_bind]
    rfl
  | .tuple members, unsigned, values, aligned, bytes, index, fits, placed => by
    have packed : encode (.tuple members) values = (pack (parts members values) ⟨[], calculateTotalOffset members, []⟩).all :=
      congrArg Packing.all (encodeItems_eq members values _)
    rw [decode, Ty.headSize]
    by_cases dynamic : members.isTupleOfDynamicTypes = true
    · obtain ⟨offset, small, word, held⟩ := (placed_dynamic dynamic).mp placed
      rw [packed] at held
      have wordBound := word.bound
      have bound := held.bound
      have wordSize := offsetWord_length small
      have shorter : (bytes.drop offset).length < 2 ^ 64 := by
        rw [List.length_drop]
        omega
      have inside := pack_placed (parts_ready aligned.1 values) (by omega) held.drop
      have read := decodeTuple_placed members unsigned values aligned.2 _ 0 shorter inside
      rw [if_pos dynamic, if_pos dynamic, enough_pure (by omega), pure_bind, word64_holds word small fits, pure_bind,
        subspan_pure (by omega), pure_bind, read, pure_bind]
      rfl
    · have static : members.isTupleOfDynamicTypes = false := Bool.eq_false_iff.mpr dynamic
      have none : (parts members values).any Part.dynamic = false := (parts_dynamic members values).trans static
      have held := (placed_static static).mp placed
      rw [packed, pack_static none, Packing.all, List.append_nil, List.nil_append] at held
      have bound := held.bound
      have least := headSizes_least members
      rw [headSizes_static none, parts_headSizes] at bound
      have inside := static_placed none fits held
      rw [if_neg dynamic, if_neg dynamic, enough_pure (by omega), pure_bind]
      exact decodeTuple_placed members unsigned values aligned.2 bytes index fits inside
termination_by structural ty => ty

theorem decodeTuple_placed : (tys : Tys) → tys.Unsigned → ∀ values : tys.Values, tys.MembersAligned values → ∀ (bytes : Bytes) (index : Nat),
    bytes.length < 2 ^ 64 → AllPlaced bytes index (parts tys values) →
    decodeTuple tys bytes index = pure (tys.stored values, index + tys.headSizes)
  | .last ty, unsigned, value, aligned, bytes, index, fits, placed => decode_placed ty unsigned value aligned bytes index fits placed.1
  | .cons ty rest, unsigned, values, aligned, bytes, index, fits, placed => by
    obtain ⟨here, later⟩ := placed
    rw [item_headSize] at later
    rw [decodeTuple, decode_placed ty unsigned.1 values.1 aligned.1 bytes index fits here, pure_bind]
    dsimp only
    rw [decodeTuple_placed rest unsigned.2 values.2 aligned.2 bytes _ fits later, pure_bind, Nat.add_assoc]
    rfl
termination_by structural tys => tys

end

theorem word_stored_iff (word : Word) (value : word.Value) : word.stored value = value ↔ (Ty.word word).EnumsFit value := by
  cases word with
  | uint _ => exact iff_of_true rfl trivial
  | int _ => exact iff_of_true rfl trivial
  | bool => exact iff_of_true rfl trivial
  | address => exact iff_of_true rfl trivial
  | hash => exact iff_of_true rfl trivial
  | enumeration more =>
    constructor
    · intro same
      have low : (BitVec.ofNat (8 * (more.val + 1)) (BitVec.toNat value % 2 ^ 8)).toNat ≤ BitVec.toNat value % 2 ^ 8 := Nat.mod_le _ _
      have back : (BitVec.ofNat (8 * (more.val + 1)) (BitVec.toNat value % 2 ^ 8)).toNat = BitVec.toNat value := congrArg BitVec.toNat same
      have byte : BitVec.toNat value % 2 ^ 8 < 2 ^ 8 := Nat.mod_lt _ (by decide)
      rw [back] at low
      exact Nat.lt_of_le_of_lt low byte
    · intro fits
      have low : BitVec.toNat value % 2 ^ 8 = BitVec.toNat value := Nat.mod_eq_of_lt fits
      show BitVec.ofNat _ (BitVec.toNat value % 2 ^ 8) = value
      rw [low, BitVec.ofNat_toNat, BitVec.setWidth_eq]

mutual

theorem stored_eq_iff : (ty : Ty) → (value : ty.Value) → (ty.stored value = value ↔ ty.EnumsFit value)
  | .word word, value => word_stored_iff word value
  | .bytes, _ => iff_of_true rfl trivial
  | .string, _ => iff_of_true rfl trivial
  | .vector element, values => by
    have each (value : element.Value) : element.stored value = value ↔ element.EnumsFit value := stored_eq_iff element value
    calc List.map element.stored values = values
      _ ↔ List.map element.stored values = List.map id values := by rw [List.map_id]
      _ ↔ ∀ value ∈ _, element.stored value = id value := List.map_inj_left
      _ ↔ ∀ value ∈ _, element.EnumsFit value := forall₂_congr fun value _ => each value
      _ ↔ List.Forall element.EnumsFit values := List.forall_iff_forall_mem.symm
  | .tuple members, values => storedAll_eq_iff members values
termination_by structural ty => ty

private theorem storedAll_eq_iff : (tys : Tys) → (values : tys.Values) → (tys.stored values = values ↔ tys.EnumsFit values)
  | .last ty, value => stored_eq_iff ty value
  | .cons ty rest, values => Prod.ext_iff.trans (and_congr (stored_eq_iff ty values.1) (storedAll_eq_iff rest values.2))
termination_by structural tys => tys

end

/-- What is read back from written data, whatever the types. -/
theorem decodeData_encodeData {tys : Tys} {values : tys.Values} (unsigned : tys.Unsigned) (aligned : (Ty.tuple tys).Aligned values)
    (fits : (encodeData tys values).length < 2 ^ 64) : decodeData tys (encodeData tys values) = pure (tys.stored values) := by
  have packed : encodeData tys values = (pack (parts tys values) ⟨[], calculateTotalOffset tys, []⟩).all :=
    congrArg Packing.all (encodeItems_eq tys values _)
  have placed : AllPlaced (encodeData tys values) 0 (parts tys values) := by
    apply pack_placed (parts_ready aligned.1 values)
    · rw [← packed]
      exact fits
    · exact ⟨[], packed.trans (List.append_nil _).symm⟩
  rw [decodeData, decodeTuple_placed tys unsigned values aligned.2 _ 0 fits placed, pure_bind]

/-- Where all offsets are counted from the end of the words, values come back, with the low
byte of each enumeration. -/
theorem aligned_data_reads_back {tys : Tys} {values : tys.Values} (unsigned : tys.Unsigned) (aligned : (Ty.tuple tys).Aligned values)
    (fits : (encodeData tys values).length < 2 ^ 64) :
    decodeData tys (encodeData tys values) = .ok (tys.stored values) ∧ (tys.stored values = values ↔ tys.EnumsFit values) := by
  constructor
  · exact decodeData_encodeData unsigned aligned fits
  · exact storedAll_eq_iff tys values

abbrev uint256 : Ty := .word (.uint 31)

/-- Members and their names: a vector of pairs behind an address and an enumeration. -/
abbrev registry : Tys := .cons (.tuple (.cons (.word .address) (.last (.word (.enumeration 0)))))
  (.last (.vector (.tuple (.cons uint256 (.last .string)))))

theorem aligned_registry_reads_back : decodeData registry (encodeData registry ((0xa1, 3), [(1, [0x61]), (2, [])])) =
    .ok ((0xa1, 3), [(1, [0x61]), (2, [])]) := by
  have unsigned : registry.Unsigned := by simp [Tys.Unsigned, Ty.Unsigned]
  have aligned : (Ty.tuple registry).Aligned ((0xa1, 3), [(1, [0x61]), (2, [])]) := by
    have outer : registry.OwnOffsets := fun _ => rfl
    have pair : (Tys.cons (.word .address) (.last (.word (.enumeration 0)))).OwnOffsets := fun _ => rfl
    have entry : (Tys.cons uint256 (.last .string)).OwnOffsets := fun _ => rfl
    simp [Ty.Aligned, Tys.MembersAligned, outer, pair, entry]
  have fit : registry.EnumsFit ((0xa1, 3), [(1, [0x61]), (2, [])]) := by simp [Tys.EnumsFit, Ty.EnumsFit]
  obtain ⟨read, same⟩ := aligned_data_reads_back unsigned aligned (by decide +kernel)
  rw [same.mpr fit] at read
  exact read

/-- A point and its name: `std::tuple<uint256_t, std::tuple<uint256_t, uint256_t>>` and a string. -/
abbrev namedPoint : Tys := .cons (.tuple (.cons uint256 (.last (.tuple (.cons uint256 (.last uint256)))))) (.last .string)

/-- An enumeration over `uint16_t`. -/
abbrev wideChoice : Tys := .last (.word (.enumeration 1))

/-- The offset of the name points to the last coordinate, and of an enumeration one byte is left. -/
theorem some_values_are_lost : namedPoint.Unsigned ∧
    decodeData namedPoint (encodeData namedPoint ((1, 2, 3), [0x61, 0x62])) = .error "Data too short for string 3" ∧
    wideChoice.Unsigned ∧ decodeData wideChoice (encodeData wideChoice (300 : BitVec 16)) = .ok (44 : BitVec 16) := by
  refine ⟨?_, ?_, ?_, ?_⟩
  · simp [Tys.Unsigned, Ty.Unsigned]
  · decide +kernel
  · simp [Tys.Unsigned, Ty.Unsigned]
  · decide

end OrbiterSDK.Proofs.AbiRoundTrip
