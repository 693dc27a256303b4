import OrbiterSDK.Proofs.AbiRoundTrip

/-! When the data of an event is the encoding of what is not indexed. The words are the same; it is the first
offset that is counted in two ways. -/

namespace OrbiterSDK.Proofs.EventData
open Utils ByteStrings TxItems ABI Encoder EventEncoder AbiLayout AbiRoundTrip

theorem offsetWord_mono {first second : Nat} (le : first ≤ second) : (offsetWord first).length ≤ (offsetWord second).length := by
  have few : bytesRequired first ≤ bytesRequired second :=
    bytesRequired_le_iff.mpr (lt_of_le_of_lt le (bytesRequired_le_iff.mp (le_refl _)))
  simp only [offsetWord, padLeftBytes, List.length_append, List.length_replicate, unpadded_length]
  omega

private theorem offsetWord_injective {first second : Nat} (same : offsetWord first = offsetWord second) : first = second := by
  have numbers := congrArg bytesToUint same
  simpa only [offsetWord, bytesToUint_padLeftBytes, bytesToUint_unpadded] using numbers

/-- The words of a list of items, from a first offset on. -/
def heads : List Part → Nat → Bytes
  | [], _ => []
  | part :: rest, offset =>
    if part.dynamic then offsetWord offset ++ heads rest (offset + part.packed.length)
    else part.packed ++ heads rest offset

/-- The bytes behind them do not depend on it. -/
def tails : List Part → Bytes
  | [] => []
  | part :: rest => if part.dynamic then part.packed ++ tails rest else tails rest

theorem pack_eq (items : List Part) : ∀ packing : Packing,
    (pack items packing).all = packing.result ++ heads items packing.nextOffset ++ (packing.dynamicBytes ++ tails items) := by
  induction items with
  | nil =>
    intro packing
    simp [pack, Packing.all, heads, tails]
  | cons part rest ih =>
    intro packing
    rcases part with ⟨_ | _, packed⟩ <;> simp [pack_cons, ih, Packing.encodeItem, heads, tails, offsetWord]

theorem heads_mono (items : List Part) : ∀ {first second : Nat}, first ≤ second →
    (heads items first).length ≤ (heads items second).length := by
  induction items with
  | nil => exact fun _ => le_refl _
  | cons part rest ih =>
    intro first second le
    rcases part with ⟨_ | _, packed⟩
    · simpa [heads] using ih le
    · have word := offsetWord_mono le
      have later := @ih (first + packed.length) (second + packed.length) (by omega)
      simp only [heads, if_true, List.length_append]
      omega

/-- The first offset that is written tells the difference. -/
theorem heads_eq_iff (items : List Part) {first second : Nat} :
    heads items first = heads items second ↔ first = second ∨ items.any Part.dynamic = false := by
  induction items with
  | nil => exact iff_of_true rfl (.inr rfl)
  | cons part rest ih =>
    rcases part with ⟨_ | _, packed⟩
    · simpa [heads] using ih
    · simp only [heads, if_true, List.any_cons, Bool.true_or, Bool.true_eq_false, or_false]
      constructor
      · intro same
        have lengths := congrArg List.length same
        simp only [List.length_append] at lengths
        have word : (offsetWord first).length = (offsetWord second).length := by
          rcases Nat.le_total first second with le | le
          · have words := offsetWord_mono le
            have later := heads_mono rest (Nat.add_le_add_right le packed.length)
            omega
          · have words := offsetWord_mono le
            have later := heads_mono rest (Nat.add_le_add_right le packed.length)
            omega
        exact offsetWord_injective (List.append_inj_left same word)
      · rintro rfl
        rfl

/-- The arguments that are not indexed, if there are any. -/
def plain : (params : Params) → params.types.Values → Option ((tys : Tys) × tys.Values)
  | .last ty isIndexed, value => if isIndexed then none else some ⟨.last ty, value⟩
  | .cons ty isIndexed rest, values =>
    if isIndexed then plain rest values.2
    else match plain rest values.2 with
      | none => some ⟨.last ty, values.1⟩
      | some others => some ⟨.cons ty others.1, (values.1, others.2)⟩

/-- What the data is for: the encoding of these arguments. -/
def plainData (arguments : Option ((tys : Tys) × tys.Values)) : Bytes :=
  arguments.elim [] fun some => encodeData some.1 some.2

def anyIndexed : Params → Bool
  | .last _ isIndexed => isIndexed
  | .cons _ isIndexed rest => isIndexed || anyIndexed rest

/-- Something that is not indexed has no fixed size. -/
def plainDynamic : Params → Bool
  | .last ty isIndexed => !isIndexed && ty.isDynamic
  | .cons ty isIndexed rest => !isIndexed && ty.isDynamic || plainDynamic rest

/-- The items that are written. -/
def items : (params : Params) → params.types.Values → List Part
  | .last ty isIndexed, value => if isIndexed then [] else [⟨ty.isDynamic, encode ty value⟩]
  | .cons ty isIndexed rest, values =>
    if isIndexed then items rest values.2 else ⟨ty.isDynamic, encode ty values.1⟩ :: items rest values.2

theorem items_eq (params : Params) : ∀ (values : params.types.Values) (packing : Packing),
    params.encodeItems values packing = pack (items params values) packing := by
  induction params with
  | last ty isIndexed =>
    intro value packing
    cases isIndexed <;> rfl
  | cons ty isIndexed rest ih =>
    intro values packing
    cases isIndexed
    · exact ih values.2 _
    · exact ih values.2 packing

theorem items_dynamic (params : Params) : ∀ values : params.types.Values,
    (items params values).any Part.dynamic = plainDynamic params := by
  induction params with
  | last ty isIndexed =>
    intro value
    cases isIndexed
    · exact Bool.or_false _
    · rfl
  | cons ty isIndexed rest ih =>
    intro values
    cases isIndexed
    · exact congrArg (ty.isDynamic || ·) (ih values.2)
    · exact ih values.2

theorem offset_positive (ty : Ty) : 0 < calculateOffsetForType ty := by
  unfold calculateOffsetForType
  split
  · decide
  · cases ty with
    | tuple members => cases members <;> simp [Tys.tupleSize]
    | _ => exact Nat.succ_pos 31

private theorem totalOffset_positive (tys : Tys) : 0 < calculateTotalOffset tys := by
  cases tys with
  | last ty => exact offset_positive ty
  | cons ty rest => exact Nat.add_pos_left (offset_positive ty) _

/-- The items are those of the arguments, and each indexed one has its share in the first offset. -/
theorem items_plain (params : Params) : ∀ values : params.types.Values,
    (plain params values = none ∧ items params values = [] ∧ anyIndexed params = true) ∨
      ∃ tys arguments, plain params values = some ⟨tys, arguments⟩ ∧ items params values = parts tys arguments ∧
        calculateTotalOffset tys ≤ calculateTotalOffset params.types ∧
        (calculateTotalOffset params.types = calculateTotalOffset tys ↔ anyIndexed params = false) := by
  induction params with
  | last ty isIndexed =>
    intro value
    cases isIndexed
    · exact .inr ⟨.last ty, value, rfl, rfl, le_refl _, iff_of_true rfl rfl⟩
    · exact .inl ⟨rfl, rfl, rfl⟩
  | cons ty isIndexed rest ih =>
    intro values
    have one := offset_positive ty
    have more := totalOffset_positive rest.types
    rcases ih values.2 with ⟨none, empty, indexed⟩ | ⟨tys, arguments, found, written, least, same⟩
    · cases isIndexed
      · refine .inr ⟨.last ty, values.1, ?_, ?_, ?_, ?_⟩
        · simp [plain, none]
        · simp [items, empty, parts]
        · exact Nat.le_add_right _ _
        · simp only [Params.types, calculateTotalOffset, anyIndexed, indexed, Bool.or_true, Bool.true_eq_false, iff_false]
          omega
      · exact .inl ⟨none, empty, rfl⟩
    · cases isIndexed
      · refine .inr ⟨.cons ty tys, (values.1, arguments), ?_, ?_, ?_, ?_⟩
        · simp [plain, found]
        · simp [items, written, parts]
        · exact Nat.add_le_add_left least _
        · simp only [Params.types, calculateTotalOffset, anyIndexed, Bool.false_or, Nat.add_left_cancel_iff, same]
      · refine .inr ⟨tys, arguments, found, written, ?_, ?_⟩
        · exact le_trans least (Nat.le_add_left _ _)
        · simp only [Params.types, calculateTotalOffset, anyIndexed, Bool.true_or, Bool.true_eq_false, iff_false]
          omega

private theorem eventData_eq (params : Params) (values : params.types.Values) : encodeEventData params values =
    heads (items params values) (calculateTotalOffset params.types) ++ tails (items params values) := by
  rw [encodeEventData, items_eq, pack_eq]
  rfl

private theorem data_eq (tys : Tys) (values : tys.Values) : encodeData tys values =
    heads (parts tys values) (calculateTotalOffset tys) ++ tails (parts tys values) := by
  rw [encodeData, encodeItems_eq, pack_eq]
  rfl

theorem eventData_iff (params : Params) (values : params.types.Values) :
    encodeEventData params values = plainData (plain params values) ↔ anyIndexed params = false ∨ plainDynamic params = false := by
  rw [eventData_eq, ← items_dynamic params values]
  rcases items_plain params values with ⟨none, empty, indexed⟩ | ⟨tys, arguments, found, written, least, same⟩
  · rw [none, empty]
    exact iff_of_true rfl (.inr rfl)
  · rw [found, written, ← same]
    change _ = encodeData tys arguments ↔ _
    rw [data_eq, List.append_left_inj]
    exact heads_eq_iff _

/-- Then the arguments are read back from the data, with the low byte of each enumeration. -/
theorem eventData_reads_back {params : Params} {values : params.types.Values} {tys : Tys} {arguments : tys.Values}
    (right : anyIndexed params = false ∨ plainDynamic params = false) (found : plain params values = some ⟨tys, arguments⟩)
    (unsigned : tys.Unsigned) (aligned : (Ty.tuple tys).Aligned arguments) (fits : (encodeEventData params values).length < 2 ^ 64) :
    Decoder.decodeData tys (encodeEventData params values) = .ok (tys.stored arguments) := by
  have same := (eventData_iff params values).mpr right
  rw [found] at same
  change _ = encodeData tys arguments at same
  rw [same] at fits ⊢
  exact decodeData_encodeData unsigned aligned fits

/-- The data is the encoding of what is not indexed, and is read back as far as that is, exactly if nothing is indexed or
everything else has a fixed size. -/
theorem event_data_is_plain_iff (params : Params) (values : params.types.Values) :
    (encodeEventData params values = plainData (plain params values) ↔ anyIndexed params = false ∨ plainDynamic params = false) ∧
      ((anyIndexed params = false ∨ plainDynamic params = false) → ∀ (tys : Tys) (arguments : tys.Values),
        plain params values = some ⟨tys, arguments⟩ → tys.Unsigned → (Ty.tuple tys).Aligned arguments →
        (encodeEventData params values).length < 2 ^ 64 →
        Decoder.decodeData tys (encodeEventData params values) = .ok (tys.stored arguments)) :=
  ⟨eventData_iff params values, fun right _ _ => eventData_reads_back right⟩

/-- Two indexed addresses and an amount. -/
abbrev transfer : Params := .cons (.word .address) true (.cons (.word .address) true (.last uint256 false))

abbrev transferred : transfer.types.Values := ((0xa1 : Address), (0xa2 : Address), (1000 : BitVec 256))

theorem transfer_reads_back : encodeEventData transfer transferred = encodeData (.last uint256) (1000 : BitVec 256) ∧
    Decoder.decodeData (.last uint256) (encodeEventData transfer transferred) = .ok (1000 : BitVec 256) := by
  obtain ⟨same, read⟩ := event_data_is_plain_iff transfer transferred
  have fixed : anyIndexed transfer = false ∨ plainDynamic transfer = false := .inr rfl
  refine ⟨same.mpr fixed, read fixed (.last uint256) (1000 : BitVec 256) rfl ?_ ?_ (by decide)⟩
  · simp [Tys.Unsigned, Ty.Unsigned]
  · simp [Ty.Aligned, Tys.MembersAligned, Tys.OwnOffsets, Tys.isTupleOfDynamicTypes, Ty.isDynamic]

/-- An indexed address and a text. -/
abbrev naming : Params := .cons (.word .address) true (.last .string false)

/-- The offset of the text is that of two words, and there is one. -/
theorem named_text_is_misplaced : ¬ ∀ (params : Params) (values : params.types.Values),
    encodeEventData params values = plainData (plain params values) := by
  intro all
  have right := (eventData_iff naming (0xa1, [0x61, 0x62])).mp (all naming (0xa1, [0x61, 0x62]))
  exact absurd right (by decide)

end OrbiterSDK.Proofs.EventData
