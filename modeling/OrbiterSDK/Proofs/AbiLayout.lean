import OrbiterSDK.Abi
import OrbiterSDK.Lib.Slices
import OrbiterSDK.Proofs.TxItems

/-! Where the encoder puts each item of a list, for any items. The offset of a dynamic item
is that of its bytes as long as the first offset is the size of all words. -/

namespace OrbiterSDK.Proofs.AbiLayout
open Lib Utils ByteStrings TxItems ABI Encoder

/-- An item as it is packed, and whether an offset stands in its place. -/
structure Part where
  dynamic : Bool
  packed : Bytes

def offsetWord (offset : Nat) : Bytes := padLeftBytes (unpadded offset) 32

theorem padLeftBytes_length {bytes : Bytes} {charAmount : Nat} (fits : bytes.length ≤ charAmount) :
    (padLeftBytes bytes charAmount).length = charAmount := by
  rw [padLeftBytes, List.length_append, List.length_replicate]
  omega

theorem bytesToUint_padLeftBytes (bytes : Bytes) (charAmount : Nat) : bytesToUint (padLeftBytes bytes charAmount) = bytesToUint bytes := by
  have zeros (count : Nat) : bytesToUint (List.replicate count 0) = 0 := by
    induction count with
    | zero => rfl
    | succ count ih =>
      rw [List.replicate_succ, bytesToUint_cons, ih]
      exact Nat.zero_mul _
  rw [padLeftBytes, bytesToUint_append, zeros, Nat.zero_mul, Nat.zero_add]

theorem offsetWord_length {offset : Nat} (fits : offset < 2 ^ 64) : (offsetWord offset).length = 32 := by
  have few : bytesRequired offset ≤ 8 := bytesRequired_le_iff.mpr fits
  apply padLeftBytes_length
  rw [unpadded_length]
  omega

def Part.headSize (part : Part) : Nat := if part.dynamic then 32 else part.packed.length

def headSizes (parts : List Part) : Nat := (parts.map Part.headSize).sum

def pack (parts : List Part) (packing : Packing) : Packing :=
  parts.foldl (fun packing part => packing.encodeItem part.dynamic part.packed) packing

/-- The item itself, or its offset and the item where that points to. -/
def Part.PlacedAt (bytes : Bytes) (index : Nat) (part : Part) : Prop :=
  if part.dynamic then ∃ offset < 2 ^ 64, Holds bytes index (offsetWord offset) ∧ Holds bytes offset part.packed
  else Holds bytes index part.packed

/-- One item behind the other. -/
def AllPlaced (bytes : Bytes) : Nat → List Part → Prop
  | _, [] => True
  | index, part :: rest => part.PlacedAt bytes index ∧ AllPlaced bytes (index + part.headSize) rest

def tailSizes (parts : List Part) : Nat := (parts.map fun part => if part.dynamic then part.packed.length else 0).sum

@[simp] theorem headSizes_cons (part : Part) (rest : List Part) : headSizes (part :: rest) = part.headSize + headSizes rest :=
  List.sum_cons

@[simp] theorem tailSizes_cons (part : Part) (rest : List Part) :
    tailSizes (part :: rest) = (if part.dynamic then part.packed.length else 0) + tailSizes rest := List.sum_cons

@[simp] theorem pack_cons (part : Part) (rest : List Part) (packing : Packing) :
    pack (part :: rest) packing = pack rest (packing.encodeItem part.dynamic part.packed) := rfl

theorem encodeItem_dynamic (packing : Packing) (packed : Bytes) : packing.encodeItem true packed =
    ⟨packing.result ++ offsetWord packing.nextOffset, packing.nextOffset + packed.length, packing.dynamicBytes ++ packed⟩ := rfl

theorem encodeItem_static (packing : Packing) (packed : Bytes) : packing.encodeItem false packed =
    ⟨packing.result ++ packed, packing.nextOffset, packing.dynamicBytes⟩ := rfl

private theorem offsetWord_least (offset : Nat) : 32 ≤ (offsetWord offset).length := by
  rw [offsetWord, padLeftBytes, List.length_append, List.length_replicate]
  omega

/-- Packing only adds, at least what the words and the bytes behind them take. -/
theorem pack_adds (parts : List Part) : ∀ packing : Packing, ∃ heads tails,
    (pack parts packing).result = packing.result ++ heads ∧ headSizes parts ≤ heads.length ∧
      (pack parts packing).dynamicBytes = packing.dynamicBytes ++ tails ∧ tails.length = tailSizes parts := by
  induction parts with
  | nil =>
    intro packing
    exact ⟨[], [], (List.append_nil _).symm, Nat.le_refl 0, (List.append_nil _).symm, rfl⟩
  | cons part rest ih =>
    intro packing
    obtain ⟨heads, tails, result, least, dynamicBytes, length⟩ := ih (packing.encodeItem part.dynamic part.packed)
    rw [pack_cons, result, dynamicBytes]
    rcases part with ⟨_ | _, packed⟩
    · rw [encodeItem_static, headSizes_cons, tailSizes_cons]
      refine ⟨packed ++ heads, tails, List.append_assoc _ _ _, ?_, rfl, ?_⟩
      · rw [List.length_append]
        exact Nat.add_le_add_left least _
      · exact length.trans (Nat.zero_add _).symm
    · have word := offsetWord_least packing.nextOffset
      rw [encodeItem_dynamic, headSizes_cons, tailSizes_cons]
      refine ⟨offsetWord packing.nextOffset ++ heads, packed ++ tails, List.append_assoc _ _ _, ?_, List.append_assoc _ _ _, ?_⟩
      · rw [List.length_append]
        exact Nat.add_le_add word least
      · rw [List.length_append, length]
        rfl

/-- The first offset is right if it is where the bytes behind all words begin. -/
def Ready (parts : List Part) (packing : Packing) : Prop :=
  parts.any Part.dynamic = true → packing.nextOffset = packing.result.length + headSizes parts + packing.dynamicBytes.length

theorem pack_length (parts : List Part) (packing : Packing) :
    packing.result.length + headSizes parts + (packing.dynamicBytes.length + tailSizes parts) ≤ (pack parts packing).all.length := by
  obtain ⟨heads, tails, result, least, dynamicBytes, length⟩ := pack_adds parts packing
  rw [Packing.all, result, dynamicBytes, List.length_append, List.length_append, List.length_append]
  omega

/-- What one item does to the offset: it stays the place where the next bytes go. -/
theorem Ready.step {part : Part} {rest : List Part} {packing : Packing} (ready : Ready (part :: rest) packing)
    (fits : (pack (part :: rest) packing).all.length < 2 ^ 64) :
    Ready rest (packing.encodeItem part.dynamic part.packed) ∧
      (packing.encodeItem part.dynamic part.packed).result.length = packing.result.length + part.headSize := by
  have least := pack_length (part :: rest) packing
  rw [headSizes_cons, tailSizes_cons] at least
  rcases part with ⟨_ | _, packed⟩
  · have size : (Part.mk false packed).headSize = packed.length := rfl
    rw [encodeItem_static]
    constructor
    · intro some
      have offset := ready (by rw [List.any_cons, some]; rfl)
      rw [headSizes_cons, size] at offset
      simp only [List.length_append]
      omega
    · exact List.length_append
  · have size : (Part.mk true packed).headSize = 32 := rfl
    have offset := ready rfl
    rw [headSizes_cons, size] at offset
    have word := @offsetWord_length packing.nextOffset (by omega)
    rw [encodeItem_dynamic]
    constructor
    · intro some
      simp only [List.length_append, word]
      omega
    · rw [List.length_append, word]
      rfl

theorem headSizes_exact {parts : List Part} : ∀ {packing : Packing}, Ready parts packing → (pack parts packing).all.length < 2 ^ 64 →
    (pack parts packing).result.length = packing.result.length + headSizes parts := by
  induction parts with
  | nil =>
    intro packing ready fits
    rfl
  | cons part rest ih =>
    intro packing ready fits
    obtain ⟨next, size⟩ := ready.step fits
    rw [pack_cons, ih next fits, size, headSizes_cons, Nat.add_assoc]

theorem pack_placed {parts : List Part} : ∀ {packing : Packing} {bytes : Bytes}, Ready parts packing →
    (pack parts packing).all.length < 2 ^ 64 → (∃ after, bytes = (pack parts packing).all ++ after) →
    AllPlaced bytes packing.result.length parts := by
  induction parts with
  | nil =>
    intro packing bytes ready fits here
    trivial
  | cons part rest ih =>
    intro packing bytes ready fits here
    obtain ⟨next, size⟩ := ready.step fits
    have later := ih next fits here
    rw [size] at later
    refine ⟨?_, later⟩
    obtain ⟨after, whole⟩ := here
    have exact := headSizes_exact next fits
    obtain ⟨heads, tails, result, _, dynamicBytes, _⟩ := pack_adds rest (packing.encodeItem part.dynamic part.packed)
    rw [pack_cons, Packing.all, dynamicBytes] at whole
    rcases part with ⟨_ | _, packed⟩
    · rw [result, encodeItem_static] at whole
      apply Holds.intro packing.result (heads ++ (packing.dynamicBytes ++ tails ++ after))
      rw [whole]
      simp only [List.append_assoc]
    · have offset := ready rfl
      have length := pack_length (⟨true, packed⟩ :: rest) packing
      rw [headSizes_cons, tailSizes_cons] at length
      rw [headSizes_cons] at offset
      refine ⟨packing.nextOffset, by omega, .intro packing.result (heads ++ (packing.dynamicBytes ++ packed ++ tails ++ after)) ?_, ?_⟩
      · rw [whole, result, encodeItem_dynamic]
        simp only [List.append_assoc]
      · rw [encodeItem_dynamic] at exact whole
        refine ⟨(pack rest ⟨packing.result ++ offsetWord packing.nextOffset, packing.nextOffset + packed.length,
          packing.dynamicBytes ++ packed⟩).result ++ packing.dynamicBytes, tails ++ after, ?_, ?_⟩
        · rw [whole]
          simp only [List.append_assoc]
        · have word := @offsetWord_length packing.nextOffset (by omega)
          have one : (Part.mk true packed).headSize = 32 := rfl
          rw [List.length_append, exact, List.length_append, word, offset, one, Nat.add_assoc, Nat.add_assoc, Nat.add_assoc, Nat.add_assoc]

end OrbiterSDK.Proofs.AbiLayout
