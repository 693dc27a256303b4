import OrbiterSDK.Lib.Rlp
import Mathlib.Data.List.Forall2
import Mathlib.Data.Nat.Digits.Defs

/-! The encoding of the contract ABI: values of nested types as heads and tails, where the head of a dynamic value is
the offset of its tail in their common frame. -/

namespace Lib.SolidityAbi

/-! Words. -/

/-- A number in the order of its digits, with zeros in front of it up to 32 bytes. -/
def word (value : Nat) : List UInt8 := List.replicate (32 - (Rlp.bigEndian value).length) 0 ++ Rlp.bigEndian value

/-- Zeros behind bytes up to a multiple of 32 bytes. -/
def padded (data : List UInt8) : List UInt8 := data ++ List.replicate ((32 - data.length % 32) % 32) 0

/-- What a word stands for. -/
def number (bytes : List UInt8) : Nat := Nat.ofDigits 256 (bytes.reverse.map UInt8.toNat)

theorem word_least (value : Nat) : 32 ≤ (word value).length := by
  rw [word, List.length_append, List.length_replicate]
  omega

theorem word_length {value : Nat} (small : value < 2 ^ 256) : (word value).length = 32 := by
  have power : (2 : Nat) ^ 256 = 256 ^ 32 := by norm_num
  have few : (Rlp.bigEndian value).length ≤ 32 := Rlp.bigEndian_length_le_iff.mpr (power ▸ small)
  rw [word, List.length_append, List.length_replicate]
  omega

theorem number_word (value : Nat) : number (word value) = value := by
  have digits : ((Nat.digits 256 value).map UInt8.ofNat).map UInt8.toNat = Nat.digits 256 value := by
    rw [List.map_map]
    refine Eq.trans (List.map_congr_left fun digit member => ?_) (List.map_id _)
    exact Nat.mod_eq_of_lt (Nat.digits_lt_base (by decide : 1 < 256) member)
  have zeros (count : Nat) : Nat.ofDigits 256 (List.replicate count 0) = 0 := by
    induction count with
    | zero => rfl
    | succ count ih => rw [List.replicate_succ, Nat.ofDigits_cons, ih]
  rw [number, word, Rlp.bigEndian, List.reverse_append, List.map_append, List.reverse_replicate, List.map_replicate, ← List.map_reverse,
    List.reverse_reverse, digits, Nat.ofDigits_append, Nat.ofDigits_digits]
  exact (congrArg (value + 256 ^ _ * ·) (zeros _)).trans (by rw [Nat.mul_zero, Nat.add_zero])

theorem word_inj {first second : Nat} (same : word first = word second) : first = second := by
  rw [← number_word first, same, number_word]

/-! Frames. -/

/-- A value that stands in a frame. -/
structure Part where
  dynamic : Bool
  bytes : List UInt8

def headSize (part : Part) : Nat := if part.dynamic then 32 else part.bytes.length

def headSizes (parts : List Part) : Nat := (parts.map headSize).sum

def tail (part : Part) : List UInt8 := if part.dynamic then part.bytes else []

def tails (parts : List Part) : List UInt8 := parts.flatMap tail

/-- The head of a dynamic value is the size of all heads and of the tails before its own. -/
def head (parts : List Part) (i : Nat) (part : Part) : List UInt8 :=
  if part.dynamic then word (headSizes parts + (tails (parts.take i)).length) else part.bytes

def frame (parts : List Part) : List UInt8 := (parts.mapIdx (head parts)).flatten ++ tails parts

/-- Heads as they are computed one after another. -/
def heads : Nat → List Part → List UInt8
  | _, [] => []
  | offset, part :: rest =>
    if part.dynamic then word offset ++ heads (offset + part.bytes.length) rest else part.bytes ++ heads offset rest

/-! Values. -/

/-- Numbers are those of unsigned types; truth values and addresses are such numbers as well. -/
inductive Value where
  | number (value : Nat)
  | fixedBytes (data : List UInt8)
  | bytes (data : List UInt8)
  | array (elements : List Value)
  | tuple (members : List Value)

mutual

def dynamic : Value → Bool
  | .number _ => false
  | .fixedBytes _ => false
  | .bytes _ => true
  | .array _ => true
  | .tuple members => anyDynamic members

def anyDynamic : List Value → Bool
  | [] => false
  | value :: rest => dynamic value || anyDynamic rest

end

mutual

def enc : Value → List UInt8
  | .number value => word value
  | .fixedBytes data => padded data
  | .bytes data => word data.length ++ padded data
  | .array elements => word elements.length ++ frame (parts elements)
  | .tuple members => frame (parts members)

def parts : List Value → List Part
  | [] => []
  | value :: rest => ⟨dynamic value, enc value⟩ :: parts rest

end

/-! Facts about frames. -/

variable {part : Part} {rest : List Part} {offset : Nat}

@[simp] theorem headSizes_cons : headSizes (part :: rest) = headSize part + headSizes rest := List.sum_cons

@[simp] theorem tails_cons : tails (part :: rest) = tail part ++ tails rest := List.flatMap_cons

theorem heads_dynamic (dynamic : part.dynamic = true) :
    heads offset (part :: rest) = word offset ++ heads (offset + part.bytes.length) rest := if_pos dynamic

theorem heads_static (static : part.dynamic = false) : heads offset (part :: rest) = part.bytes ++ heads offset rest :=
  if_neg (by rw [static]; decide)

theorem tail_dynamic (dynamic : part.dynamic = true) : tail part = part.bytes := if_pos dynamic

theorem tail_static (static : part.dynamic = false) : tail part = [] := if_neg (by rw [static]; decide)

theorem headSize_dynamic (dynamic : part.dynamic = true) : headSize part = 32 := if_pos dynamic

theorem headSize_static (static : part.dynamic = false) : headSize part = part.bytes.length := if_neg (by rw [static]; decide)

/-- Each offset is that of the one before it and the length of what stands there. -/
theorem flatten_heads (all : List Part) (rest : List Part) : ∀ before, all = before ++ rest →
    (rest.mapIdx fun i part => head all (before.length + i) part).flatten = heads (headSizes all + (tails before).length) rest := by
  induction rest with
  | nil => exact fun before whole => rfl
  | cons part rest ih =>
    intro before whole
    have later := ih (before ++ [part]) (by rw [whole, List.append_assoc]; rfl)
    have taken : all.take before.length = before := by rw [whole, List.take_left]
    have next : (tails (before ++ [part])).length = (tails before).length + (tail part).length := by
      rw [tails, List.flatMap_append, List.length_append, List.flatMap_singleton]
      rfl
    rw [next, List.length_append, List.length_singleton] at later
    have others : (rest.mapIdx fun i part => head all (before.length + (i + 1)) part) =
        rest.mapIdx fun i part => head all (before.length + 1 + i) part := by
      apply congrArg (List.mapIdx · rest)
      funext i
      rw [Nat.add_assoc, Nat.add_comm 1]
    rw [List.mapIdx_cons, List.flatten_cons, others, later, head, Nat.add_zero, taken]
    cases dynamic : part.dynamic with
    | true => rw [heads_dynamic dynamic, tail_dynamic dynamic, if_pos rfl, Nat.add_assoc]
    | false => rw [heads_static dynamic, tail_static dynamic, if_neg (by decide), List.length_nil, Nat.add_zero]

theorem frame_eq (parts : List Part) : frame parts = heads (headSizes parts) parts ++ tails parts := by
  have all := flatten_heads parts parts [] rfl
  rw [frame, show heads (headSizes parts) parts = _ from all.symm]
  refine congrArg (fun bytes => List.flatten bytes ++ tails parts) (congrArg (List.mapIdx · parts) ?_)
  funext i
  rw [List.length_nil, Nat.zero_add]

theorem headSizes_le_heads (parts : List Part) : ∀ offset, headSizes parts ≤ (heads offset parts).length := by
  induction parts with
  | nil => exact fun _ => Nat.le_refl 0
  | cons part rest ih =>
    intro offset
    rw [headSizes_cons]
    cases dynamic : part.dynamic with
    | true =>
      rw [heads_dynamic dynamic, headSize_dynamic dynamic, List.length_append]
      exact Nat.add_le_add (word_least offset) (ih _)
    | false =>
      rw [heads_static dynamic, headSize_static dynamic, List.length_append]
      exact Nat.add_le_add_left (ih _) _

theorem tails_allStatic {parts : List Part} (static : ∀ part ∈ parts, part.dynamic = false) : tails parts = [] := by
  induction parts with
  | nil => rfl
  | cons part rest ih =>
    obtain ⟨one, others⟩ := List.forall_mem_cons.mp static
    rw [tails_cons, tail_static one, ih others]
    rfl

/-- Without a dynamic part no offset is written. -/
theorem heads_allStatic {parts : List Part} (static : ∀ part ∈ parts, part.dynamic = false) :
    heads offset parts = (parts.map Part.bytes).flatten := by
  induction parts with
  | nil => rfl
  | cons part rest ih =>
    obtain ⟨one, others⟩ := List.forall_mem_cons.mp static
    rw [heads_static one, ih others, List.map_cons, List.flatten_cons]

theorem heads_allStatic_length {parts : List Part} (static : ∀ part ∈ parts, part.dynamic = false) :
    (heads offset parts).length = headSizes parts := by
  induction parts with
  | nil => rfl
  | cons part rest ih =>
    obtain ⟨one, others⟩ := List.forall_mem_cons.mp static
    rw [heads_static one, List.length_append, ih others, headSizes_cons, headSize_static one]

theorem length_le_frame {parts : List Part} (member : part ∈ parts) :
    ∀ offset, part.bytes.length ≤ (heads offset parts ++ tails parts).length := by
  induction parts with
  | nil => cases member
  | cons first rest ih =>
    intro offset
    rw [tails_cons, List.length_append, List.length_append]
    cases dynamic : first.dynamic with
    | true =>
      rw [heads_dynamic dynamic, tail_dynamic dynamic, List.length_append]
      cases member with
      | head => omega
      | tail _ member =>
        have later := ih member (offset + first.bytes.length)
        rw [List.length_append] at later
        omega
    | false =>
      rw [heads_static dynamic, tail_static dynamic, List.length_append]
      cases member with
      | head => omega
      | tail _ member =>
        have later := ih member offset
        rw [List.length_append] at later
        omega

/-- Parts of the same type: an offset stands for both, or they are of one size. -/
def Alike (first second : Part) : Prop :=
  first.dynamic = second.dynamic ∧ (first.dynamic = false → first.bytes.length = second.bytes.length)

variable {first second : List Part} {before after : Nat}

theorem headSizes_alike (alike : List.Forall₂ Alike first second) : headSizes first = headSizes second := by
  induction alike with
  | nil => rfl
  | @cons one other first second same _ ih =>
    rw [headSizes_cons, headSizes_cons, ih]
    apply congrArg (· + headSizes second)
    cases dynamic : one.dynamic with
    | true => rw [headSize_dynamic dynamic, headSize_dynamic (same.1.symm.trans dynamic)]
    | false => rw [headSize_static dynamic, headSize_static (same.1.symm.trans dynamic), same.2 dynamic]

theorem static_alike (alike : List.Forall₂ Alike first second) (static : ∀ part ∈ first, part.dynamic = false) :
    ∀ part ∈ second, part.dynamic = false := by
  induction alike with
  | nil => exact static
  | cons same _ ih =>
    obtain ⟨one, others⟩ := List.forall_mem_cons.mp static
    exact List.forall_mem_cons.mpr ⟨same.1.symm.trans one, ih others⟩

/-- The first offset is at the same place in both frames. -/
theorem first_offset (alike : List.Forall₂ Alike first second) : ∀ {before after : Nat} {behind behind' : List UInt8},
    before < 2 ^ 256 → after < 2 ^ 256 → heads before first ++ behind = heads after second ++ behind' →
    (∃ part ∈ first, part.dynamic = true) → before = after := by
  induction alike with
  | nil => exact fun _ _ _ some => by obtain ⟨_, none, _⟩ := some; cases none
  | @cons one other first second same _ ih =>
    intro before after behind behind' small smallToo equal some
    cases dynamic : one.dynamic with
    | true =>
      rw [heads_dynamic dynamic, heads_dynamic (same.1.symm.trans dynamic), List.append_assoc, List.append_assoc] at equal
      exact word_inj (List.append_inj_left equal ((word_length small).trans (word_length smallToo).symm))
    | false =>
      rw [heads_static dynamic, heads_static (same.1.symm.trans dynamic), List.append_assoc, List.append_assoc] at equal
      apply ih small smallToo (List.append_inj_right equal (same.2 dynamic))
      obtain ⟨part, member, isDynamic⟩ := some
      cases member with
      | head => exact absurd (dynamic.symm.trans isDynamic) (by decide)
      | tail _ member => exact ⟨part, member, isDynamic⟩

/-- Frames whose bytes agree hold the same parts. -/
theorem parts_of_frames (alike : List.Forall₂ Alike first second) : ∀ {before after : Nat} {behind behind' : List UInt8},
    before + (tails first).length < 2 ^ 256 → after + (tails second).length < 2 ^ 256 → behind.length = behind'.length →
    heads before first ++ (behind ++ tails first) = heads after second ++ (behind' ++ tails second) → first = second ∧ behind = behind' := by
  induction alike with
  | nil =>
    intro before after behind behind' _ _ _ equal
    exact ⟨rfl, List.append_cancel_right equal⟩
  | @cons one other first second same alike ih =>
    intro before after behind behind' small smallToo sizes equal
    rw [tails_cons, List.length_append] at small smallToo
    cases dynamic : one.dynamic with
    | false =>
      have static := same.1.symm.trans dynamic
      rw [tail_static dynamic] at small
      rw [tail_static static] at smallToo
      rw [heads_static dynamic, heads_static static, tails_cons, tails_cons, tail_static dynamic, tail_static static, List.append_assoc,
        List.append_assoc] at equal
      obtain ⟨bytes, later⟩ := List.append_inj equal (same.2 dynamic)
      obtain ⟨rfl, rfl⟩ := ih (by simpa using small) (by simpa using smallToo) sizes later
      obtain ⟨isDynamic, one⟩ := one
      obtain ⟨isDynamic', other⟩ := other
      obtain rfl : isDynamic = isDynamic' := same.1
      obtain rfl : one = other := bytes
      exact ⟨rfl, rfl⟩
    | true =>
      have dynamic' := same.1.symm.trans dynamic
      rw [tail_dynamic dynamic] at small
      rw [tail_dynamic dynamic'] at smallToo
      rw [heads_dynamic dynamic, heads_dynamic dynamic', tails_cons, tails_cons, tail_dynamic dynamic, tail_dynamic dynamic',
        List.append_assoc, List.append_assoc, ← List.append_assoc behind, ← List.append_assoc behind'] at equal
      obtain ⟨offset, later⟩ := List.append_inj equal ((word_length (by omega)).trans (word_length (by omega)).symm)
      obtain rfl := word_inj offset
      -- the next offset tells how long this part is, or there is none and this part is the last tail
      have lengths : one.bytes.length = other.bytes.length := by
        by_cases some : ∃ part ∈ first, part.dynamic = true
        · have next := first_offset alike (by omega) (by omega) later some
          omega
        · have static : ∀ part ∈ first, part.dynamic = false := fun part member =>
            Bool.eq_false_iff.mpr fun isDynamic => some ⟨part, member, isDynamic⟩
          have static' := static_alike alike static
          have heads := headSizes_alike alike
          have total := congrArg List.length later
          simp only [tails_allStatic static, tails_allStatic static', List.length_append, List.length_nil,
            heads_allStatic_length static, heads_allStatic_length static'] at total
          omega
      obtain ⟨rfl, behinds⟩ := ih (by omega) (by omega) (by rw [List.length_append, List.length_append, sizes, lengths]) later
      obtain ⟨rfl, bytes⟩ := List.append_inj behinds sizes
      obtain ⟨isDynamic, one⟩ := one
      obtain ⟨isDynamic', other⟩ := other
      obtain rfl : isDynamic = isDynamic' := same.1
      obtain rfl : one = other := bytes
      exact ⟨rfl, rfl⟩

/-- Heads and tails are the frame of some parts exactly if they are made of these parts, and the first offset, if there is
one, is the size of all heads. -/
theorem frame_iff (alike : List.Forall₂ Alike first second) (small : offset + (heads offset first ++ tails first).length < 2 ^ 256) :
    heads offset first ++ tails first = frame second ↔
      first = second ∧ ((∃ part ∈ first, part.dynamic = true) → offset = headSizes second) := by
  have least := headSizes_le_heads second (headSizes second)
  rw [frame_eq]
  constructor
  · intro equal
    have total := congrArg List.length equal
    rw [List.length_append] at small
    rw [List.length_append, List.length_append] at total
    have bound : offset + (tails first).length < 2 ^ 256 := by omega
    have bound' : headSizes second + (tails second).length < 2 ^ 256 := by omega
    have nothing : ([] : List UInt8).length = ([] : List UInt8).length := rfl
    have same := parts_of_frames alike bound bound' nothing equal
    exact ⟨same.1, first_offset alike (by omega) (by omega) equal⟩
  · rintro ⟨same, place⟩
    rw [same]
    apply congrArg (· ++ tails second)
    by_cases some : ∃ part ∈ first, part.dynamic = true
    · rw [place some]
    · have static : ∀ part ∈ second, part.dynamic = false := fun part member =>
        Bool.eq_false_iff.mpr fun isDynamic => some ⟨part, same ▸ member, isDynamic⟩
      rw [heads_allStatic static, heads_allStatic static]

/-! Facts about values. -/

theorem static_parts {values : List Value} (static : anyDynamic values = false) : ∀ part ∈ parts values, part.dynamic = false := by
  induction values with
  | nil => exact fun _ member => by cases member
  | cons value rest ih =>
    rw [anyDynamic, Bool.or_eq_false_iff] at static
    exact List.forall_mem_cons.mpr ⟨static.1, ih static.2⟩

theorem parts_map {α : Type} (f : α → Value) (values : List α) :
    parts (values.map f) = values.map fun value => ⟨dynamic (f value), enc (f value)⟩ := by
  induction values with
  | nil => rfl
  | cons value rest ih => rw [List.map_cons, parts, ih, List.map_cons]

end Lib.SolidityAbi
