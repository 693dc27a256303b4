import Mathlib.Data.Nat.Digits.Lemmas
import Mathlib.Tactic.Common

/-! Recursive length prefixes: strings, lists, and integers as strings. -/

namespace Lib.Rlp

/-- The least number of bytes, most significant first; none for zero. -/
def bigEndian (value : Nat) : List UInt8 := ((Nat.digits 256 value).reverse).map UInt8.ofNat

/-- The first byte tells short payloads, with their length in it, from long ones, with the length of their length. -/
def header (short long : Nat) (length : Nat) : List UInt8 :=
  if length ≤ 55 then [UInt8.ofNat (short + length)]
  else UInt8.ofNat (long + (bigEndian length).length) :: bigEndian length

/-- A byte below 0x80 stands for itself. -/
def string : List UInt8 → List UInt8
  | [byte] => if byte < 0x80 then [byte] else 0x81 :: [byte]
  | bytes => header 0x80 0xb7 bytes.length ++ bytes

def integer (value : Nat) : List UInt8 := string (bigEndian value)

/-- A list of encoded items. -/
def list (items : List (List UInt8)) : List UInt8 := header 0xc0 0xf7 items.flatten.length ++ items.flatten

theorem string_eq {bytes : List UInt8} (more : ∀ byte, bytes = [byte] → ¬ byte < 0x80) :
    string bytes = header 0x80 0xb7 bytes.length ++ bytes := by
  unfold string
  split
  case _ byte => rw [if_neg (more byte rfl)]; rfl
  case _ => rfl

theorem bigEndian_length_le_iff {value width : Nat} : (bigEndian value).length ≤ width ↔ value < 256 ^ width := by
  simp only [bigEndian, List.length_map, List.length_reverse]
  exact Nat.digits_length_le_iff (by omega) value

theorem bigEndian_length_mono {fewer more : Nat} (le : fewer ≤ more) : (bigEndian fewer).length ≤ (bigEndian more).length :=
  bigEndian_length_le_iff.mpr (le.trans_lt (bigEndian_length_le_iff.mp le_rfl))

theorem bigEndian_eq_append {value : Nat} (some : value ≠ 0) :
    bigEndian value = bigEndian (value / 256) ++ [UInt8.ofNat (value % 256)] := by
  simp [bigEndian, Nat.digits_def' (show 1 < 256 by omega) (Nat.pos_of_ne_zero some)]

theorem header_length_mono {short long fewer more : Nat} (le : fewer ≤ more) :
    (header short long fewer).length ≤ (header short long more).length := by
  unfold header
  split
  · split
    · rfl
    · simp
  · rw [if_neg (by omega)]
    simpa using bigEndian_length_mono le

/-- The length of a list tells how long its items are together. -/
theorem list_length_lt {fewer more : List (List UInt8)} (lt : fewer.flatten.length < more.flatten.length) :
    (list fewer).length < (list more).length := by
  have mono := @header_length_mono 0xc0 0xf7 _ _ lt.le
  unfold list
  rw [List.length_append, List.length_append]
  omega

/-- A list can be taken apart again. -/
theorem flatten_eq_of_list_eq {first second : List (List UInt8)} (same : list first = list second) :
    first.flatten = second.flatten := by
  have lengths := congrArg List.length same
  have size : first.flatten.length = second.flatten.length := by
    by_contra differ
    rcases Nat.lt_or_gt_of_ne differ with fewer | more
    · exact absurd lengths (Nat.ne_of_lt (list_length_lt fewer))
    · exact absurd lengths (Nat.ne_of_gt (list_length_lt more))
  unfold list at same
  rw [size] at same
  exact List.append_cancel_left same

end Lib.Rlp
