import Mathlib.Tactic.Common

/-! Parts of a sequence and the places at which they stand. -/

namespace Lib
variable {β : Type}

/-- A part stands in the whole at some place. -/
def Holds (whole : List β) (place : Nat) (part : List β) : Prop := ∃ before after, whole = before ++ (part ++ after) ∧ before.length = place

namespace Holds
variable {whole part front back : List β} {place : Nat}

theorem intro (before after : List β) (same : whole = before ++ (part ++ after)) : Holds whole before.length part :=
  ⟨before, after, same, rfl⟩

theorem bound (held : Holds whole place part) : place + part.length ≤ whole.length := by
  obtain ⟨before, after, rfl, rfl⟩ := held
  rw [List.length_append, List.length_append]
  omega

theorem take_drop (held : Holds whole place part) : (whole.drop place).take part.length = part := by
  obtain ⟨before, after, rfl, rfl⟩ := held
  rw [List.drop_left, List.take_left]

theorem left (held : Holds whole place (front ++ back)) : Holds whole place front := by
  obtain ⟨before, after, rfl, rfl⟩ := held
  exact ⟨before, back ++ after, by rw [List.append_assoc], rfl⟩

theorem right (held : Holds whole place (front ++ back)) : Holds whole (place + front.length) back := by
  obtain ⟨before, after, rfl, rfl⟩ := held
  refine ⟨before ++ front, after, ?_, List.length_append⟩
  rw [List.append_assoc, List.append_assoc]

/-- Behind a part, what comes after it can be taken for the whole. -/
theorem drop (held : Holds whole place part) : ∃ after, whole.drop place = part ++ after := by
  obtain ⟨before, after, rfl, rfl⟩ := held
  exact ⟨after, List.drop_left⟩

end Holds
end Lib
