import OrbiterSDK.Lib.Attempts

/-! Code over a state that is lost as a whole when the code throws, and what it keeps. -/

namespace Lib

abbrev Atomic (σ ε : Type) := StateT σ (Except ε)

namespace Atomic
variable {σ ε α β : Type}

/-- The code goes through, with this answer and this state. -/
def Yields (code : Atomic σ ε α) (before : σ) (value : α) (after : σ) : Prop := code.run before = .ok (value, after)

/-- A computation that only may throw. -/
def checked (result : Except ε α) : Atomic σ ε α := fun state => result.map fun value => (value, state)

/-- A condition without which the code throws. -/
def require (condition : Prop) [Decidable condition] (what : ε) : Atomic σ ε Unit :=
  checked (if condition then .ok () else .error what)

variable {code : Atomic σ ε α} {next : α → Atomic σ ε β} {before after : σ} {value : α} {answer : β}

/-- What a call makes of the state, when nobody asks for the answer. -/
theorem run_eq_ok : (code.run before).map Prod.snd = .ok after ↔ ∃ value, Yields code before value after := by
  unfold Yields
  cases code.run before with
  | error what =>
    constructor
    · intro done
      cases done
    · rintro ⟨_, done⟩
      cases done
  | ok result =>
    constructor
    · intro done
      cases done
      exact ⟨result.1, rfl⟩
    · rintro ⟨_, done⟩
      cases done
      rfl

theorem yields_bind : Yields (code >>= next) before answer after ↔
    ∃ value between, Yields code before value between ∧ Yields (next value) between answer after := by
  unfold Yields
  rw [StateT.run_bind, bind_eq_ok]
  constructor
  · rintro ⟨⟨value, between⟩, first, second⟩
    exact ⟨value, between, first, second⟩
  · rintro ⟨value, between, first, second⟩
    exact ⟨(value, between), first, second⟩

theorem pure_yields {given : α} (done : Yields (pure given : Atomic σ ε α) before value after) :
    given = value ∧ before = after := Prod.mk.inj (Except.ok.inj done)

theorem get_yields {seen : σ} (done : Yields (get : Atomic σ ε σ) before seen after) : seen = before ∧ after = before := by
  obtain ⟨same, kept⟩ := Prod.mk.inj (Except.ok.inj done)
  exact ⟨same.symm, kept.symm⟩

theorem modify_yields {update : σ → σ} {answer : PUnit} (done : Yields (modify update : Atomic σ ε PUnit) before answer after) :
    after = update before := (Prod.mk.inj (Except.ok.inj done)).2.symm

theorem checked_yields {result : Except ε α} (done : Yields (checked result : Atomic σ ε α) before value after) :
    result = .ok value ∧ after = before := by
  cases result with
  | error what => cases done
  | ok given =>
    obtain ⟨same, kept⟩ := Prod.mk.inj (Except.ok.inj done)
    exact ⟨congrArg Except.ok same, kept.symm⟩

theorem require_yields {condition : Prop} [Decidable condition] {what : ε} {answer : Unit}
    (done : Yields (require condition what : Atomic σ ε Unit) before answer after) : condition ∧ after = before := by
  obtain ⟨passed, kept⟩ := checked_yields done
  by_cases holds : condition
  · exact ⟨holds, kept⟩
  · rw [if_neg holds] at passed
    cases passed

/-- Code that has been run. -/
theorem run_yields (done : (code.run before).toOption.map Prod.fst = some value) :
    Yields code before value (((code.run before).toOption.map Prod.snd).getD before) := by
  unfold Yields
  cases ran : code.run before with
  | error what =>
    rw [ran] at done
    cases done
  | ok result =>
    rw [ran] at done
    cases done
    rfl

/-! How code goes on after each of these. -/

theorem yields_checked_bind {result : Except ε α} : Yields (checked result >>= next) before answer after ↔
    ∃ value, result = .ok value ∧ Yields (next value) before answer after := by
  rw [yields_bind]
  constructor
  · rintro ⟨value, between, first, rest⟩
    obtain ⟨done, kept⟩ := checked_yields first
    rw [kept] at rest
    exact ⟨value, done, rest⟩
  · rintro ⟨value, done, rest⟩
    rw [done]
    exact ⟨value, before, rfl, rest⟩

theorem yields_require_bind {condition : Prop} [Decidable condition] {what : ε} {next : Unit → Atomic σ ε β} :
    Yields (require condition what >>= next) before answer after ↔ condition ∧ Yields (next ()) before answer after := by
  unfold require
  rw [yields_checked_bind]
  by_cases holds : condition
  · rw [if_pos holds]
    exact ⟨fun ⟨_, _, rest⟩ => ⟨holds, rest⟩, fun ⟨_, rest⟩ => ⟨(), rfl, rest⟩⟩
  · rw [if_neg holds]
    constructor
    · rintro ⟨_, impossible, _⟩
      cases impossible
    · rintro ⟨here, _⟩
      exact absurd here holds

theorem yields_get_bind {next : σ → Atomic σ ε β} : Yields (get >>= next) before answer after ↔ Yields (next before) before answer after := by
  rw [yields_bind]
  constructor
  · rintro ⟨seen, between, first, rest⟩
    obtain ⟨same, kept⟩ := get_yields first
    rw [same, kept] at rest
    exact rest
  · intro rest
    exact ⟨before, before, rfl, rest⟩

theorem yields_modify_bind {update : σ → σ} {next : PUnit → Atomic σ ε β} :
    Yields (modify update >>= next) before answer after ↔ Yields (next ⟨⟩) (update before) answer after := by
  rw [yields_bind]
  constructor
  · rintro ⟨_, between, first, rest⟩
    rw [modify_yields first] at rest
    exact rest
  · intro rest
    exact ⟨⟨⟩, update before, rfl, rest⟩

/-- Code that only runs under a condition. -/
theorem yields_when_bind {condition : Prop} [Decidable condition] {code : Atomic σ ε Unit} {next : Unit → Atomic σ ε β} :
    Yields (if condition then code >>= next else next ()) before answer after ↔ ∃ between,
      (if condition then Yields code before () between else between = before) ∧ Yields (next ()) between answer after := by
  by_cases holds : condition
  · simp only [if_pos holds, yields_bind]
    exact ⟨fun ⟨_, between, first, rest⟩ => ⟨between, first, rest⟩, fun ⟨between, first, rest⟩ => ⟨(), between, first, rest⟩⟩
  · simp only [if_neg holds]
    constructor
    · intro rest
      exact ⟨before, rfl, rest⟩
    · rintro ⟨between, same, rest⟩
      rw [← same]
      exact rest

/-- What holds of a state still holds after the code. -/
def Keeps (kept : σ → Prop) (code : Atomic σ ε α) : Prop :=
  ∀ before value after, kept before → Yields code before value after → kept after

variable {kept : σ → Prop}

theorem Keeps.pure (value : α) : Keeps kept (pure value : Atomic σ ε α) := by
  intro before answer after holds done
  rw [← (pure_yields done).2]
  exact holds

theorem Keeps.checked (result : Except ε α) : Keeps kept (checked result : Atomic σ ε α) := by
  intro before answer after holds done
  rw [(checked_yields done).2]
  exact holds

theorem Keeps.require (condition : Prop) [Decidable condition] (what : ε) : Keeps kept (require condition what : Atomic σ ε Unit) :=
  .checked _

theorem Keeps.bind (first : Keeps kept code) (second : ∀ value, Keeps kept (next value)) : Keeps kept (code >>= next) := by
  intro before answer after holds done
  obtain ⟨value, between, early, late⟩ := yields_bind.mp done
  exact second value between answer after (first before value between holds early) late

theorem Keeps.after_checked {result : Except ε α} (rest : ∀ value, Keeps kept (next value)) : Keeps kept (Atomic.checked result >>= next) :=
  (Keeps.checked result).bind rest

theorem Keeps.after_require {condition : Prop} [Decidable condition] {what : ε} {next : Unit → Atomic σ ε β}
    (rest : Keeps kept (next ())) : Keeps kept (Atomic.require condition what >>= next) := (Keeps.require condition what).bind fun _ => rest

theorem Keeps.ite {condition : Prop} [Decidable condition] {other : Atomic σ ε α} (first : Keeps kept code) (second : Keeps kept other) :
    Keeps kept (if condition then code else other) := by
  split
  · exact first
  · exact second

end Atomic
end Lib
