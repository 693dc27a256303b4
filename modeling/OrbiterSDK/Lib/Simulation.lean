import Mathlib.Tactic.Common

/-! Machines that answer operations, and when one of them answers as another one does. -/

namespace Lib
variable {σ τ ι ο : Type}

section Runs
variable (step : σ → ι → ο × σ)

def answers : σ → List ι → List ο
  | _, [] => []
  | state, operation :: rest => (step state operation).1 :: answers (step state operation).2 rest

def after : σ → List ι → σ
  | state, [] => state
  | state, operation :: rest => after (step state operation).2 rest

/-- Every step of a run is taken where it may be. -/
def Along (allowed : σ → ι → Prop) : σ → List ι → Prop
  | _, [] => True
  | state, operation :: rest => allowed state operation ∧ Along allowed (step state operation).2 rest

instance (allowed : σ → ι → Prop) [∀ state operation, Decidable (allowed state operation)] : (operations : List ι) → (state : σ) →
    Decidable (Along step allowed state operations)
  | [], _ => isTrue trivial
  | _ :: rest, _ =>
    have := instDecidableAlong allowed rest
    inferInstanceAs (Decidable (_ ∧ _))

end Runs

/-- The first machine answers every operation that it is allowed as the second one does, and both stay related. -/
def Simulates (step : σ → ι → ο × σ) (spec : τ → ι → ο × τ) (related : σ → τ → Prop) (allowed : σ → ι → Prop) : Prop :=
  ∀ state plain operation, related state plain → allowed state operation →
    (step state operation).1 = (spec plain operation).1 ∧ related (step state operation).2 (spec plain operation).2

theorem after_append {step : σ → ι → ο × σ} (first second : List ι) : ∀ state : σ,
    after step state (first ++ second) = after step (after step state first) second := by
  induction first with
  | nil => exact fun _ => rfl
  | cons operation rest ih => exact fun state => ih (step state operation).2

theorem along_append {step : σ → ι → ο × σ} {allowed : σ → ι → Prop} (first second : List ι) : ∀ {state : σ},
    Along step allowed state (first ++ second) → Along step allowed state first ∧ Along step allowed (after step state first) second := by
  induction first with
  | nil => exact fun rest => ⟨trivial, rest⟩
  | cons operation rest ih =>
    rintro state ⟨here, later⟩
    obtain ⟨early, late⟩ := ih later
    exact ⟨⟨here, early⟩, late⟩

variable {step : σ → ι → ο × σ} {spec : τ → ι → ο × τ} {related : σ → τ → Prop} {allowed : σ → ι → Prop}

/-- What holds of one step holds of a run. -/
theorem Simulates.run (simulates : Simulates step spec related allowed) (operations : List ι) : ∀ {state : σ} {plain : τ}, related state plain →
    Along step allowed state operations →
    answers step state operations = answers spec plain operations ∧ related (after step state operations) (after spec plain operations) := by
  induction operations with
  | nil =>
    intro state plain start _
    exact ⟨rfl, start⟩
  | cons operation rest ih =>
    rintro state plain start ⟨here, later⟩
    obtain ⟨same, next⟩ := simulates state plain operation start here
    obtain ⟨others, last⟩ := ih next later
    refine ⟨?_, last⟩
    rw [answers, same, others, answers]

/-- Two conditions that agree wherever an invariant holds allow the same runs, when the invariant is kept by the steps that
one of them allows. -/
theorem along_congr {invariant : σ → Prop} {wanted : σ → ι → Prop}
    (same : ∀ state operation, invariant state → (allowed state operation ↔ wanted state operation))
    (keeps : ∀ state operation, invariant state → wanted state operation → invariant (step state operation).2) (operations : List ι) :
    ∀ {state : σ}, invariant state → (Along step allowed state operations ↔ Along step wanted state operations) := by
  induction operations with
  | nil => exact fun _ => Iff.rfl
  | cons operation rest ih =>
    intro state start
    constructor
    · rintro ⟨here, later⟩
      have here := (same state operation start).mp here
      exact ⟨here, (ih (keeps state operation start here)).mp later⟩
    · rintro ⟨here, later⟩
      exact ⟨(same state operation start).mpr here, (ih (keeps state operation start here)).mpr later⟩

/-- What every answer of one step is like every answer of a run is like. -/
theorem answers_forall {property : ο → Prop} (each : ∀ state operation, property (step state operation).1) (operations : List ι) :
    ∀ {state : σ}, ∀ answer ∈ answers step state operations, property answer := by
  induction operations with
  | nil =>
    intro state answer member
    cases member
  | cons operation rest ih =>
    intro state answer member
    cases List.mem_cons.mp member with
    | inl first => exact first ▸ each state operation
    | inr later => exact ih answer later

end Lib
