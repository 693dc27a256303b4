import Mathlib.Tactic.Common

/-! Operations that leave no trace when they throw: how a sequence of checked steps
succeeds, and which states attempts at such operations lead to. -/

namespace Lib
variable {σ ρ ε α β : Type}

theorem bind_eq_ok {first : Except ε α} {next : α → Except ε β} {result : β} :
    first >>= next = .ok result ↔ ∃ value, first = .ok value ∧ next value = .ok result := by
  cases first with
  | error what =>
    constructor
    · intro impossible
      cases impossible
    · rintro ⟨value, impossible, _⟩
      cases impossible
  | ok value =>
    constructor
    · intro done
      exact ⟨value, rfl, done⟩
    · rintro ⟨other, same, done⟩
      cases same
      exact done

theorem pure_eq_ok {value result : α} : (pure value : Except ε α) = .ok result ↔ value = result :=
  ⟨Except.ok.inj, congrArg Except.ok⟩

/-- A last step after which the result is only put together. -/
theorem build_eq_ok {first : Except ε α} {build : α → β} {result : β} :
    (first >>= fun value => pure (build value)) = .ok result ↔ ∃ value, first = .ok value ∧ build value = result :=
  bind_eq_ok.trans (exists_congr fun _ => and_congr_right fun _ => pure_eq_ok)

/-- A guard that lets the rest run. -/
theorem guard_eq_ok {condition : Prop} [Decidable condition] {what : ε} {next : Except ε α} {result : α} :
    (if condition then .error what else next) = .ok result ↔ ¬ condition ∧ next = .ok result := by
  by_cases stopped : condition
  · rw [if_pos stopped]
    constructor
    · intro impossible
      cases impossible
    · rintro ⟨free, _⟩
      exact absurd stopped free
  · rw [if_neg stopped]
    constructor
    · intro done
      exact ⟨stopped, done⟩
    · rintro ⟨_, done⟩
      exact done

variable (call : σ → ρ → Except ε σ)

/-- The state after a call, which is reverted if it throws. -/
def attempt (state : σ) (request : ρ) : σ := (call state request).toOption.getD state

variable {call}

theorem attempt_ok {state after : σ} {request : ρ} (done : call state request = .ok after) :
    attempt call state request = after := by
  rw [attempt, done]
  rfl

theorem attempt_done {state : σ} {request : ρ} (done : (call state request).toOption.isSome) :
    call state request = .ok (attempt call state request) := by
  cases result : call state request with
  | error what =>
    rw [result] at done
    cases done
  | ok after => rw [attempt_ok result]

theorem attempt_error {state : σ} {request : ρ} {what : ε} (failed : call state request = .error what) :
    attempt call state request = state := by
  rw [attempt, failed]
  rfl

theorem attempt_keeps {kept : σ → Prop} {state : σ} {request : ρ} (before : kept state)
    (step : ∀ after, call state request = .ok after → kept after) : kept (attempt call state request) := by
  cases done : call state request with
  | error what =>
    rw [attempt_error done]
    exact before
  | ok after =>
    rw [attempt_ok done]
    exact step after done

variable (call)

/-- The states that attempts lead to, each of them allowed where it is made. -/
inductive Reached (start : σ → Prop) (allowed : σ → ρ → Prop) : σ → Prop where
  | start {state : σ} (first : start state) : Reached start allowed state
  | step {state : σ} (before : Reached start allowed state) (request : ρ) (fine : allowed state request) :
      Reached start allowed (attempt call state request)

variable {call}

/-- A run of attempts none of which is ruled out. -/
theorem Reached.foldl {start : σ → Prop} {allowed : σ → ρ → Prop} (free : ∀ state request, allowed state request)
    (requests : List ρ) {state : σ} (reached : Reached call start allowed state) :
    Reached call start allowed (requests.foldl (attempt call) state) := by
  induction requests generalizing state with
  | nil => exact reached
  | cons request rest ih => exact ih (reached.step request (free state request))

/-- What holds at the start and is kept by each successful call holds in every state reached. -/
theorem Reached.keeps {start kept : σ → Prop} {allowed : σ → ρ → Prop}
    (first : ∀ state, start state → kept state)
    (step : ∀ state request after, kept state → allowed state request → call state request = .ok after → kept after)
    {state : σ} (reached : Reached call start allowed state) : kept state := by
  induction reached with
  | start here => exact first _ here
  | step before request fine ih => exact attempt_keeps ih fun after done => step _ request after ih fine done

variable (call)

/-- What is said of each attempt of a run, where it is made. -/
def Throughout (each : σ → ρ → Prop) : σ → List ρ → Prop
  | _, [] => True
  | state, request :: rest => each state request ∧ Throughout each (attempt call state request) rest

variable {call}

/-- A run in which each attempt is allowed. -/
theorem Throughout.reached {start : σ → Prop} {allowed : σ → ρ → Prop} (requests : List ρ) {state : σ}
    (reached : Reached call start allowed state) (fine : Throughout call allowed state requests) :
    Reached call start allowed (requests.foldl (attempt call) state) := by
  induction requests generalizing state with
  | nil => exact reached
  | cons request rest ih => exact ih (reached.step request fine.1) fine.2

/-- Two things that come to the same in the states that runs go through. -/
theorem Throughout.congr {kept : σ → Prop} {each other : σ → ρ → Prop}
    (step : ∀ state request after, kept state → call state request = .ok after → kept after)
    (same : ∀ state request, kept state → (each state request ↔ other state request)) (requests : List ρ) {state : σ}
    (first : kept state) : Throughout call each state requests ↔ Throughout call other state requests := by
  induction requests generalizing state with
  | nil => exact Iff.rfl
  | cons request rest ih =>
    have next : kept (attempt call state request) := attempt_keeps first fun after done => step state request after first done
    exact and_congr (same state request first) (ih next)

end Lib
