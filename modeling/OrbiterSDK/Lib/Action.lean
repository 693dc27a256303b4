import Mathlib.Tactic.Common

/-! Imperative code with exceptions. A throw abandons the rest of the code but
keeps every write made before it, so a handler starts from the state the failed
body left behind and not from the state in which the body started. -/

namespace Lib

/-- Code over a state `σ` that may throw an `ε`. -/
abbrev Action (σ ε : Type) := ExceptT ε (StateM σ)

namespace Action
variable {σ ε α β : Type}

/-- Run the code: its answer or its exception, and the state it leaves. -/
def eval (action : Action σ ε α) (state : σ) : Except ε α × σ := action.run.run state

@[simp] theorem eval_pure (value : α) (state : σ) :
    (pure value : Action σ ε α).eval state = (.ok value, state) := rfl

@[simp] theorem eval_throw (error : ε) (state : σ) :
    (throw error : Action σ ε α).eval state = (.error error, state) := rfl

@[simp] theorem eval_modify (update : σ → σ) (state : σ) :
    (modify update : Action σ ε PUnit).eval state = (.ok ⟨⟩, update state) := rfl

@[simp] theorem eval_get (state : σ) : (get : Action σ ε σ).eval state = (.ok state, state) := rfl

theorem eval_bind (first : Action σ ε α) (next : α → Action σ ε β) (state : σ) :
    (first >>= next).eval state =
      match first.eval state with
      | (.ok value, after) => (next value).eval after
      | (.error error, after) => (.error error, after) := by
  rcases seen : first.eval state with ⟨result, after⟩
  simp only [eval] at seen ⊢
  cases result <;> simp [ExceptT.run_bind, StateT.run_bind, seen] <;> rfl

@[simp] theorem eval_ite (condition : Prop) [Decidable condition] (first second : Action σ ε α) (state : σ) :
    (if condition then first else second).eval state =
      if condition then first.eval state else second.eval state := by
  split <;> rfl

theorem eval_tryCatch (body : Action σ ε α) (handler : ε → Action σ ε α) (state : σ) :
    (tryCatch body handler).eval state =
      match body.eval state with
      | (.ok value, after) => (.ok value, after)
      | (.error error, after) => (handler error).eval after := by
  rcases seen : body.eval state with ⟨result, after⟩
  simp only [eval] at seen ⊢
  cases result <;> simp [ExceptT.run_tryCatch, StateT.run_bind, seen] <;> rfl

/-! Guarantees: how the state that code leaves is related to the state it finds,
however it ends. -/

variable {step : σ → σ → Prop}

/-- Relations that hold of doing nothing, and of one thing after another. -/
structure Chains (step : σ → σ → Prop) : Prop where
  refl : ∀ state, step state state
  trans : ∀ {first second third}, step first second → step second third → step first third

def Follows (step : σ → σ → Prop) (action : Action σ ε α) : Prop := ∀ state, step state (action.eval state).2

namespace Chains
variable (chains : Chains step)
include chains

theorem pure (value : α) : Follows step (Pure.pure value : Action σ ε α) := chains.refl

theorem throw (error : ε) : Follows step (MonadExcept.throw error : Action σ ε α) := chains.refl

theorem get : Follows step (MonadState.get : Action σ ε σ) := chains.refl

theorem bind {first : Action σ ε α} {next : α → Action σ ε β} (early : Follows step first)
    (late : ∀ value, Follows step (next value)) : Follows step (first >>= next) := by
  intro state
  have before := early state
  rw [eval_bind]
  rcases seen : first.eval state with ⟨error | value, after⟩
  · rw [seen] at before
    exact before
  · rw [seen] at before
    exact chains.trans before (late value after)

theorem tryCatch {body : Action σ ε α} {handler : ε → Action σ ε α} (early : Follows step body)
    (late : ∀ error, Follows step (handler error)) : Follows step (MonadExcept.tryCatch body handler) := by
  intro state
  have before := early state
  rw [eval_tryCatch]
  rcases seen : body.eval state with ⟨error | value, after⟩
  · rw [seen] at before
    exact chains.trans before (late error after)
  · rw [seen] at before
    exact before

end Chains

theorem follows_ite {condition : Prop} [Decidable condition] {first second : Action σ ε α}
    (positive : condition → Follows step first) (negative : ¬ condition → Follows step second) :
    Follows step (if condition then first else second) := by
  split
  case isTrue holds => exact positive holds
  case isFalse fails => exact negative fails

/-! Frames: code that leaves a part of the state alone. -/

variable {τ : Type} {project : σ → τ}

def Keeps (project : σ → τ) : Action σ ε α → Prop := Follows fun before after => project after = project before

theorem chains_keeps : Chains fun before after : σ => project after = project before :=
  ⟨fun _ => rfl, fun early late => late.trans early⟩

theorem keeps_pure (value : α) : Keeps project (pure value : Action σ ε α) := chains_keeps.pure value

theorem keeps_bind {first : Action σ ε α} {next : α → Action σ ε β} (early : Keeps project first)
    (late : ∀ value, Keeps project (next value)) : Keeps project (first >>= next) := chains_keeps.bind early late

/-! Invariants: what holds before the code holds after it. -/

variable {inv : σ → Prop}

def Preserves (inv : σ → Prop) : Action σ ε α → Prop := Follows fun before after => inv before → inv after

theorem chains_preserves : Chains fun before after : σ => inv before → inv after :=
  ⟨fun _ => id, fun early late => late ∘ early⟩

theorem preserves_bind {first : Action σ ε α} {next : α → Action σ ε β} (early : Preserves inv first)
    (late : ∀ value, Preserves inv (next value)) : Preserves inv (first >>= next) := chains_preserves.bind early late

theorem preserves_ite {condition : Prop} [Decidable condition] {first second : Action σ ε α}
    (positive : condition → Preserves inv first) (negative : ¬ condition → Preserves inv second) :
    Preserves inv (if condition then first else second) := follows_ite positive negative

/-! Agreement: run from two related states, the code ends in the same way and its
states are related again. -/

variable {related : σ → σ → Prop}

def Agrees (related : σ → σ → Prop) (action : Action σ ε α) : Prop := ∀ left right, related left right →
  (action.eval left).1 = (action.eval right).1 ∧ related (action.eval left).2 (action.eval right).2

end Action
end Lib
