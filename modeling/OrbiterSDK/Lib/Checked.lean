import OrbiterSDK.Lib.Action

/-! Checked arithmetic: an operation that gives the exact result or refuses to give one.
Besides throwing, an operation may leave what the language defines. -/

namespace Lib

inductive Fault (ε : Type) where
  | exception (what : ε)
  | undefined
  deriving DecidableEq, Repr

namespace Fault
variable {ε α : Type}

/-- `if (condition) throw what;` -/
def refuse (condition : Prop) [Decidable condition] (what : ε) : Except (Fault ε) Unit :=
  if condition then .error (.exception what) else .ok ()

/-- The outcome is the exact result, in range, or an exception where there is no exact
result in range or the exception is allowed anyway. -/
def Exact (InRange : α → Prop) (allowed : Prop) (exact : Option α) : Except (Fault ε) α → Prop
  | .ok value => exact = some value ∧ InRange value
  | .error (.exception _) => allowed ∨ ∀ value, exact = some value → ¬ InRange value
  | .error .undefined => False

variable {InRange : α → Prop} {allowed : Prop} {exact : Option α}

@[simp] theorem exact_ok {value : α} :
    Exact InRange allowed exact (.ok value : Except (Fault ε) α) ↔ exact = some value ∧ InRange value := Iff.rfl

@[simp] theorem exact_exception {what : ε} :
    Exact InRange allowed exact (.error (.exception what)) ↔
      allowed ∨ ∀ value, exact = some value → ¬ InRange value := Iff.rfl

@[simp] theorem exact_undefined : ¬ Exact InRange allowed exact (.error .undefined : Except (Fault ε) α) := fun wrong => wrong

/-- A guard has to be right where it stops, and what follows it everywhere else. -/
theorem exact_refuse {condition : Prop} [Decidable condition] {what : ε} {next : Unit → Except (Fault ε) α} :
    Exact InRange allowed exact (refuse condition what >>= next) ↔
      (condition → allowed ∨ ∀ value, exact = some value → ¬ InRange value) ∧
      (¬ condition → Exact InRange allowed exact (next ())) := by
  by_cases stopped : condition
  · have outcome : refuse condition what >>= next = .error (.exception what) := by
      rw [refuse, if_pos stopped]
      rfl
    rw [outcome, exact_exception]
    exact ⟨fun right => ⟨fun _ => right, fun free => absurd stopped free⟩, fun right => right.1 stopped⟩
  · have outcome : refuse condition what >>= next = next () := by
      rw [refuse, if_neg stopped]
      rfl
    rw [outcome]
    exact ⟨fun right => ⟨fun stops => absurd stops stopped, fun _ => right⟩, fun right => right.2 stopped⟩

/-! How code ends: with which values, and when outside what is defined. Exceptions are what is left. -/

structure Ends (outcome : Except (Fault ε) α) (good : α → Prop) (crash : Prop) : Prop where
  ok_iff : ∀ value, outcome = .ok value ↔ good value
  undefined_iff : outcome = .error .undefined ↔ crash

section Ends
variable {β : Type} {outcome : Except (Fault ε) α} {good good' : α → Prop} {crash crash' : Prop}

theorem Ends.congr (ends : Ends outcome good crash) (values : ∀ value, good value ↔ good' value) (crashes : crash ↔ crash') :
    Ends outcome good' crash' :=
  ⟨fun value => (ends.ok_iff value).trans (values value), ends.undefined_iff.trans crashes⟩

theorem ends_ok (value : α) : Ends (.ok value : Except (Fault ε) α) (fun other => other = value) False := by
  constructor
  · intro other
    rw [Except.ok.injEq]
    exact eq_comm
  · exact iff_of_false (fun same => by cases same) id

theorem ends_exception (what : ε) : Ends (.error (.exception what) : Except (Fault ε) α) (fun _ => False) False := by
  constructor
  · exact fun _ => iff_of_false (fun same => by cases same) id
  · exact iff_of_false (fun same => by cases same) id

theorem ends_undefined : Ends (.error .undefined : Except (Fault ε) α) (fun _ => False) True :=
  ⟨fun _ => iff_of_false (fun same => by cases same) id, iff_of_true rfl trivial⟩

theorem Ends.bind {next : α → Except (Fault ε) β} {later : α → β → Prop} {fails : α → Prop} (early : Ends outcome good crash)
    (late : ∀ value, good value → Ends (next value) (later value) (fails value)) :
    Ends (outcome >>= next) (fun result => ∃ value, good value ∧ later value result) (crash ∨ ∃ value, good value ∧ fails value) := by
  rcases outcome with (what | _) | value
  · have never : ∀ value, ¬ good value := fun value holds => by cases (early.ok_iff value).mpr holds
    have sound : ¬ crash := fun holds => by cases early.undefined_iff.mpr holds
    apply (ends_exception what).congr
    · exact fun _ => iff_of_false id fun found => found.elim fun value both => never value both.1
    · exact iff_of_false id fun found => found.elim sound fun found => found.elim fun value both => never value both.1
  · have never : ∀ value, ¬ good value := fun value holds => by cases (early.ok_iff value).mpr holds
    apply ends_undefined.congr
    · exact fun _ => iff_of_false id fun found => found.elim fun value both => never value both.1
    · exact iff_of_true trivial (.inl (early.undefined_iff.mp rfl))
  · have same : ∀ other, good other ↔ value = other := by
      intro other
      rw [← early.ok_iff other, Except.ok.injEq]
    have sound : ¬ crash := fun holds => by cases early.undefined_iff.mpr holds
    apply (late value ((same value).mpr rfl)).congr
    · intro result
      simp only [same, exists_eq_left']
    · simp only [same, exists_eq_left', sound, false_or]

theorem Ends.map (ends : Ends outcome good crash) (f : α → β) : Ends (outcome.map f) (fun result => ∃ value, good value ∧ result = f value) crash := by
  have mapped := ends.bind fun value _ => ends_ok (f value)
  apply mapped.congr (fun _ => Iff.rfl)
  rw [or_iff_left_iff_imp]
  rintro ⟨_, _, impossible⟩
  exact impossible.elim

/-- What is always defined, one after the other. -/
theorem Ends.pair {second : Except (Fault ε) β} {late : β → Prop} (early : Ends outcome good False) (later : Ends second late False) :
    Ends (do pure (← outcome, ← second)) (fun both => good both.1 ∧ late both.2) False := by
  apply (early.bind fun first _ => later.bind fun last _ => ends_ok (first, last)).congr
  · rintro ⟨first, last⟩
    constructor
    · rintro ⟨_, holds, _, holds', same⟩
      cases same
      exact ⟨holds, holds'⟩
    · rintro ⟨holds, holds'⟩
      exact ⟨first, holds, last, holds', rfl⟩
  · simp only [and_false, or_false, exists_false]

/-- An exception may become another one. -/
theorem Ends.mapError {rename : Fault ε → Fault ε} (ends : Ends outcome good crash) (kept : rename .undefined = .undefined)
    (others : ∀ what, ∃ other, rename (.exception what) = .exception other) : Ends (outcome.mapError rename) good crash := by
  rcases outcome with (what | _) | value
  · obtain ⟨other, renamed⟩ := others what
    have mapped : (Except.error (.exception what) : Except (Fault ε) α).mapError rename = .error (.exception other) := congrArg Except.error renamed
    rw [mapped]
    apply (ends_exception other).congr
    · exact fun value => iff_of_false id fun holds => by cases (ends.ok_iff value).mpr holds
    · exact iff_of_false id fun holds => by cases ends.undefined_iff.mpr holds
  · have mapped : (Except.error .undefined : Except (Fault ε) α).mapError rename = .error .undefined := congrArg Except.error kept
    rw [mapped]
    exact ends
  · exact ends

theorem Ends.ite {condition : Prop} [Decidable condition] {first second : Except (Fault ε) α} {fails : Prop} {late : Prop}
    (positive : condition → Ends first good fails) (negative : ¬ condition → Ends second good' late) :
    Ends (if condition then first else second) (fun value => if condition then good value else good' value)
      (if condition then fails else late) := by
  by_cases holds : condition
  · simp only [holds, if_true]
    exact positive holds
  · simp only [holds, if_false]
    exact negative holds

/-- A refusal that does not hold lets everything through. -/
theorem Ends.guarded {condition : Prop} [Decidable condition] (ends : Ends outcome good crash) (what : ε) :
    Ends (if condition then .error (.exception what) else outcome) (fun value => ¬ condition ∧ good value) (¬ condition ∧ crash) := by
  apply (Ends.ite (fun _ => ends_exception what) fun _ => ends).congr
  · intro value
    by_cases holds : condition
    · simp only [holds, if_true, not_true, false_and]
    · simp only [holds, if_false, not_false_eq_true, true_and]
  · by_cases holds : condition
    · simp only [holds, if_true, not_true, false_and]
    · simp only [holds, if_false, not_false_eq_true, true_and]

/-- A refusal of what would be refused later. -/
theorem Ends.recheck {condition : Prop} [Decidable condition] (ends : Ends outcome good crash) (what : ε) (later : ∀ value, good value → ¬ condition)
    (sound : ¬ crash) : Ends (if condition then .error (.exception what) else outcome) good crash := by
  apply (ends.guarded what).congr
  · exact fun value => and_iff_right_of_imp (later value)
  · exact and_iff_right_of_imp fun holds => absurd holds sound

end Ends

/-- The same of code over a state. -/
structure EndsAt {σ : Type} (action : Action σ (Fault ε) α) (state : σ) (good : α → σ → Prop) (crash : Prop) : Prop where
  ok_iff : ∀ value after, action.eval state = (.ok value, after) ↔ good value after
  undefined_iff : (action.eval state).1 = .error .undefined ↔ crash

variable {σ β : Type} {action : Action σ (Fault ε) α} {state : σ} {good good' : α → σ → Prop} {crash crash' : Prop}

theorem EndsAt.congr (ends : EndsAt action state good crash) (values : ∀ value after, good value after ↔ good' value after)
    (crashes : crash ↔ crash') : EndsAt action state good' crash' :=
  ⟨fun value after => (ends.ok_iff value after).trans (values value after), ends.undefined_iff.trans crashes⟩

theorem EndsAt.of_eval {other : Action σ (Fault ε) α} (same : other.eval state = action.eval state) (ends : EndsAt action state good crash) :
    EndsAt other state good crash :=
  ⟨fun value after => same ▸ ends.ok_iff value after, same ▸ ends.undefined_iff⟩

/-- Code that leaves the state alone. -/
theorem endsAt_of_ends {outcome : Except (Fault ε) α} {kept : α → Prop} (ends : Ends outcome kept crash) (same : action.eval state = (outcome, state)) :
    EndsAt action state (fun value after => kept value ∧ after = state) crash := by
  constructor
  · intro value after
    rw [same, Prod.mk.injEq, ends.ok_iff value, eq_comm (a := state)]
  · rw [same]
    exact ends.undefined_iff

theorem endsAt_pure (value : α) (state : σ) : EndsAt (pure value : Action σ (Fault ε) α) state (fun other after => other = value ∧ after = state) False :=
  endsAt_of_ends (ends_ok value) rfl

theorem EndsAt.bind {next : α → Action σ (Fault ε) β} {later : α → σ → β → σ → Prop} {fails : α → σ → Prop} (early : EndsAt action state good crash)
    (late : ∀ value middle, good value middle → EndsAt (next value) middle (later value middle) (fails value middle)) :
    EndsAt (action >>= next) state (fun result after => ∃ value middle, good value middle ∧ later value middle result after)
      (crash ∨ ∃ value middle, good value middle ∧ fails value middle) := by
  rcases seen : action.eval state with ⟨fault | value, middle⟩
  · have stopped : (action >>= next).eval state = (.error fault, middle) := by
      rw [Action.eval_bind, seen]
    have never : ∀ value after, ¬ good value after := by
      intro value after holds
      have found := (early.ok_iff value after).mpr holds
      rw [seen] at found
      cases found
    constructor
    · intro result after
      rw [stopped]
      refine iff_of_false (fun same => by cases same) ?_
      rintro ⟨value, middle, holds, _⟩
      exact never value middle holds
    · have sound : ¬ ∃ value middle, good value middle ∧ fails value middle := by
        rintro ⟨value, middle, holds, _⟩
        exact never value middle holds
      rw [stopped, ← early.undefined_iff, seen, or_iff_left sound, Except.error.injEq, Except.error.injEq]
  · have goes : (action >>= next).eval state = (next value).eval middle := by
      rw [Action.eval_bind, seen]
    have same : ∀ other after, good other after ↔ value = other ∧ middle = after := by
      intro other after
      rw [← early.ok_iff other after, seen, Prod.mk.injEq, Except.ok.injEq]
    have sound : ¬ crash := by
      intro holds
      have found := early.undefined_iff.mpr holds
      rw [seen] at found
      cases found
    have rest := late value middle ((same value middle).mpr ⟨rfl, rfl⟩)
    constructor
    · intro result after
      rw [goes, rest.ok_iff]
      simp only [same, and_assoc, exists_eq_left', exists_and_left]
    · rw [goes, rest.undefined_iff]
      simp only [same, and_assoc, exists_eq_left', exists_and_left, sound, false_or]

/-- An exception may be caught for another one to be thrown. -/
theorem EndsAt.rename {rename : Fault ε → Fault ε} (ends : EndsAt action state good crash) (kept : rename .undefined = .undefined)
    (others : ∀ what, ∃ other, rename (.exception what) = .exception other) :
    EndsAt (tryCatch action fun fault => throw (rename fault)) state good crash := by
  rcases seen : action.eval state with ⟨fault | value, middle⟩
  · have thrown : (tryCatch action fun fault => throw (rename fault) : Action σ (Fault ε) α).eval state = (.error (rename fault), middle) := by
      rw [Action.eval_tryCatch, seen]
      rfl
    constructor
    · intro value after
      rw [thrown, ← ends.ok_iff, seen]
      exact iff_of_false (fun same => by cases same) (fun same => by cases same)
    · rw [thrown, ← ends.undefined_iff, seen]
      cases fault with
      | exception what =>
        obtain ⟨other, renamed⟩ := others what
        rw [renamed]
        exact iff_of_false (fun same => by cases same) (fun same => by cases same)
      | undefined => rw [kept]
  · have done : (tryCatch action fun fault => throw (rename fault) : Action σ (Fault ε) α).eval state = action.eval state := by
      rw [Action.eval_tryCatch, seen]
    exact ⟨fun value after => done ▸ ends.ok_iff value after, done ▸ ends.undefined_iff⟩

end Fault
end Lib
