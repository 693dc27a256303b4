import OrbiterSDK.Lib.Reader

/-! Inputs that end within an item. What stands at the front of an item tells how long it is, so whether an input is
long enough can be told without reading it. -/

namespace Lib

/-- How items of a kind are delimited, and which of them are let through. -/
structure Rule (β : Type) where
  /-- How many elements behind the first one are asked for, unless the front is refused. -/
  demand : β → List β → Option Nat
  passes : List β → Bool := fun _ => true

/-- Every item that is asked for is there. Nothing more is asked for behind one that is refused. -/
def Complete {β : Type} : List (Rule β) → List β → Prop
  | [], _ => True
  | _ :: _, [] => False
  | rule :: rules, first :: rest => ∀ count, rule.demand first rest = some count →
      count ≤ rest.length ∧ (rule.passes (first :: rest.take count) = true → Complete rules (rest.drop count))

section Completeness
variable {β : Type} {rule : Rule β} {rules : List (Rule β)} {first : β} {rest : List β} {count : Nat}

theorem complete_refused (refused : rule.demand first rest = none) : Complete (rule :: rules) (first :: rest) := by
  intro count asked
  rw [refused] at asked
  cases asked

theorem complete_asked (asked : rule.demand first rest = some count) : Complete (rule :: rules) (first :: rest) ↔
    count ≤ rest.length ∧ (rule.passes (first :: rest.take count) = true → Complete rules (rest.drop count)) := by
  constructor
  · exact fun complete => complete count asked
  · intro enough other same
    obtain rfl := Option.some.inj (asked.symm.trans same)
    exact enough

instance decidableComplete : (rules : List (Rule β)) → (input : List β) → Decidable (Complete rules input)
  | [], _ => isTrue trivial
  | _ :: _, [] => isFalse id
  | rule :: rules, first :: rest =>
    match asked : rule.demand first rest with
    | none => isTrue (complete_refused asked)
    | some count =>
      have := decidableComplete rules (rest.drop count)
      decidable_of_iff _ (complete_asked asked).symm

end Completeness

namespace Reader
variable {β ε α γ : Type}

/-- A reader of one item follows its rule. -/
structure Follows (ending : ε) (reader : Reader β ε α) (rule : Rule β) : Prop where
  ends : (reader.eval []).1 = .error ending
  refuses : ∀ first rest, rule.demand first rest = none → ∃ what, (reader.eval (first :: rest)).1 = .error what ∧ what ≠ ending
  stops : ∀ first rest count, rule.demand first rest = some count → rest.length < count →
    (reader.eval (first :: rest)).1 = .error ending
  rejects : ∀ first rest count, rule.demand first rest = some count → count ≤ rest.length →
    rule.passes (first :: rest.take count) = false → ∃ what, (reader.eval (first :: rest)).1 = .error what ∧ what ≠ ending
  takes : ∀ first rest count, rule.demand first rest = some count → count ≤ rest.length →
    rule.passes (first :: rest.take count) = true → ∃ value, reader.eval (first :: rest) = (.ok value, rest.drop count)

/-- A reader asks for what is not there exactly if the input is not complete. -/
def Confined (ending : ε) (reader : Reader β ε α) (rules : List (Rule β)) : Prop :=
  ∀ input, (reader.eval input).1 ≠ .error ending ↔ Complete rules input

variable {ending : ε} {first : Reader β ε α} {next : α → Reader β ε γ} {rule : Rule β} {rules : List (Rule β)}

theorem bind_error {what : ε} {input : List β} (failed : (first.eval input).1 = .error what) :
    ((first >>= next).eval input).1 = .error what := by
  rw [Action.eval_bind]
  rcases seen : first.eval input with ⟨other | value, rest⟩
  · rw [seen] at failed
    obtain rfl := Except.error.inj failed
    rfl
  · rw [seen] at failed
    cases failed

theorem Follows.bind (follows : Follows ending first rule) (later : ∀ value, Confined ending (next value) rules) :
    Confined ending (first >>= next) (rule :: rules) := by
  intro input
  cases input with
  | nil =>
    apply iff_of_false ?_ id
    exact fun inside => inside (bind_error follows.ends)
  | cons head rest =>
    cases asked : rule.demand head rest with
    | none =>
      obtain ⟨what, failed, other⟩ := follows.refuses head rest asked
      apply iff_of_true ?_ (complete_refused asked)
      rw [bind_error failed]
      exact fun same => other (Except.error.inj same)
    | some count =>
      rw [complete_asked asked]
      by_cases enough : count ≤ rest.length
      case neg =>
        apply iff_of_false ?_ fun complete => enough complete.1
        exact fun inside => inside (bind_error (follows.stops head rest count asked (Nat.lt_of_not_le enough)))
      case pos =>
        cases passes : rule.passes (head :: rest.take count) with
        | false =>
          obtain ⟨what, failed, other⟩ := follows.rejects head rest count asked enough passes
          apply iff_of_true ?_ ⟨enough, nofun⟩
          rw [bind_error failed]
          exact fun same => other (Except.error.inj same)
        | true =>
          obtain ⟨value, took⟩ := follows.takes head rest count asked enough passes
          rw [Action.eval_bind, took]
          apply (later value (rest.drop count)).trans
          exact ⟨fun complete => ⟨enough, fun _ => complete⟩, fun complete => complete.2 rfl⟩

theorem confined_pure (value : α) : Confined ending (pure value : Reader β ε α) [] :=
  fun _ => iff_of_true nofun trivial

/-- What is computed in the end asks for nothing. -/
theorem Confined.finish {compute : α → Except ε γ} (confined : Confined ending first rules) (other : ∀ value, compute value ≠ .error ending) :
    Confined ending (do
      let value ← first
      lift (compute value)) rules := by
  intro input
  rw [← confined input, Action.eval_bind]
  rcases first.eval input with ⟨what | value, rest⟩
  · exact ⟨fun differ same => differ (congrArg _ (Except.error.inj same)), fun differ same => differ (congrArg _ (Except.error.inj same))⟩
  · rw [eval_lift_fst]
    exact iff_of_true (other value) nofun

/-- A reader that looks at the first element. -/
theorem follows_peek {body : β → Reader β ε α}
    (refuses : ∀ first rest, rule.demand first rest = none → ∃ what, ((body first).eval (first :: rest)).1 = .error what ∧ what ≠ ending)
    (asks : ∀ first rest count, rule.demand first rest = some count →
      if count ≤ rest.length then
        if rule.passes (first :: rest.take count) = true then
          ∃ value, (body first).eval (first :: rest) = (.ok value, rest.drop count)
        else ∃ what, ((body first).eval (first :: rest)).1 = .error what ∧ what ≠ ending
      else ((body first).eval (first :: rest)).1 = .error ending) : Follows ending (peek ending >>= body) rule := by
  have shape (first : β) (rest : List β) : (peek ending >>= body).eval (first :: rest) = (body first).eval (first :: rest) := by
    rw [Action.eval_bind, eval_peek_cons]
  constructor
  case ends => rfl
  case refuses =>
    intro first rest refused
    rw [shape]
    exact refuses first rest refused
  case stops =>
    intro first rest count asked short
    have outcome := asks first rest count asked
    rw [if_neg (Nat.not_le_of_lt short)] at outcome
    rw [shape]
    exact outcome
  case rejects =>
    intro first rest count asked enough fails
    have outcome := asks first rest count asked
    rw [if_pos enough, if_neg (by rw [fails]; decide)] at outcome
    rw [shape]
    exact outcome
  case takes =>
    intro first rest count asked enough passes
    have outcome := asks first rest count asked
    rw [if_pos enough, if_pos passes] at outcome
    rw [shape]
    exact outcome

/-- The first element is taken, then a payload behind it. -/
theorem eval_take_payload {body : List β → Reader β ε α} (head : β) (rest : List β) (count : Nat) :
    (do
      let _ ← take ending 1
      let payload ← take ending count
      body payload : Reader β ε α).eval (head :: rest) =
    if count ≤ rest.length then (body (rest.take count)).eval (rest.drop count) else (.error ending, rest) := by
  have one : (take ending 1 : Reader β ε (List β)).eval (head :: rest) = (.ok [head], rest) := rfl
  rw [Action.eval_bind, one]
  change (take ending count >>= body).eval rest = _
  rw [Action.eval_bind, eval_take]
  by_cases enough : count ≤ rest.length
  · rw [if_pos enough, if_pos enough]
  · rw [if_neg enough, if_neg enough]

/-- The payload is converted. -/
theorem convert_payload {convert : List β → Except ε α} {head : β} {rest : List β} {count : Nat} {passes : Bool}
    (fits : passes = true → ∃ value, convert (rest.take count) = .ok value)
    (fails : passes = false → ∃ what, convert (rest.take count) = .error what ∧ what ≠ ending) :
    if count ≤ rest.length then
      if passes = true then
        ∃ value, (do
          let _ ← take ending 1
          let payload ← take ending count
          lift (convert payload) : Reader β ε α).eval (head :: rest) = (.ok value, rest.drop count)
      else ∃ what, ((do
          let _ ← take ending 1
          let payload ← take ending count
          lift (convert payload) : Reader β ε α).eval (head :: rest)).1 = .error what ∧ what ≠ ending
    else ((do
          let _ ← take ending 1
          let payload ← take ending count
          lift (convert payload) : Reader β ε α).eval (head :: rest)).1 = .error ending := by
  rw [eval_take_payload]
  by_cases enough : count ≤ rest.length
  · rw [if_pos enough, if_pos enough]
    cases passes with
    | true =>
      obtain ⟨value, converted⟩ := fits rfl
      exact ⟨value, by rw [converted]; rfl⟩
    | false =>
      obtain ⟨what, failed, other⟩ := fails rfl
      exact ⟨what, by rw [failed]; rfl, other⟩
  · rw [if_neg enough, if_neg enough]

end Reader
end Lib
