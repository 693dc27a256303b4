import OrbiterSDK.Lib.Action

/-! Readers that consume a sequence from its front and may give up. -/

namespace Lib

section Outcomes
variable {ε α β : Type}

/-- Both parts of a sequence that succeeds succeed. -/
theorem bind_ok {first : Except ε α} {next : α → Except ε β} {value : β} :
    (first >>= next) = .ok value ↔ ∃ early, first = .ok early ∧ next early = .ok value := by
  constructor
  · intro ok
    cases first with
    | error what => cases ok
    | ok early => exact ⟨early, rfl, ok⟩
  · rintro ⟨early, rfl, later⟩
    exact later

theorem ok_bind {value : α} {next : α → Except ε β} : ((.ok value : Except ε α) >>= next) = next value := rfl

theorem ok_ne_error {value : α} {what : ε} : (.ok value : Except ε α) ≠ .error what := by
  intro same
  cases same

variable {convert : α → Except ε β} {entries : List α} {converted : List β}

theorem toOption_some {outcome : Except ε α} {value : α} : outcome.toOption = some value ↔ outcome = .ok value := by
  cases outcome with
  | error _ => exact ⟨nofun, nofun⟩
  | ok _ => exact ⟨fun same => congrArg _ (Option.some.inj same), fun same => congrArg _ (Except.ok.inj same)⟩

theorem mapM_ok_cons {entry : α} : (entry :: entries).mapM convert = .ok converted ↔
    ∃ first, convert entry = .ok first ∧ ∃ rest, entries.mapM convert = .ok rest ∧ converted = first :: rest := by
  rw [List.mapM_cons]
  constructor
  · intro ok
    obtain ⟨first, here, ok⟩ := bind_ok.mp ok
    obtain ⟨rest, later, ok⟩ := bind_ok.mp ok
    exact ⟨first, here, rest, later, (Except.ok.inj ok).symm⟩
  · rintro ⟨first, here, rest, later, rfl⟩
    exact bind_ok.mpr ⟨first, here, bind_ok.mpr ⟨rest, later, rfl⟩⟩

/-- A list converts if all of its entries do. -/
theorem mapM_ok (every : ∀ entry ∈ entries, ∃ value, convert entry = .ok value) : ∃ converted, entries.mapM convert = .ok converted := by
  induction entries with
  | nil => exact ⟨[], rfl⟩
  | cons entry rest ih =>
    obtain ⟨first, here⟩ := every entry List.mem_cons_self
    obtain ⟨others, later⟩ := ih fun other member => every other (List.mem_cons_of_mem _ member)
    exact ⟨_, mapM_ok_cons.mpr ⟨first, here, others, later, rfl⟩⟩

theorem mapM_ok_map {value : α → β} (each : ∀ entry ∈ entries, convert entry = .ok (value entry)) :
    entries.mapM convert = .ok (entries.map value) := by
  induction entries with
  | nil => rfl
  | cons entry rest ih =>
    exact mapM_ok_cons.mpr ⟨_, each entry List.mem_cons_self, _, ih fun other member => each other (List.mem_cons_of_mem _ member), rfl⟩

theorem mapM_map_ok {values : List β} {encode : β → α} (each : ∀ value ∈ values, convert (encode value) = .ok value) :
    (values.map encode).mapM convert = .ok values := by
  induction values with
  | nil => rfl
  | cons value rest ih =>
    exact mapM_ok_cons.mpr ⟨_, each value List.mem_cons_self, _, ih fun other member => each other (List.mem_cons_of_mem _ member), rfl⟩

theorem mem_of_mapM {value : β} (ok : entries.mapM convert = .ok converted) (member : value ∈ converted) :
    ∃ entry ∈ entries, convert entry = .ok value := by
  induction entries generalizing converted with
  | nil =>
    cases ok
    cases member
  | cons entry rest ih =>
    obtain ⟨first, here, others, later, rfl⟩ := mapM_ok_cons.mp ok
    cases member with
    | head => exact ⟨entry, List.mem_cons_self, here⟩
    | tail _ member =>
      obtain ⟨other, listed, same⟩ := ih later member
      exact ⟨other, List.mem_cons_of_mem _ listed, same⟩

theorem mapM_mem {entry : α} (ok : entries.mapM convert = .ok converted) (member : entry ∈ entries) :
    ∃ value ∈ converted, convert entry = .ok value := by
  induction entries generalizing converted with
  | nil => cases member
  | cons head rest ih =>
    obtain ⟨first, here, others, later, rfl⟩ := mapM_ok_cons.mp ok
    cases member with
    | head => exact ⟨first, List.mem_cons_self, here⟩
    | tail _ member =>
      obtain ⟨value, listed, same⟩ := ih later member
      exact ⟨value, List.mem_cons_of_mem _ listed, same⟩

/-- A conversion that can be taken back gives the entries back. -/
theorem mapM_length (ok : entries.mapM convert = .ok converted) : converted.length = entries.length := by
  induction entries generalizing converted with
  | nil =>
    cases ok
    rfl
  | cons entry rest ih =>
    obtain ⟨first, _, others, later, rfl⟩ := mapM_ok_cons.mp ok
    rw [List.length_cons, List.length_cons, ih later]

theorem mapM_map {back : β → α} (ok : entries.mapM convert = .ok converted)
    (each : ∀ entry ∈ entries, ∀ value, convert entry = .ok value → back value = entry) : converted.map back = entries := by
  induction entries generalizing converted with
  | nil =>
    cases ok
    rfl
  | cons entry rest ih =>
    obtain ⟨first, here, others, later, rfl⟩ := mapM_ok_cons.mp ok
    rw [List.map_cons, each entry List.mem_cons_self first here,
      ih later fun other member => each other (List.mem_cons_of_mem _ member)]

end Outcomes

/-- Code that reads from a list of `β`. -/
abbrev Reader (β ε : Type) := Action (List β) ε

namespace Reader
variable {β ε α γ : Type}

/-- The next element, which stays. -/
def peek (ending : ε) : Reader β ε β := do
  match ← get with
  | [] => throw ending
  | first :: _ => pure first

/-- The next elements. -/
def take (ending : ε) (count : Nat) : Reader β ε (List β) := do
  let input ← get
  if count ≤ input.length then
    set (input.drop count)
    pure (input.take count)
  else throw ending

/-- A value that has been computed, or the reason why there is none. -/
def lift : Except ε α → Reader β ε α
  | .ok value => pure value
  | .error what => throw what

/-- A reader takes exactly an item, whatever comes after it. -/
def Reads (reader : Reader β ε α) (item : List β) (value : α) : Prop :=
  ∀ rest, reader.eval (item ++ rest) = (.ok value, rest)

@[simp] theorem eval_peek_cons (ending : ε) (first : β) (rest : List β) :
    (peek ending).eval (first :: rest) = (.ok first, first :: rest) := rfl

@[simp] theorem eval_peek_nil (ending : ε) : (peek ending : Reader β ε β).eval [] = (.error ending, []) := rfl

theorem eval_take (ending : ε) (count : Nat) (input : List β) : (take ending count).eval input =
    if count ≤ input.length then (.ok (input.take count), input.drop count) else (.error ending, input) := by
  unfold take
  rw [Action.eval_bind, Action.eval_get]
  simp only [Action.eval_ite]
  rfl

@[simp] theorem eval_lift_ok (value : α) (input : List β) : (lift (.ok value) : Reader β ε α).eval input = (.ok value, input) :=
  rfl

@[simp] theorem eval_lift_error (what : ε) (input : List β) :
    (lift (.error what) : Reader β ε α).eval input = (.error what, input) := rfl

theorem eval_lift_fst (outcome : Except ε α) (input : List β) : ((lift outcome : Reader β ε α).eval input).1 = outcome := by
  cases outcome with
  | ok value => rfl
  | error what => rfl

/-- A sequence of readers that succeeds is made of readers that succeed. -/
theorem eval_bind_ok {first : Reader β ε α} {next : α → Reader β ε γ} {input rest : List β} {value : γ} :
    (first >>= next).eval input = (.ok value, rest) ↔
      ∃ early middle, first.eval input = (.ok early, middle) ∧ (next early).eval middle = (.ok value, rest) := by
  rw [Action.eval_bind]
  rcases first.eval input with ⟨error | early, middle⟩
  · simp
  · constructor
    · exact fun later => ⟨early, middle, rfl, later⟩
    · rintro ⟨early, middle, ⟨⟩, later⟩
      exact later

theorem reads_pure (value : α) : Reads (pure value : Reader β ε α) [] value := fun _ => rfl

theorem Reads.bind {first : Reader β ε α} {next : α → Reader β ε γ} {item rest : List β} {early : α} {value : γ}
    (reads : Reads first item early) (later : Reads (next early) rest value) : Reads (first >>= next) (item ++ rest) value := by
  intro input
  rw [Action.eval_bind, List.append_assoc, reads]
  exact later input

theorem reads_take {ending : ε} {count : Nat} {item : List β} (size : item.length = count) :
    Reads (take ending count) item item := by
  intro rest
  rw [eval_take, if_pos (by simp [← size]), ← size, List.take_left, List.drop_left]

theorem reads_lift {outcome : Except ε α} {value : α} (computed : outcome = .ok value) :
    Reads (lift outcome : Reader β ε α) [] value := by
  intro rest
  rw [computed]
  rfl

/-- A reader that takes the whole item, before another that takes nothing. -/
theorem Reads.finish {first : Reader β ε α} {next : α → Reader β ε γ} {item : List β} {early : α} {value : γ}
    (reads : Reads first item early) (later : Reads (next early) [] value) : Reads (first >>= next) item value := by
  have both := reads.bind later
  rwa [List.append_nil] at both

/-- What a reader takes is determined by what it starts from. -/
theorem Reads.unique {reader : Reader β ε α} {item rest rest' : List β} {value value' : α} (reads : Reads reader item value)
    (seen : reader.eval (item ++ rest) = (.ok value', rest')) : value' = value ∧ rest' = rest := by
  rw [reads] at seen
  cases seen
  exact ⟨rfl, rfl⟩

theorem eval_take_ok {ending : ε} {count : Nat} {input taken rest : List β}
    (seen : (take ending count).eval input = (.ok taken, rest)) : input = taken ++ rest ∧ taken.length = count := by
  rw [eval_take] at seen
  split at seen
  case isTrue enough =>
    cases seen
    exact ⟨(List.take_append_drop _ _).symm, List.length_take_of_le enough⟩
  case isFalse => cases seen

theorem eval_lift_ok_iff {outcome : Except ε α} {input rest : List β} {value : α} :
    (lift outcome : Reader β ε α).eval input = (.ok value, rest) ↔ outcome = .ok value ∧ rest = input := by
  cases outcome with
  | ok other => simp [eq_comm]
  | error what => simp

end Reader
end Lib
