import OrbiterSDK.SafeUnorderedMap
import OrbiterSDK.Lib.Simulation

/-! Safe maps and pairs of ordinary maps. They agree as long as no erased key comes back, as
insertions and erasures get keys that are loaded or unknown, and as nobody asks a map that is
loaded in part whether it is empty. -/

namespace OrbiterSDK
open Lib

/-- Two ordinary maps: what is committed, and what is worked on. -/
structure MapPair (κ ν : Type) [Inhabited ν] where
  committed : Table κ ν
  working : Table κ ν

namespace MapPair
variable {κ ν : Type} [DecidableEq κ] [Inhabited ν]

def write (pair : MapPair κ ν) (key : κ) (update : ν → ν) : MapPair κ ν := { pair with working := pair.working.modify key update }

def find (pair : MapPair κ ν) (key : κ) (use : ν → ν) : MapAnswer ν × MapPair κ ν :=
  match pair.working.find key with
  | none => (.ok (.entry none), pair)
  | some value => (.ok (.entry (some value)), pair.write key use)

def «at» (pair : MapPair κ ν) (key : κ) (use : ν → ν) : MapAnswer ν × MapPair κ ν :=
  match pair.working.find key with
  | none => (.error "Key not found", pair)
  | some value => (.ok (.entry (some value)), pair.write key use)

def insert (pair : MapPair κ ν) (key : κ) (value : ν) : MapAnswer ν × MapPair κ ν :=
  match pair.working.find key with
  | some present => (.ok (.placed present false), pair)
  | none => (.ok (.placed value true), pair.write key fun _ => value)

def erase (pair : MapPair κ ν) (key : κ) : MapAnswer ν × MapPair κ ν :=
  (.ok (.size (if pair.working.contains key then 1 else 0)), { pair with working := pair.working.erase key })

def step (pair : MapPair κ ν) : MapCall κ ν → MapAnswer ν × MapPair κ ν
  | .find key use => pair.find key use
  | .contains key => (.ok (.flag (pair.working.contains key)), pair)
  | .count key => (.ok (.size (if pair.working.contains key then 1 else 0)), pair)
  | .«at» key use => pair.«at» key use
  | .subscript key use => (.ok (.entry (some (pair.working.value key))), pair.write key use)
  | .insert key value => pair.insert key value
  | .insertRange entries => (.ok .done, entries.foldl (fun pair entry => (pair.insert entry.1 entry.2).2) pair)
  | .insertOrAssign key value => (.ok (.placed value (!pair.working.contains key)), pair.write key fun _ => value)
  | .emplace key value => pair.insert key value
  | .erase key => pair.erase key
  | .eraseMoved key _ => pair.erase key
  | .empty => (.ok (.flag (decide (pair.working.keys = ∅))), pair)
  | .commit => (.ok .done, { pair with committed := pair.working })
  | .revert => (.ok .done, { pair with working := pair.committed })

end MapPair

namespace SafeUnorderedMap
variable {κ ν : Type} [DecidableEq κ] [Inhabited ν]

/-- What can be found under a key. -/
def visible (var : SafeUnorderedMap κ ν) (key : κ) : Option ν :=
  match var.written.find key with
  | some value => some value
  | none => if key ∈ var.erased then none else var.map.find key

/-- A key that the overlay has, or that nothing has ever been known of. -/
def Known (var : SafeUnorderedMap κ ν) (key : κ) : Prop :=
  key ∈ var.written.keys ∨ (key ∉ var.map.keys ∧ key ∉ var.erased)

/-- A key that the overlay has, or that is not to be found. -/
def Loaded (var : SafeUnorderedMap κ ν) (key : κ) : Prop :=
  key ∈ var.written.keys ∨ key ∉ var.map.keys ∨ key ∈ var.erased

/-- When a call is answered as by an ordinary map, before and after the next commit. -/
def Allowed (var : SafeUnorderedMap κ ν) : MapCall κ ν → Prop
  | .find _ _ | .contains _ | .count _ | .«at» _ _ | .commit | .revert => True
  | .subscript key _ => key ∉ var.erased
  | .insert key _ | .insertOrAssign key _ | .emplace key _ => var.Known key
  | .insertRange entries => ∀ entry ∈ entries, var.Known entry.1
  | .erase key => var.Loaded key
  | .eraseMoved key left => var.Loaded key ∧ (key ∈ var.erased ∨ left = key)
  | .empty => (var.written.keys = ∅ → var.map.keys ⊆ var.erased) ∧ (var.written.keys ≠ ∅ → var.map.keys ≠ ∅)

instance (var : SafeUnorderedMap κ ν) (key : κ) : Decidable (var.Known key) := inferInstanceAs (Decidable (_ ∨ _))

instance (var : SafeUnorderedMap κ ν) (key : κ) : Decidable (var.Loaded key) := inferInstanceAs (Decidable (_ ∨ _))

instance (var : SafeUnorderedMap κ ν) : (call : MapCall κ ν) → Decidable (var.Allowed call)
  | .find _ _ | .contains _ | .count _ | .«at» _ _ | .commit | .revert => isTrue trivial
  | .subscript key _ => inferInstanceAs (Decidable (key ∉ var.erased))
  | .insert key _ | .insertOrAssign key _ | .emplace key _ => inferInstanceAs (Decidable (var.Known key))
  | .insertRange entries => inferInstanceAs (Decidable (∀ entry ∈ entries, var.Known entry.1))
  | .erase key => inferInstanceAs (Decidable (var.Loaded key))
  | .eraseMoved key left => inferInstanceAs (Decidable (var.Loaded key ∧ (key ∈ var.erased ∨ left = key)))
  | .empty => inferInstanceAs (Decidable (_ ∧ _))

end SafeUnorderedMap
end OrbiterSDK

namespace OrbiterSDK.Proofs.MapRefinement
open Lib SafeUnorderedMap

variable {κ ν : Type} [DecidableEq κ] [Inhabited ν] {var : SafeUnorderedMap κ ν} {pair : MapPair κ ν}

/-- No erased key is in the overlay. -/
def Apart (var : SafeUnorderedMap κ ν) : Prop := ∀ key ∈ var.erased, key ∉ var.written.keys

/-- A safe map stands for two maps. -/
structure Shows (var : SafeUnorderedMap κ ν) (pair : MapPair κ ν) : Prop where
  committed : var.map = pair.committed
  working : ∀ key, var.visible key = pair.working.find key
  apart : Apart var

theorem check_shows (shown : Shows var pair) : Shows var.check pair := ⟨shown.committed, shown.working, shown.apart⟩

theorem markAsUsed_shows (shown : Shows var pair) : Shows var.markAsUsed pair := ⟨shown.committed, shown.working, shown.apart⟩

theorem visible_written {key : κ} {value : ν} (found : var.written.find key = some value) : var.visible key = some value := by
  unfold visible
  rw [found]

theorem visible_unwritten {key : κ} (outside : key ∉ var.written.keys) :
    var.visible key = if key ∈ var.erased then none else var.map.find key := by
  have none : var.written.find key = none := if_neg outside
  unfold visible
  rw [none]

theorem write_visible (key other : κ) (update : ν → ν) :
    (var.write key update).visible other = if other = key then some (update (var.written.value key)) else var.visible other := by
  have found : (var.write key update).written.find other =
      if other = key then some (update (var.written.value key)) else var.written.find other := Table.find_modify _ _ _ _
  unfold visible
  rw [found]
  by_cases same : other = key
  · rw [if_pos same, if_pos same]
  · rw [if_neg same, if_neg same]
    rfl

/-- A write to a key that is not erased is a write to the map that is worked on. -/
theorem write_shows {key : κ} {update change : ν → ν} (shown : Shows var pair) (kept : key ∉ var.erased)
    (same : update (var.written.value key) = change (pair.working.value key)) :
    Shows (var.write key update) { pair with working := pair.working.modify key change } where
  committed := shown.committed
  working other := by
    rw [write_visible, Table.find_modify, shown.working, same]
  apart other erased inside := by
    cases Finset.mem_insert.mp inside with
    | inl here => exact kept (here ▸ erased)
    | inr there => exact shown.apart other erased there

/-- Loading a key adds nothing that could not be found before. -/
theorem load_shows {key : κ} {value : ν} (shown : Shows var pair) (kept : key ∉ var.erased) (here : var.visible key = some value) :
    Shows (var.write key fun _ => value) pair where
  committed := shown.committed
  working other := by
    rw [write_visible]
    by_cases same : other = key
    · rw [if_pos same, same, ← here, shown.working]
    · rw [if_neg same, shown.working]
  apart other erased inside := by
    cases Finset.mem_insert.mp inside with
    | inl same => exact kept (same ▸ erased)
    | inr there => exact shown.apart other erased there

theorem contains_iff {table : Table κ ν} {key : κ} : table.contains key = true ↔ key ∈ table.keys := decide_eq_true_iff

/-- Where a key is: in the overlay, nowhere, erased since the last commit, or in the map behind. -/
theorem found_cases (var : SafeUnorderedMap κ ν) (key : κ) :
    (var.check.written.contains key = true ∧ ∃ value, var.visible key = some value) ∨
    (¬ var.check.written.contains key = true ∧ var.visible key = none ∧
      (var.check.map.find key = none ∨ ∃ value, var.check.map.find key = some value ∧ key ∈ var.check.erased)) ∨
    ∃ value, ¬ var.check.written.contains key = true ∧ var.visible key = some value ∧ var.check.map.find key = some value ∧
      key ∉ var.check.erased := by
  by_cases inside : key ∈ var.written.keys
  · exact .inl ⟨contains_iff.mpr inside, _, visible_written (if_pos inside)⟩
  · have outside : ¬ var.check.written.contains key = true := fun found => inside (contains_iff.mp found)
    have seen := visible_unwritten inside
    refine .inr ?_
    cases found : var.map.find key with
    | none =>
      rw [found, ite_self] at seen
      exact .inl ⟨outside, seen, .inl found⟩
    | some value =>
      by_cases erased : key ∈ var.erased
      · rw [if_pos erased] at seen
        exact .inl ⟨outside, seen, .inr ⟨value, found, erased⟩⟩
      · rw [if_neg erased, found] at seen
        exact .inr ⟨value, outside, seen, found, erased⟩

/-- Loading a key: it has been loaded, it is not to be found, or its value is copied. -/
theorem checkKeyAndCopy_cases (var : SafeUnorderedMap κ ν) (key : κ) :
    (key ∈ var.written.keys ∧ var.checkKeyAndCopy key = var.check) ∨
    (key ∉ var.written.keys ∧ var.visible key = none ∧ var.checkKeyAndCopy key = var.check) ∨
    ∃ value, key ∉ var.written.keys ∧ key ∉ var.erased ∧ var.visible key = some value ∧
      var.checkKeyAndCopy key = var.check.write key fun _ => value := by
  unfold checkKeyAndCopy
  rcases found_cases var key with ⟨inside, _⟩ | ⟨outside, seen, none | ⟨value, found, erased⟩⟩ | ⟨value, outside, seen, found, kept⟩
  · exact .inl ⟨contains_iff.mp inside, if_pos inside⟩
  · simp only [if_neg outside, none]
    exact .inr (.inl ⟨mt contains_iff.mpr outside, seen, trivial⟩)
  · simp only [if_neg outside, found, if_pos erased]
    exact .inr (.inl ⟨mt contains_iff.mpr outside, seen, trivial⟩)
  · simp only [if_neg outside, found, if_neg kept]
    exact .inr (.inr ⟨value, mt contains_iff.mpr outside, kept, seen, rfl⟩)

theorem checkKeyAndCopy_shows (key : κ) (shown : Shows var pair) : Shows (var.checkKeyAndCopy key) pair := by
  rcases checkKeyAndCopy_cases var key with ⟨_, same⟩ | ⟨_, _, same⟩ | ⟨value, _, kept, here, same⟩
  · rw [same]
    exact check_shows shown
  · rw [same]
    exact check_shows shown
  · rw [same]
    exact load_shows (check_shows shown) kept here

/-- After that, the overlay has what can be found under the key. -/
theorem checkKeyAndCopy_visible (var : SafeUnorderedMap κ ν) (key : κ) : (var.checkKeyAndCopy key).written.find key = var.visible key := by
  rcases checkKeyAndCopy_cases var key with ⟨inside, same⟩ | ⟨outside, none, same⟩ | ⟨value, _, _, here, same⟩
  · rw [same]
    have found : var.written.find key = some (var.written.value key) := if_pos inside
    rw [visible_written found]
    exact found
  · rw [same, none]
    exact if_neg outside
  · have found := Table.find_modify var.check.written key key fun _ => value
    rw [if_pos rfl] at found
    rw [same, here]
    exact found

theorem checkKeyAndCopy_find (key : κ) (shown : Shows var pair) : (var.checkKeyAndCopy key).written.find key = pair.working.find key :=
  (checkKeyAndCopy_visible var key).trans (shown.working key)

theorem checkKeyAndThrow_eq (var : SafeUnorderedMap κ ν) (key : κ) : var.checkKeyAndThrow key =
    match var.visible key with
    | none => (.error "Key not found", var.check)
    | some _ => (.ok (), var.checkKeyAndCopy key) := by
  unfold checkKeyAndThrow checkKeyAndCopy
  rcases found_cases var key with ⟨inside, value, seen⟩ | ⟨outside, seen, none | ⟨value, found, erased⟩⟩ | ⟨value, outside, seen, found, kept⟩
  · simp only [seen, if_pos inside]
  · simp only [seen, if_neg outside, none]
  · simp only [seen, if_neg outside, found, if_pos erased]
  · simp only [seen, if_neg outside, found, if_neg kept]

theorem checkKeyAndCreate_eq (var : SafeUnorderedMap κ ν) (key : κ) : var.checkKeyAndCreate key =
    match var.visible key with
    | none => var.check.write key fun _ => default
    | some _ => var.checkKeyAndCopy key := by
  unfold checkKeyAndCreate checkKeyAndCopy
  rcases found_cases var key with ⟨inside, value, seen⟩ | ⟨outside, seen, none | ⟨value, found, erased⟩⟩ | ⟨value, outside, seen, found, kept⟩
  · simp only [seen, if_pos inside]
  · simp only [seen, if_neg outside, none]
  · simp only [seen, if_neg outside, found, if_pos erased]
  · simp only [seen, if_neg outside, found, if_neg kept]

/-- A call gets the same answer, and what the map stands for afterwards is the same. -/
def Agrees (outcome : MapAnswer ν × SafeUnorderedMap κ ν) (plain : MapAnswer ν × MapPair κ ν) : Prop :=
  outcome.1 = plain.1 ∧ Shows outcome.2 plain.2

/-- A reference to a loaded key is one to the same value. -/
theorem reference_agrees {key : κ} {value : ν} (use : ν → ν) (shown : Shows var pair) (here : var.written.find key = some value)
    (found : pair.working.find key = some value) : Agrees (var.reference key use) (.ok (.entry (some value)), pair.write key use) := by
  obtain ⟨inside, same⟩ := Table.find_eq_some here
  constructor
  · exact congrArg (fun value => Except.ok (MapReply.entry (some value))) same
  · apply write_shows shown
    · exact fun erased => shown.apart key erased inside
    · rw [same, (Table.find_eq_some found).2]

theorem at_agrees (key : κ) (use : ν → ν) (shown : Shows var pair) : Agrees (var.«at» key use) (pair.«at» key use) := by
  unfold SafeUnorderedMap.«at» MapPair.«at»
  rw [checkKeyAndThrow_eq, shown.working]
  cases found : pair.working.find key with
  | none => exact ⟨rfl, check_shows shown⟩
  | some value =>
    have loaded := (checkKeyAndCopy_find key shown).trans found
    exact reference_agrees use (markAsUsed_shows (checkKeyAndCopy_shows key shown)) loaded found

theorem find_agrees (key : κ) (use : ν → ν) (shown : Shows var pair) : Agrees (var.find key use) (pair.find key use) := by
  have loaded := checkKeyAndCopy_find key shown
  have marked : (var.checkKeyAndCopy key).markAsUsed.written.find key = (var.checkKeyAndCopy key).written.find key := rfl
  have ready := markAsUsed_shows (checkKeyAndCopy_shows key shown)
  unfold SafeUnorderedMap.find MapPair.find
  simp only [marked, loaded]
  cases found : pair.working.find key with
  | none => exact ⟨rfl, ready⟩
  | some value => exact ⟨rfl, (reference_agrees use ready (loaded.trans found) found).2⟩

private theorem value_absent {table : Table κ ν} {key : κ} (absent : table.find key = none) : table.value key = default := by
  apply table.absent
  intro inside
  cases (if_pos inside : table.find key = some _).symm.trans absent

/-- An entry that the subscript creates is a default one, whatever was erased under its key before. -/
theorem subscript_agrees {key : κ} (use : ν → ν) (kept : key ∉ var.erased) (shown : Shows var pair) :
    Agrees (var.subscript key use) (.ok (.entry (some (pair.working.value key))), pair.write key use) := by
  unfold SafeUnorderedMap.subscript
  rw [checkKeyAndCreate_eq, shown.working]
  cases found : pair.working.find key with
  | none =>
    have absent := value_absent found
    have created : (var.check.write key fun _ => default).written.value key = default :=
      Table.modify_value_self var.check.written key fun _ => default
    constructor
    · rw [absent]
      exact congrArg (fun value => Except.ok (MapReply.entry (some value))) created
    · have first : Shows (var.check.write key fun _ => default) (pair.write key fun _ => default) := write_shows (check_shows shown) kept rfl
      have second : Shows ((var.check.write key fun _ => default).markAsUsed.write key use) ((pair.write key fun _ => default).write key use) := by
        apply write_shows (markAsUsed_shows first) kept
        exact congrArg use (created.trans (Table.modify_value_self pair.working key fun _ => default).symm)
      have once (other : κ) : ((pair.write key fun _ => default).write key use).working.find other = (pair.write key use).working.find other := by
        rw [MapPair.write, MapPair.write, MapPair.write, Table.find_modify, Table.find_modify, Table.find_modify,
          Table.modify_value_self, absent]
        by_cases same : other = key
        · rw [if_pos same, if_pos same]
        · rw [if_neg same, if_neg same, if_neg same]
      exact ⟨second.committed, fun other => (second.working other).trans (once other), second.apart⟩
  | some value =>
    have loaded := (checkKeyAndCopy_find key shown).trans found
    rw [(Table.find_eq_some found).2]
    exact reference_agrees use (markAsUsed_shows (checkKeyAndCopy_shows key shown)) loaded found

theorem insert_agrees {key : κ} (value : ν) (known : var.Known key) (shown : Shows var pair) :
    Agrees (var.place key value) (pair.insert key value) := by
  unfold SafeUnorderedMap.place MapPair.insert
  rw [← shown.working]
  cases found : var.written.find key with
  | some present =>
    rw [visible_written found]
    exact ⟨rfl, shown⟩
  | none =>
    have outside : key ∉ var.written.keys := by
      intro inside
      cases (if_pos inside : var.written.find key = some _).symm.trans found
    obtain ⟨unknown, kept⟩ := known.resolve_left outside
    have absent : var.map.find key = none := if_neg unknown
    rw [visible_unwritten outside, if_neg kept, absent]
    exact ⟨rfl, write_shows shown kept rfl⟩

theorem Known.place {key other : κ} (value : ν) (known : var.Known other) : (var.place key value).2.Known other := by
  unfold SafeUnorderedMap.place
  cases var.written.find key with
  | some present => exact known
  | none =>
    cases known with
    | inl inside => exact .inl (Finset.mem_insert_of_mem inside)
    | inr unknown => exact .inr unknown

theorem insertRange_shows (entries : List (κ × ν)) : ∀ {var : SafeUnorderedMap κ ν} {pair : MapPair κ ν},
    (∀ entry ∈ entries, var.Known entry.1) → Shows var pair →
    Shows (entries.foldl (fun var entry => (var.place entry.1 entry.2).2) var)
      (entries.foldl (fun pair entry => (pair.insert entry.1 entry.2).2) pair) := by
  induction entries with
  | nil =>
    intro var pair _ shown
    exact shown
  | cons entry rest ih =>
    intro var pair known shown
    have next := (insert_agrees entry.2 (known entry List.mem_cons_self) shown).2
    exact ih (fun other member => Known.place entry.2 (known other (List.mem_cons_of_mem _ member))) next

theorem contains_eq {table other : Table κ ν} {key : κ} (same : table.find key = other.find key) : table.contains key = other.contains key := by
  rw [Bool.eq_iff_iff, contains_iff, contains_iff, ← Table.find_isSome, ← Table.find_isSome, same]

/-- The overlay has what can be found under a key that it has, or that is not to be found. -/
theorem loaded_find {key : κ} (loaded : var.Loaded key) (shown : Shows var pair) : var.written.find key = pair.working.find key := by
  rw [← shown.working]
  by_cases inside : key ∈ var.written.keys
  · have found : var.written.find key = some (var.written.value key) := if_pos inside
    rw [visible_written found, found]
  · have none : var.written.find key = none := if_neg inside
    rw [visible_unwritten inside, none]
    cases loaded.resolve_left inside with
    | inl unknown =>
      have absent : var.map.find key = Option.none := if_neg unknown
      rw [absent, ite_self]
    | inr erased => rw [if_pos erased]

theorem erase_agrees {key : κ} (loaded : var.Loaded key) (shown : Shows var pair) :
    .ok (.size (var.erase key).1) = (pair.erase key).1 ∧ Shows (var.erase key).2 (pair.erase key).2 := by
  have found : var.written.contains key = pair.working.contains key := contains_eq (loaded_find loaded shown)
  constructor
  · exact congrArg (fun found : Bool => Except.ok (MapReply.size (if found then 1 else 0))) found
  · constructor
    · exact shown.committed
    · intro other
      have left : (var.erase key).2.written.find other = if other = key then none else var.written.find other := Table.find_erase _ _ _
      have right : (pair.erase key).2.working.find other = if other = key then none else pair.working.find other := Table.find_erase _ _ _
      have erased : other ∈ (var.erase key).2.erased ↔ other = key ∨ other ∈ var.erased := Finset.mem_insert
      rw [right, ← shown.working]
      unfold visible
      rw [left]
      by_cases same : other = key
      · rw [if_pos same, if_pos same, if_pos (erased.mpr (.inl same))]
      · have kept : other ∈ (var.erase key).2.erased ↔ other ∈ var.erased := erased.trans (or_iff_right same)
        simp only [if_neg same, kept]
        rfl
    · intro other erased inside
      obtain ⟨apart, there⟩ := Finset.mem_erase.mp inside
      cases Finset.mem_insert.mp erased with
      | inl same => exact apart same
      | inr before => exact shown.apart other before there

/-- What is committed: erased keys go last, whatever the overlay has. -/
theorem committed_find (var : SafeUnorderedMap κ ν) (key : κ) : var.commit.map.find key =
    if key ∈ var.erased then none else if key ∈ var.written.keys then some (var.written.value key) else var.map.find key := by
  have erased := Table.find_eraseKeys
    ((var.map.assign (var.written.keys \ var.map.keys) fun key _ => var.written.value key).assign (var.written.keys ∩ var.map.keys)
      fun key _ => var.written.value key) var.erased key
  rw [Table.find_assign, Table.find_assign] at erased
  apply erased.trans
  by_cases inside : key ∈ var.written.keys <;> by_cases known : key ∈ var.map.keys <;> simp [inside, known]

/-- That is what could be found, as no erased key is in the overlay. -/
theorem commit_find (shown : Shows var pair) (key : κ) : var.commit.map.find key = pair.working.find key := by
  rw [← shown.working, committed_find]
  by_cases inside : key ∈ var.written.keys
  · have found : var.written.find key = some (var.written.value key) := if_pos inside
    have kept : key ∉ var.erased := fun erased => shown.apart key erased inside
    rw [visible_written found, if_neg kept, if_pos inside]
  · rw [visible_unwritten inside, if_neg inside]

theorem visible_level (level : var.mapPtr = none) (gone : ∀ key ∈ var.erased, var.map.find key = none) (key : κ) :
    var.visible key = var.map.find key := by
  have outside : key ∉ var.written.keys := by
    rw [SafeUnorderedMap.written, level]
    exact Finset.notMem_empty key
  rw [visible_unwritten outside]
  by_cases erased : key ∈ var.erased
  · rw [if_pos erased, gone key erased]
  · rw [if_neg erased]

theorem commit_shows (shown : Shows var pair) : Shows var.commit { pair with committed := pair.working } where
  committed := Table.eq_of_find (commit_find shown)
  working key := by
    have gone : ∀ key ∈ var.commit.erased, var.commit.map.find key = none := by
      intro key erased
      exact (Table.find_eraseKeys _ _ key).trans (if_pos erased)
    exact (visible_level rfl gone key).trans (commit_find shown key)
  apart key _ := Finset.notMem_empty key

theorem revert_shows (shown : Shows var pair) : Shows var.revert { pair with working := pair.committed } where
  committed := shown.committed
  working key := by
    have gone : ∀ key ∈ var.revert.erased, var.revert.map.find key = none := fun key erased => absurd erased (Finset.notMem_empty key)
    rw [visible_level rfl gone, ← shown.committed]
    rfl
  apart key _ := Finset.notMem_empty key

theorem empty_agrees (loaded : (var.written.keys = ∅ → var.map.keys ⊆ var.erased) ∧ (var.written.keys ≠ ∅ → var.map.keys ≠ ∅))
    (shown : Shows var pair) : var.empty.1 = decide (pair.working.keys = ∅) := by
  have view (key : κ) : key ∈ pair.working.keys ↔ (var.visible key).isSome := by rw [← Table.find_isSome, shown.working]
  have answer : var.empty.1 = decide (var.map.keys = ∅ ∨ var.written.keys = ∅) := rfl
  rw [answer, decide_eq_decide]
  by_cases none : var.written.keys = ∅
  · refine iff_of_true (.inr none) (Finset.eq_empty_of_forall_notMem fun key inside => ?_)
    have outside : key ∉ var.written.keys := none ▸ Finset.notMem_empty key
    rw [view, visible_unwritten outside] at inside
    by_cases erased : key ∈ var.erased
    · rw [if_pos erased] at inside
      cases inside
    · rw [if_neg erased, Table.find_isSome] at inside
      exact erased (loaded.1 none inside)
  · obtain ⟨key, inside⟩ := Finset.nonempty_iff_ne_empty.mpr none
    have found : var.written.find key = some (var.written.value key) := if_pos inside
    apply iff_of_false
    · exact fun either => either.elim (loaded.2 none) none
    · intro empty
      have here : key ∈ pair.working.keys := (view key).mpr (by rw [visible_written found]; rfl)
      rw [empty] at here
      exact Finset.notMem_empty key here

theorem step_agrees (call : MapCall κ ν) (allowed : var.Allowed call) (shown : Shows var pair) : Agrees (var.step call) (pair.step call) := by
  cases call with
  | find key use => exact find_agrees key use shown
  | contains key =>
    have found := contains_eq (checkKeyAndCopy_find key shown)
    exact ⟨congrArg (fun found => Except.ok (MapReply.flag found)) found, checkKeyAndCopy_shows key shown⟩
  | count key =>
    have found := contains_eq (checkKeyAndCopy_find key shown)
    exact ⟨congrArg (fun found : Bool => Except.ok (MapReply.size (if found then 1 else 0))) found, checkKeyAndCopy_shows key shown⟩
  | «at» key use => exact at_agrees key use shown
  | subscript key use => exact subscript_agrees use allowed shown
  | insert key value => exact insert_agrees value allowed (markAsUsed_shows (check_shows shown))
  | insertRange entries => exact ⟨rfl, insertRange_shows entries allowed (markAsUsed_shows (check_shows shown))⟩
  | insertOrAssign key value =>
    have known : var.Known key := allowed
    have loaded : var.Loaded key := known.imp_right fun unknown => .inl unknown.1
    have found : var.written.contains key = pair.working.contains key := contains_eq (loaded_find loaded shown)
    have kept : key ∉ var.erased := known.elim (fun inside erased => shown.apart key erased inside) And.right
    exact ⟨congrArg (fun found : Bool => Except.ok (MapReply.placed value !found)) found,
      write_shows (markAsUsed_shows (check_shows shown)) kept rfl⟩
  | emplace key value => exact insert_agrees value allowed (markAsUsed_shows (check_shows shown))
  | erase key => exact erase_agrees allowed shown
  | eraseMoved key left =>
    obtain ⟨loaded, kept⟩ := allowed
    have same : (if key ∈ var.erased then key else left) = key := by
      by_cases erased : key ∈ var.erased
      · exact if_pos erased
      · exact (if_neg erased).trans (kept.resolve_left erased)
    have whole : var.eraseMoved key left = var.erase key := congrArg (var.check.markAsUsed.drop key) same
    obtain ⟨size, next⟩ := erase_agrees loaded shown
    rw [← whole] at size next
    exact ⟨size, next⟩
  | empty =>
    exact ⟨congrArg (fun found => Except.ok (MapReply.flag found)) (empty_agrees allowed shown), check_shows shown⟩
  | commit => exact ⟨rfl, commit_shows shown⟩
  | revert => exact ⟨rfl, revert_shows shown⟩

private theorem simulates : Simulates (@SafeUnorderedMap.step κ ν _ _) MapPair.step Shows SafeUnorderedMap.Allowed :=
  fun _ _ call shown allowed => step_agrees call allowed shown

theorem ofOwner_shows (map : Table κ ν) : Shows (ofOwner map) ⟨map, map⟩ where
  committed := rfl
  working key := by
    have gone : ∀ key ∈ (ofOwner map).erased, (ofOwner map).map.find key = none := fun key erased => absurd erased (Finset.notMem_empty key)
    exact visible_level rfl gone key
  apart key _ := Finset.notMem_empty key

theorem ofMap_shows (map : Table κ ν) : Shows (ofMap map) ⟨default, map⟩ where
  committed := rfl
  working key := by
    have written : (ofMap map).written = map := rfl
    unfold visible
    rw [written]
    cases found : map.find key with
    | some value => rfl
    | none => exact (if_neg (Finset.notMem_empty key)).trans (if_neg (Finset.notMem_empty key))
  apart key erased := absurd erased (Finset.notMem_empty key)

/-- A run whose calls are all allowed is answered as by two ordinary maps, with either constructor. -/
theorem allowed_runs_agree (map : Table κ ν) (calls : List (MapCall κ ν)) :
    (Along step Allowed (ofOwner map) calls → answers step (ofOwner map) calls = answers MapPair.step ⟨map, map⟩ calls) ∧
      (Along step Allowed (ofMap map) calls → answers step (ofMap map) calls = answers MapPair.step ⟨default, map⟩ calls) := by
  constructor
  · intro allowed
    exact (simulates.run calls (ofOwner_shows map) allowed).1
  · intro allowed
    exact (simulates.run calls (ofMap_shows map) allowed).1

/-- Writes, erasures, commits and reverts in which no erased key comes back. -/
abbrev steadyCalls : List (MapCall Nat Nat) :=
  [.insert 1 5, .commit, .«at» 1 (· + 1), .find 1 id, .erase 1, .contains 1, .revert, .find 1 id, .«at» 2 id]

theorem steady_calls_agree : answers step (ofOwner default) steadyCalls =
    [.ok (.placed 5 true), .ok .done, .ok (.entry (some 5)), .ok (.entry (some 6)), .ok (.size 1), .ok (.flag false), .ok .done,
      .ok (.entry (some 5)), .error "Key not found"] := by
  rw [(allowed_runs_agree default steadyCalls).1 (by decide)]
  decide

/-- A key that is written again after it was erased is lost at the commit, and a committed key is
inserted a second time, not counted when it is erased and not seen by `empty`. -/
theorem returning_keys_are_lost :
    answers step (ofOwner default) [.subscript 1 fun _ => 5, .erase 1, .subscript 1 fun _ => 7, .commit, .contains (1 : Nat)] ≠
      answers MapPair.step ⟨default, default⟩ [.subscript 1 fun _ => 5, .erase 1, .subscript 1 fun _ => 7, .commit, .contains 1] ∧
    ∀ call ∈ [.empty, .insert 1 9, .erase 1],
      answers step (ofOwner default) [.insert 1 5, .commit, call] ≠
        answers MapPair.step ⟨default, (default : Table Nat Nat)⟩ [.insert 1 5, .commit, call] := by
  constructor
  · decide
  · decide

end OrbiterSDK.Proofs.MapRefinement
