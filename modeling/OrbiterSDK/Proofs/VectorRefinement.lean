import OrbiterSDK.SafeVector
import OrbiterSDK.Lib.Simulation

/-! Safe vectors answer as pairs of ordinary vectors do. Below its size, a vector has
each element in its map or, unless it was cleared, in what is committed; the map has no more. -/

namespace OrbiterSDK
open Lib

/-- Two ordinary vectors: what is committed, and what is worked on. -/
structure VectorPair (α : Type) where
  committed : List α
  working : List α

namespace VectorPair
variable {α : Type} [Inhabited α] {next : SafeVector α} {pos : VectorArg α Nat} {working : List α}

def work (pair : VectorPair α) (working : List α) : VectorPair α := { pair with working }

def «at» (pair : VectorPair α) (pos : Nat) (use : α → α) : VectorAnswer α × VectorPair α :=
  match pair.working[pos]? with
  | none => (.error "Index out of range", pair)
  | some value => (.ok (.element value), pair.work (pair.working.modify pos use))

/-- The value of an argument when the call is made. -/
def seen {β : Type} (working : List α) : VectorArg α β → Option β
  | .value value => some value
  | .own index read => working[index]?.map read

def passing {β : Type} (pair : VectorPair α) (call : β → VectorAnswer α × VectorPair α) (arg : VectorArg α β) : VectorAnswer α × VectorPair α :=
  match seen pair.working arg with
  | none => (.error "Index out of range", pair)
  | some value => call value

def insert (pair : VectorPair α) (pos : Nat) (value : α) : VectorAnswer α × VectorPair α :=
  if pos ≤ pair.working.length then (.ok (.index pos), pair.work (pair.working.insertIdx pos value))
  else (.error "pos out of range", pair)

def resize (pair : VectorPair α) (count : Nat) (value : α) : VectorAnswer α × VectorPair α :=
  (.ok .done, pair.work (pair.working.take count ++ List.replicate (count - pair.working.length) value))

def step (pair : VectorPair α) : VectorCall α → VectorAnswer α × VectorPair α
  | .assign count value => (.ok .done, pair.work (List.replicate count value))
  | .assignRange values => (.ok .done, pair.work values)
  | .«at» pos use => pair.«at» pos use
  | .subscript pos use => pair.«at» pos use
  | .empty => (.ok (.flag pair.working.isEmpty), pair)
  | .size => (.ok (.index pair.working.length), pair)
  | .clear => (.ok .done, pair.work [])
  | .insert pos value => pair.passing (fun pos => pair.passing (pair.insert pos) value) pos
  | .erase pos =>
    if pos < pair.working.length then (.ok (.index pos), pair.work (pair.working.eraseIdx pos))
    else (.error "Index out of range", pair)
  | .eraseRange first last =>
    if first ≤ last ∧ last ≤ pair.working.length then
      (.ok (.index first), pair.work (pair.working.take first ++ pair.working.drop last))
    else (.error "Indices out of range", pair)
  | .pushBack value => pair.passing (fun value => (.ok .done, pair.work (pair.working ++ [value]))) value
  | .emplaceBack value => (.ok .done, pair.work (pair.working ++ [value]))
  | .popBack => (.ok .done, pair.work pair.working.dropLast)
  | .resize count => pair.resize count default
  | .resizeWith count value => pair.passing (pair.resize count) value
  | .get => (.ok (.elements pair.committed), pair)
  | .commit => (.ok .done, { pair with committed := pair.working })
  | .revert => (.ok .done, pair.work pair.committed)

/-- Arguments that are elements of the vector, or parts of them, read as before when elements go up for a new one: the
value when they have gone up, the index when the new one is put in as well. -/
def Steady (working : List α) (pos : VectorArg α Nat) (value : VectorArg α α) : Prop :=
  ∀ place new, seen working pos = some place → seen working value = some new → place < working.length →
    seen (working.take (place + 1) ++ working.drop place) value = some new ∧ seen (working.insertIdx place new) pos = some place

/-- Nothing is popped from an empty vector, and no argument is moved away. -/
def Allowed (pair : VectorPair α) : VectorCall α → Prop
  | .popBack => pair.working ≠ []
  | .insert pos value => Steady pair.working pos value
  | _ => True

end VectorPair
end OrbiterSDK

namespace OrbiterSDK.Proofs.VectorRefinement
open Lib SafeVector

section Views
variable {α : Type} [Inhabited α] {var : SafeVector α} {pair : VectorPair α} {tmp : Table Nat α} {vector : List α}

/-- A safe vector stands for two vectors. -/
structure Shows (var : SafeVector α) (pair : VectorPair α) : Prop where
  committed : var.vector = pair.committed
  size : var.maxIndex = pair.working.length
  fresh : var.tmp = none → var.maxIndex = var.vector.length
  inside : ∀ index, var.maxIndex ≤ index → var.written.find index = none
  element : ∀ index < var.maxIndex, source var.vector var.written index = pair.working[index]?
  loaded : var.clear = true → ∀ index < var.maxIndex, var.written.find index = pair.working[index]?

/-- A call has written a map and left the vector as it is. -/
structure Edited (var next : SafeVector α) (tmp : Table Nat α) (size : Nat) : Prop where
  vector : next.vector = var.vector
  stored : next.tmp = some tmp
  size : next.maxIndex = size
  clear : next.clear = var.clear

theorem source_found {index : Nat} {value : α} (found : tmp.find index = some value) : source vector tmp index = some value := by
  unfold source
  rw [found]

theorem source_congr {other : Table Nat α} {index : Nat} (same : tmp.find index = other.find index) :
    source vector tmp index = source vector other index := by
  unfold source
  rw [same]

theorem find_emplaceAll (indices : Finset Nat) (value : Nat → α) (index : Nat) : (emplaceAll tmp indices value).find index =
    if index ∈ indices ∧ tmp.find index = none then some (value index) else tmp.find index := by
  have absent : index ∉ tmp.keys ↔ tmp.find index = none := by
    rw [← Table.find_isSome]
    cases tmp.find index with
    | none => simp
    | some value => simp
  unfold emplaceAll
  rw [Table.find_assign]
  simp only [Finset.mem_sdiff, absent]

theorem find_default (index : Nat) : (default : Table Nat α).find index = none := if_neg (Finset.notMem_empty index)

theorem find_put (index other : Nat) (value : α) :
    (tmp.modify index fun _ => value).find other = if other = index then some value else tmp.find other := Table.find_modify _ _ _ _

/-- A call gets the same answer, and what the vector stands for afterwards is the same. -/
def Agrees (outcome : VectorAnswer α × SafeVector α) (plain : VectorAnswer α × VectorPair α) : Prop :=
  outcome.1 = plain.1 ∧ Shows outcome.2 plain.2

/-- Writing to one index does not change what is found for another one. -/
theorem source_put {index other : Nat} (value : α) (apart : other ≠ index) :
    source vector (tmp.modify index fun _ => value) other = source vector tmp other :=
  source_congr ((find_put index other value).trans (if_neg apart))

/-- The index by reference is the same when the elements up to a top have gone up. -/
def Stays (vector : List α) (tmp : Table Nat α) (place top : Nat) : VectorArg α Nat → Prop
  | .value _ => True
  | .own index part => place < index → index ≤ top → ∃ value, source vector tmp (index - 1) = some value ∧ part value = place

theorem read_put {place top : Nat} {value : α} (stays : Stays vector tmp place (top + 1) pos) (least : place ≤ top)
    (here : read tmp pos = place) (last : source vector tmp top = some value) : read (tmp.modify (top + 1) fun _ => value) pos = place := by
  cases pos with
  | value index => exact here
  | own index part =>
    show part ((tmp.modify (top + 1) fun _ => value).value index) = place
    rw [Table.modify_value]
    by_cases moved : index = top + 1
    · obtain ⟨other, found, same⟩ := stays (by omega) (by omega)
      obtain rfl : value = other := Option.some.inj (last.symm.trans (by rwa [moved] at found))
      rw [if_pos moved, same]
    · rw [if_neg moved]
      exact here

theorem Stays.put {place top : Nat} {value : α} (stays : Stays vector tmp place (top + 1) pos) :
    Stays vector (tmp.modify (top + 1) fun _ => value) place top pos := by
  cases pos with
  | value index => trivial
  | own index part =>
    intro above below
    rw [source_put value (by omega)]
    exact stays above (by omega)

/-- The loop of `insert` reads each element before it writes over it. -/
theorem shiftRight_ok {place : Nat} (count : Nat) : ∀ {tmp : Table Nat α}, read tmp pos = place →
    Stays vector tmp place (place + count) pos →
    (∀ index, place ≤ index → index < place + count → ∃ value, source vector tmp index = some value) →
    ∃ shifted, shiftRight vector pos (place + count) tmp = .ok shifted ∧ read shifted pos = place ∧
      ∀ index, shifted.find index = if place < index ∧ index ≤ place + count then source vector tmp (index - 1) else tmp.find index := by
  induction count with
  | zero =>
    intro tmp here _ _
    refine ⟨tmp, ?_, here, fun index => ?_⟩
    · cases place with
      | zero => rfl
      | succ place => exact if_neg (by omega)
    · rw [if_neg (by omega)]
  | succ count ih =>
    intro tmp here stays elements
    obtain ⟨value, last⟩ := elements (place + count) (by omega) (by omega)
    have kept (index : Nat) (below : index < place + count + 1) :
        source vector (tmp.modify (place + count + 1) fun _ => value) index = source vector tmp index := source_put value (by omega)
    have again := read_put stays (Nat.le_add_right place count) here last
    obtain ⟨shifted, runs, still, result⟩ := @ih (tmp.modify (place + count + 1) fun _ => value) again stays.put fun index least below => by
      rw [kept index (by omega)]
      exact elements index least (by omega)
    refine ⟨shifted, ?_, still, fun index => ?_⟩
    · rw [← Nat.add_assoc, shiftRight, if_pos (by omega), last]
      exact runs
    · rw [result]
      by_cases inside : place < index ∧ index ≤ place + count
      · rw [if_pos inside, if_pos (by omega), kept _ (by omega)]
      · rw [if_neg inside, find_put]
        by_cases same : index = place + count + 1
        · rw [if_pos same, if_pos (by omega), ← last]
          exact congrArg (source vector tmp) (by omega)
        · rw [if_neg same, if_neg (by omega)]

theorem shiftLeft_ok (gap count : Nat) : ∀ {start : Nat} {tmp : Table Nat α},
    (∀ index, start ≤ index → index < start + count → ∃ value, source vector tmp (index + gap) = some value) →
    ∃ shifted, shiftLeft vector gap count start tmp = .ok shifted ∧
      ∀ index, shifted.find index = if start ≤ index ∧ index < start + count then source vector tmp (index + gap) else tmp.find index := by
  induction count with
  | zero =>
    intro start tmp _
    refine ⟨tmp, rfl, fun index => ?_⟩
    rw [if_neg (by omega)]
  | succ count ih =>
    intro start tmp elements
    obtain ⟨value, first⟩ := elements start (by omega) (by omega)
    have kept (index : Nat) (above : start < index) :
        source vector (tmp.modify start fun _ => value) index = source vector tmp index := source_put value (by omega)
    obtain ⟨shifted, runs, result⟩ := @ih (start + 1) (tmp.modify start fun _ => value) fun index least below => by
      rw [kept (index + gap) (by omega)]
      exact elements index (by omega) (by omega)
    refine ⟨shifted, ?_, fun index => ?_⟩
    · rw [shiftLeft, first]
      exact runs
    · rw [result]
      by_cases inside : start + 1 ≤ index ∧ index < start + 1 + count
      · rw [if_pos inside, if_pos (by omega), kept _ (by omega)]
      · rw [if_neg inside, find_put]
        by_cases same : index = start
        · rw [if_pos same, if_pos (by omega), same, first]
        · rw [if_neg same, if_neg (by omega)]

/-- A reference is into the map. -/
def Loaded {β : Type} (tmp : Table Nat α) : VectorArg α β → Prop
  | .value _ => True
  | .own index _ => (tmp.find index).isSome

/-- What a map has of a list. -/
def Holds (tmp : Table Nat α) (working : List α) : Prop := ∀ index value, tmp.find index = some value → working[index]? = some value

theorem Loaded.mono {β : Type} {arg : VectorArg α β} {other : Table Nat α} (loaded : Loaded tmp arg)
    (grows : ∀ index, (tmp.find index).isSome → (other.find index).isSome) : Loaded other arg := by
  cases arg with
  | value value => trivial
  | own index part => exact grows index loaded

theorem Holds.seen {β : Type} {arg : VectorArg α β} (holds : Holds tmp working) (loaded : Loaded tmp arg) :
    VectorPair.seen working arg = some (read tmp arg) := by
  cases arg with
  | value value => rfl
  | own index part =>
    obtain ⟨value, found⟩ := Option.isSome_iff_exists.mp loaded
    show working[index]?.map part = some (part (tmp.value index))
    rw [holds index value found, (Table.find_eq_some found).2]
    rfl

theorem checkIndexAndCopy_grows (index other : Nat) (there : (var.written.find other).isSome) :
    ((var.checkIndexAndCopy index).2.written.find other).isSome := by
  rw [← check_written] at there
  unfold checkIndexAndCopy
  dsimp only
  split
  · exact there
  · split
    · exact there
    · split
      · exact there
      case h_2 value here =>
        show ((var.check.written.modify index fun _ => value).find other).isSome
        rw [find_put]
        split
        · rfl
        · exact there

omit [Inhabited α] in
/-- An index that is read of the vector is read of it as well when an element is appended. -/
theorem seen_appended {place : Nat} (new : α) (here : VectorPair.seen working pos = some place) :
    VectorPair.seen (working.insertIdx working.length new) pos = some place := by
  cases pos with
  | value index => exact here
  | own index part =>
    obtain ⟨value, found, same⟩ := Option.map_eq_some_iff.mp here
    have inside := (List.getElem?_eq_some_iff.mp found).1
    rw [VectorPair.seen, List.getElem?_insertIdx, if_pos inside]
    exact here

omit [Inhabited α] in
/-- The loop of `commit` goes through the entries in ascending order, so that an entry behind the end of
the vector is the next one. -/
theorem committed_eq (value : Nat → α) : ∀ {keys : List Nat} {vector : List α}, keys.Pairwise (· < ·) →
    (∀ key ∈ keys, working[key]? = some (value key)) → vector.length ≤ working.length →
    (∀ index < vector.length, index ∉ keys → vector[index]? = working[index]?) →
    (∀ index < working.length, vector.length ≤ index → index ∈ keys) →
    (keys.map fun index => (index, value index)).foldl commitEntry vector = working := by
  intro keys
  induction keys with
  | nil =>
    intro vector _ _ below kept behind
    have length : vector.length = working.length := by
      by_contra shorter
      exact List.not_mem_nil (behind vector.length (by omega) le_rfl)
    rw [List.map_nil, List.foldl_nil]
    apply List.ext_getElem?
    intro index
    by_cases inside : index < vector.length
    · exact kept index inside List.not_mem_nil
    · rw [List.getElem?_eq_none (by omega), List.getElem?_eq_none (by omega)]
  | cons key rest ih =>
    intro vector ascending entries below kept behind
    obtain ⟨later, ascending⟩ := List.pairwise_cons.mp ascending
    have here := entries key List.mem_cons_self
    have inside := (List.getElem?_eq_some_iff.mp here).1
    have others : ∀ other ∈ rest, working[other]? = some (value other) := fun other member => entries other (List.mem_cons_of_mem key member)
    rw [List.map_cons, List.foldl_cons]
    by_cases present : key < vector.length
    · have next : commitEntry vector (key, value key) = vector.set key (value key) := if_pos present
      rw [next]
      apply ih ascending others (by rw [List.length_set]; exact below)
      · intro index bound outside
        rw [List.length_set] at bound
        rw [List.getElem?_set]
        by_cases same : key = index
        · rw [if_pos same, if_pos (same ▸ present), ← same, here]
        · rw [if_neg same]
          exact kept index bound fun member => (List.mem_cons.mp member).elim (fun equal => same equal.symm) outside
      · intro index bound beyond
        rw [List.length_set] at beyond
        exact (List.mem_cons.mp (behind index bound beyond)).resolve_left (by omega)
    · -- The first entry behind the end stands right there, as the others come after it.
      have first : vector.length = key := by
        cases List.mem_cons.mp (behind vector.length (by omega) le_rfl) with
        | inl same => exact same
        | inr member => have := later _ member; omega
      have next : commitEntry vector (key, value key) = vector ++ [value key] := if_neg present
      have length : (vector ++ [value key]).length = key + 1 := by rw [List.length_append, first]; rfl
      rw [next]
      apply ih ascending others (by omega)
      · intro index bound outside
        by_cases same : index = key
        · rw [same, here, ← first, List.getElem?_concat_length]
        · rw [List.getElem?_append_left (by omega)]
          exact kept index (by omega) fun member => (List.mem_cons.mp member).elim same outside
      · intro index bound beyond
        exact (List.mem_cons.mp (behind index bound (by omega))).resolve_left (by omega)

section Shown
variable (shown : Shows var pair)
include shown

theorem check_eq : var.check = { var with tmp := some var.written } := by
  obtain ⟨base, vector, tmp, maxIndex, clear⟩ := var
  cases tmp with
  | some tmp => rfl
  | none =>
    have same : maxIndex = vector.length := shown.fresh rfl
    rw [same]
    rfl

theorem check_shows : Shows var.check pair := by
  rw [check_eq shown]
  exact ⟨shown.committed, shown.size, nofun, shown.inside, shown.element, shown.loaded⟩

theorem markAsUsed_shows : Shows var.markAsUsed pair :=
  ⟨shown.committed, shown.size, shown.fresh, shown.inside, shown.element, shown.loaded⟩

/-- What has to be shown of a vector whose map takes the place of another one. -/
theorem replaced_shows (vector : next.vector = var.vector)
    (stored : next.tmp = some tmp) (size : next.maxIndex = working.length) (inside : ∀ index, working.length ≤ index → tmp.find index = none)
    (element : ∀ index < working.length, source var.vector tmp index = working[index]?)
    (loaded : next.clear = true → ∀ index < working.length, tmp.find index = working[index]?) : Shows next (pair.work working) := by
  have written : next.written = tmp := by
    rw [SafeVector.written, stored]
    rfl
  constructor
  · exact vector.trans shown.committed
  · exact size
  · intro none
    cases stored.symm.trans none
  · rw [size, written]
    exact inside
  · rw [size, written, vector]
    exact element
  · rw [size, written]
    exact loaded

/-- Each element is in the new map, or where it was before. -/
theorem edited_shows {size : Nat} (edited : Edited var next tmp size) (length : size = working.length)
    (outside : ∀ index, working.length ≤ index → tmp.find index = none)
    (edits : ∀ index < working.length, tmp.find index = working[index]? ∨
      tmp.find index = var.written.find index ∧ index < var.maxIndex ∧ working[index]? = pair.working[index]?) :
    Shows next (pair.work working) := by
  apply replaced_shows shown edited.vector edited.stored (edited.size.trans length) outside
  · intro index inside
    cases edits index inside with
    | inl new =>
      rw [List.getElem?_eq_getElem inside] at new ⊢
      exact source_found new
    | inr old =>
      rw [source_congr old.1, old.2.2]
      exact shown.element index old.2.1
  · intro cleared index inside
    cases edits index inside with
    | inl new => exact new
    | inr old =>
      rw [old.1, old.2.2]
      exact shown.loaded (edited.clear ▸ cleared) index old.2.1

/-- A map that has all elements and no others is right whether or not the vector was cleared. -/
theorem whole_shows (vector : next.vector = var.vector)
    (stored : next.tmp = some tmp) (size : next.maxIndex = working.length) (whole : ∀ index, tmp.find index = working[index]?) :
    Shows next (pair.work working) := by
  apply replaced_shows shown vector stored size
  · intro index outside
    rw [whole, List.getElem?_eq_none outside]
  · intro index inside
    rw [List.getElem?_eq_getElem inside]
    exact source_found ((whole index).trans (List.getElem?_eq_getElem inside))
  · intro _ index _
    exact whole index

theorem assignRange_shows (values : List α) : Shows (var.assignRange values) (pair.work values) := by
  have whole : ∀ index, (emplaceAll default (Finset.range values.length) fun index => values.getD index default).find index = values[index]? := by
    intro index
    simp only [find_emplaceAll, Finset.mem_range, find_default, and_true]
    by_cases inside : index < values.length
    · rw [if_pos inside, List.getD_eq_getElem?_getD, List.getElem?_eq_getElem inside, Option.getD_some]
    · rw [if_neg inside, List.getElem?_eq_none (Nat.le_of_not_lt inside)]
  exact whole_shows (check_shows shown) rfl rfl rfl whole

theorem assign_shows (count : Nat) (value : α) : Shows (var.assign count value) (pair.work (List.replicate count value)) := by
  have whole : ∀ index, (emplaceAll default (Finset.range count) fun _ => value).find index = (List.replicate count value)[index]? := by
    intro index
    simp only [find_emplaceAll, Finset.mem_range, find_default, and_true, List.getElem?_replicate]
  exact whole_shows (check_shows shown) rfl rfl List.length_replicate.symm whole

private theorem clear_shows : Shows var.clearAll (pair.work []) :=
  whole_shows (check_shows shown) rfl rfl rfl fun index => (find_default index).trans List.getElem?_nil.symm

theorem load_shows {index : Nat} {value : α} (here : pair.working[index]? = some value) :
    Shows (var.put index value) pair := by
  have below : index < pair.working.length := (List.getElem?_eq_some_iff.mp here).1
  have edited : Edited var (var.put index value) (var.written.modify index fun _ => value) var.maxIndex := ⟨rfl, rfl, rfl, rfl⟩
  apply edited_shows shown edited shown.size
  · intro other outside
    rw [find_put, if_neg (by omega)]
    exact shown.inside other (shown.size ▸ outside)
  · intro other inside
    by_cases same : other = index
    · left
      rw [find_put, if_pos same, same, here]
    · exact .inr ⟨(find_put index other value).trans (if_neg same), shown.size ▸ inside, rfl⟩

theorem checkIndexAndCopy_refused {index : Nat} (absent : pair.working[index]? = none) :
    var.checkIndexAndCopy index = (.error "Index out of range", var.check) := by
  have outside : var.check.maxIndex ≤ index := by
    rw [(check_shows shown).size]
    exact List.getElem?_eq_none_iff.mp absent
  exact if_pos outside

theorem checkIndexAndCopy_loads {index : Nat} {value : α} (here : pair.working[index]? = some value) :
    ∃ next, var.checkIndexAndCopy index = (.ok (), next) ∧ Shows next pair ∧ next.written.find index = some value := by
  have ready := check_shows shown
  have below : index < var.check.maxIndex := by
    rw [ready.size]
    exact (List.getElem?_eq_some_iff.mp here).1
  have element := (ready.element index below).trans here
  unfold checkIndexAndCopy
  simp only [if_neg (Nat.not_le.mpr below)]
  unfold source at element
  cases found : var.check.written.find index with
  | some present =>
    rw [found] at element
    have contained : var.check.written.contains index = true := decide_eq_true (Table.find_eq_some found).1
    exact ⟨var.check, if_pos contained, ready, found.trans element⟩
  | none =>
    rw [found] at element
    have element : var.check.vector[index]? = some value := element
    have outside : ¬ var.check.written.contains index = true := by
      intro contained
      cases (if_pos (of_decide_eq_true contained) : var.check.written.find index = some _).symm.trans found
    rw [if_neg outside, element]
    exact ⟨var.check.put index value, rfl, load_shows ready here, (find_put index index value).trans (if_pos rfl)⟩

theorem modify_shows {pos : Nat} {value : α} (use : α → α)
    (found : var.written.find pos = some value) (here : pair.working[pos]? = some value)
    (edited : Edited var next (var.written.modify pos use) var.maxIndex) :
    Shows next (pair.work (pair.working.modify pos use)) := by
  have length : (pair.working.modify pos use).length = pair.working.length := List.length_modify ..
  have below : pos < pair.working.length := (List.getElem?_eq_some_iff.mp here).1
  have written (index : Nat) : (var.written.modify pos use).find index = if index = pos then some (use value) else var.written.find index := by
    rw [Table.find_modify, (Table.find_eq_some found).2]
  have working (index : Nat) : (pair.working.modify pos use)[index]? = if index = pos then some (use value) else pair.working[index]? := by
    rw [List.getElem?_modify]
    by_cases same : index = pos
    · rw [if_pos same, same, here]
      simp
    · rw [if_neg same]
      simp [Ne.symm same]
  have size := shown.size
  apply edited_shows shown edited (size.trans length.symm)
  · intro index outside
    rw [length] at outside
    rw [written, if_neg (by omega)]
    exact shown.inside index (size ▸ outside)
  · intro index inside
    by_cases same : index = pos
    · left
      rw [written, working, if_pos same, if_pos same]
    · exact .inr ⟨(written index).trans (if_neg same), by omega, (working index).trans (if_neg same)⟩

theorem at_agrees (pos : Nat) (use : α → α) : Agrees (var.«at» pos use) (pair.«at» pos use) := by
  unfold SafeVector.«at» VectorPair.«at»
  cases here : pair.working[pos]? with
  | none =>
    rw [checkIndexAndCopy_refused shown here]
    exact ⟨rfl, check_shows shown⟩
  | some value =>
    obtain ⟨next, loads, ready, found⟩ := checkIndexAndCopy_loads shown here
    rw [loads]
    constructor
    · exact congrArg (fun value => Except.ok (VectorReply.element value)) (Table.find_eq_some found).2
    · exact modify_shows ready use found here ⟨rfl, rfl, rfl, rfl⟩

theorem element_found {index : Nat} (inside : index < var.maxIndex) :
    ∃ value, source var.vector var.written index = some value := by
  rw [shown.element index inside, List.getElem?_eq_getElem (shown.size ▸ inside)]
  exact ⟨_, rfl⟩

/-- Elements from a place on have gone up by one, with a new one in that place. -/
theorem inserted_shows {pos : Nat} {value : α} (below : pos ≤ pair.working.length)
    (edited : Edited var next tmp (var.maxIndex + 1))
    (found : ∀ index, tmp.find index = if index = pos then some value
      else if pos < index ∧ index ≤ var.maxIndex then source var.vector var.written (index - 1) else var.written.find index) :
    Shows next (pair.work (pair.working.insertIdx pos value)) := by
  have length : (pair.working.insertIdx pos value).length = pair.working.length + 1 := List.length_insertIdx_of_le_length below value
  have same := shown.size
  -- Above the place, what has gone up is found whether the vector was cleared or not.
  have above (index : Nat) (inside : index < pair.working.length + 1) (least : pos ≤ index) :
      tmp.find index = (pair.working.insertIdx pos value)[index]? := by
    rw [found, List.getElem?_insertIdx, if_neg (Nat.not_lt.mpr least)]
    by_cases here : index = pos
    · rw [if_pos here, if_pos here, if_pos (by omega)]
    · rw [if_neg here, if_neg here, if_pos (by omega), shown.element _ (by omega)]
  apply edited_shows shown edited (by rw [length, same])
  · intro index outside
    rw [length] at outside
    rw [found, if_neg (by omega), if_neg (by omega)]
    exact shown.inside index (by omega)
  · intro index inside
    rw [length] at inside
    by_cases least : pos ≤ index
    · exact .inl (above index inside least)
    · refine .inr ⟨?_, by omega, ?_⟩
      · rw [found, if_neg (by omega), if_neg (by omega)]
      · rw [List.getElem?_insertIdx, if_pos (by omega)]

theorem Shows.holds : Holds var.written pair.working := by
  intro index value found
  have inside : index < var.maxIndex := by
    by_contra outside
    cases found.symm.trans (shown.inside index (Nat.le_of_not_lt outside))
  rw [← shown.element index inside]
  exact source_found found

/-- An argument is there before the call, or the call is not made. -/
theorem passing_agrees {β : Type} {call : SafeVector α → VectorAnswer α × SafeVector α} {plain : β → VectorAnswer α × VectorPair α}
    (arg : VectorArg α β)
    (agrees : ∀ next value, Shows next pair → VectorPair.seen pair.working arg = some value → Loaded next.written arg →
      (∀ index, (var.written.find index).isSome → (next.written.find index).isSome) → Agrees (call next) (plain value)) :
    Agrees (var.passing call arg) (pair.passing plain arg) := by
  cases arg with
  | value value => exact agrees var value shown rfl trivial fun _ there => there
  | own index part =>
    unfold VectorPair.passing SafeVector.passing
    cases here : pair.working[index]? with
    | none =>
      simp only [VectorPair.seen, here, Option.map_none, checkIndexAndCopy_refused shown here]
      exact ⟨rfl, check_shows shown⟩
    | some value =>
      obtain ⟨next, loads, ready, found⟩ := checkIndexAndCopy_loads shown here
      have grows := @checkIndexAndCopy_grows _ _ var index
      rw [loads] at grows
      simp only [VectorPair.seen, here, Option.map_some, loads]
      exact agrees next.markAsUsed (part value) (markAsUsed_shows ready) (congrArg (Option.map part) here) (Option.isSome_iff_exists.mpr ⟨value, found⟩) grows

/-- The loop leaves the map of the list in which elements have gone up, and all that it had. -/
theorem shifted_holds {place : Nat} (below : place < var.maxIndex)
    (result : ∀ index, tmp.find index = if place < index ∧ index ≤ var.maxIndex then source var.vector var.written (index - 1)
      else var.written.find index) :
    Holds tmp (pair.working.take (place + 1) ++ pair.working.drop place) ∧
      ∀ index, (var.written.find index).isSome → (tmp.find index).isSome := by
  have size := shown.size
  have length : (pair.working.take (place + 1)).length = place + 1 := by
    rw [List.length_take]
    omega
  constructor
  · intro index value found
    rw [result] at found
    by_cases moved : place < index ∧ index ≤ var.maxIndex
    · rw [if_pos moved, shown.element _ (by omega)] at found
      rw [List.getElem?_append_right (by omega), length, List.getElem?_drop, ← found]
      exact congrArg (pair.working[·]?) (by omega)
    · rw [if_neg moved] at found
      have inside : index < var.maxIndex := by
        by_contra outside
        cases found.symm.trans (shown.inside index (Nat.le_of_not_lt outside))
      rw [List.getElem?_append_left (by omega), List.getElem?_take_of_lt (by omega)]
      exact shown.holds index value found
  · intro index there
    rw [result]
    split
    · exact Option.isSome_iff_exists.mpr (element_found shown (by omega))
    · exact there

theorem putIn_agrees {value : VectorArg α α} {place : Nat} {new : α}
    (below : place ≤ pair.working.length) (atPos : read tmp pos = place) (atValue : read tmp value = new) (loaded : Loaded tmp pos)
    (stays : VectorPair.seen (pair.working.insertIdx place new) pos = some place)
    (result : ∀ index, tmp.find index = if place < index ∧ index ≤ var.maxIndex then source var.vector var.written (index - 1)
      else var.written.find index) :
    Agrees (var.putIn pos value tmp) (.ok (.index place), pair.work (pair.working.insertIdx place new)) := by
  cases atPos
  cases atValue
  have next : Shows (var.putIn pos value tmp).2 (pair.work (pair.working.insertIdx (read tmp pos) (read tmp value))) :=
    inserted_shows shown below ⟨rfl, rfl, rfl, rfl⟩ fun index => by rw [find_put, result]
  have there : Loaded (var.putIn pos value tmp).2.written pos := by
    apply loaded.mono
    intro index there
    show ((tmp.modify (read tmp pos) fun _ => read tmp value).find index).isSome
    rw [find_put]
    split
    · rfl
    · exact there
  have same : read (var.putIn pos value tmp).2.written pos = read tmp pos := Option.some.inj ((next.holds.seen there).symm.trans stays)
  exact ⟨congrArg (fun index => Except.ok (VectorReply.index index)) same, next⟩

/-- An index that reads the same in the end does so in the loop. -/
theorem stays_of_seen {place : Nat} {new : α}
    (seen : VectorPair.seen (pair.working.insertIdx place new) pos = some place) :
    Stays var.vector var.written place var.maxIndex pos := by
  cases pos with
  | value index => trivial
  | own index part =>
    intro above below
    obtain ⟨value, found, same⟩ := Option.map_eq_some_iff.mp seen
    rw [List.getElem?_insertIdx, if_neg (by omega), if_neg (by omega)] at found
    exact ⟨value, (shown.element _ (by omega)).trans found, same⟩

theorem insert_agrees {value : VectorArg α α} {place : Nat} {new : α}
    (steady : VectorPair.Steady pair.working pos value) (here : VectorPair.seen pair.working pos = some place)
    (what : VectorPair.seen pair.working value = some new) (loadedPos : Loaded var.written pos) (loadedValue : Loaded var.written value) :
    Agrees (var.insert pos value) (pair.insert place new) := by
  have ready := markAsUsed_shows (check_shows shown)
  have size := ready.size
  rw [← check_written var] at loadedPos loadedValue
  have atPos : read var.check.markAsUsed.written pos = place := Option.some.inj ((ready.holds.seen loadedPos).symm.trans here)
  have atValue : read var.check.markAsUsed.written value = new := Option.some.inj ((ready.holds.seen loadedValue).symm.trans what)
  unfold SafeVector.insert VectorPair.insert
  simp only [atPos]
  by_cases last : place = var.check.markAsUsed.maxIndex
  · have full : place = pair.working.length := last.trans size
    have stays : VectorPair.seen (pair.working.insertIdx place new) pos = some place := by
      rw [full] at here ⊢
      exact seen_appended new here
    rw [if_pos last, if_pos full.le]
    apply putIn_agrees ready full.le atPos atValue loadedPos stays
    intro index
    rw [if_neg (by omega)]
  · rw [if_neg last]
    by_cases below : place < var.check.markAsUsed.maxIndex
    · obtain ⟨valueStays, posStays⟩ := steady place new here what (by omega)
      obtain ⟨shifted, runs, atPos, result⟩ := shiftRight_ok (var.check.markAsUsed.maxIndex - place) atPos
        (by rw [Nat.add_sub_cancel' below.le]; exact stays_of_seen ready posStays) fun index _ inside => element_found ready (by omega)
      rw [Nat.add_sub_cancel' below.le] at runs result
      obtain ⟨holds, grows⟩ := shifted_holds ready below result
      have atValue : read shifted value = new := Option.some.inj ((holds.seen (loadedValue.mono grows)).symm.trans valueStays)
      rw [if_pos below, if_pos (by omega), runs]
      exact putIn_agrees ready (by omega) atPos atValue (loadedPos.mono grows) posStays result
    · rw [if_neg below, if_neg (by omega)]
      exact ⟨rfl, ready⟩

/-- Elements from a place on have gone down by the size of a gap, and as many at the end are gone. -/
theorem erased_shows {first last gap : Nat} (reach : last = first + gap) (below : last ≤ pair.working.length)
    (edited : Edited var next tmp (var.maxIndex - gap))
    (found : ∀ index, tmp.find index = if var.maxIndex - gap ≤ index then none
      else if first ≤ index then source var.vector var.written (index + gap) else var.written.find index) :
    Shows next (pair.work (pair.working.take first ++ pair.working.drop last)) := by
  cases reach
  have same := shown.size
  have length : (pair.working.take first ++ pair.working.drop (first + gap)).length = pair.working.length - gap := by
    rw [List.length_append, List.length_take, List.length_drop]
    omega
  have front (index : Nat) (inside : index < first) :
      (pair.working.take first ++ pair.working.drop (first + gap))[index]? = pair.working[index]? := by
    rw [List.getElem?_append_left (by rw [List.length_take]; omega), List.getElem?_take_of_lt inside]
  have back (index : Nat) (least : first ≤ index) :
      (pair.working.take first ++ pair.working.drop (first + gap))[index]? = pair.working[index + gap]? := by
    have taken : (pair.working.take first).length = first := by rw [List.length_take]; omega
    rw [List.getElem?_append_right (by omega), taken, List.getElem?_drop]
    exact congrArg (pair.working[·]?) (by omega)
  apply edited_shows shown edited (by rw [length, same])
  · intro index outside
    rw [length] at outside
    rw [found, if_pos (by omega)]
  · intro index inside
    rw [length] at inside
    by_cases least : first ≤ index
    · left
      rw [found, if_neg (by omega), if_pos least, back index least, shown.element _ (by omega)]
    · refine .inr ⟨?_, by omega, front index (by omega)⟩
      rw [found, if_neg (by omega), if_neg least]

theorem erase_agrees (pos : Nat) : Agrees (var.erase pos) (pair.step (.erase pos)) := by
  have plain : pair.step (.erase pos) = if pos < pair.working.length then (.ok (.index pos), pair.work (pair.working.eraseIdx pos))
    else (.error "Index out of range", pair) := rfl
  unfold SafeVector.erase
  rw [plain]
  cases here : pair.working[pos]? with
  | none =>
    rw [checkIndexAndCopy_refused shown here, if_neg (Nat.not_lt.mpr (List.getElem?_eq_none_iff.mp here))]
    exact ⟨rfl, check_shows shown⟩
  | some value =>
    have below := (List.getElem?_eq_some_iff.mp here).1
    obtain ⟨next, loads, ready, -⟩ := checkIndexAndCopy_loads shown here
    have used := markAsUsed_shows ready
    have size := used.size
    obtain ⟨shifted, runs, result⟩ := @shiftLeft_ok _ _ next.markAsUsed.vector 1 (next.markAsUsed.maxIndex - 1 - pos) pos
      next.markAsUsed.written fun index _ inside => element_found used (by omega)
    rw [loads, if_pos below, List.eraseIdx_eq_take_drop_succ]
    dsimp only
    rw [runs]
    refine ⟨rfl, erased_shows used rfl (by omega) ⟨rfl, rfl, rfl, rfl⟩ fun index => ?_⟩
    rw [Table.find_erase, result]
    by_cases last : index = next.markAsUsed.maxIndex - 1
    · rw [if_pos last, if_pos (by omega)]
    · rw [if_neg last]
      by_cases outside : next.markAsUsed.maxIndex - 1 ≤ index
      · rw [if_pos outside, if_neg (by omega)]
        exact used.inside index (by omega)
      · rw [if_neg outside]
        exact if_congr (by omega) rfl rfl

theorem eraseRange_agrees (first last : Nat) :
    Agrees (var.eraseRange first last) (pair.step (.eraseRange first last)) := by
  have ready := markAsUsed_shows (check_shows shown)
  have size := ready.size
  have plain : pair.step (.eraseRange first last) = if first ≤ last ∧ last ≤ pair.working.length then
      (.ok (.index first), pair.work (pair.working.take first ++ pair.working.drop last))
    else (.error "Indices out of range", pair) := rfl
  unfold SafeVector.eraseRange
  rw [plain]
  by_cases wrong : last < first ∨ var.check.markAsUsed.maxIndex < last
  · rw [if_pos wrong, if_neg (by omega)]
    exact ⟨rfl, ready⟩
  · obtain ⟨shifted, runs, result⟩ := @shiftLeft_ok _ _ var.check.markAsUsed.vector (last - first)
      (var.check.markAsUsed.maxIndex - (last - first) - first) first var.check.markAsUsed.written fun index _ inside =>
        element_found ready (by omega)
    have gap : last = first + (last - first) := by omega
    rw [if_neg wrong, if_pos (by omega)]
    dsimp only
    rw [runs]
    refine ⟨rfl, erased_shows ready gap (by omega) ⟨rfl, rfl, rfl, rfl⟩ fun index => ?_⟩
    rw [Table.find_eraseKeys, result]
    by_cases outside : var.check.markAsUsed.maxIndex - (last - first) ≤ index
    · rw [if_pos outside]
      by_cases erased : index < var.check.markAsUsed.maxIndex
      · rw [if_pos (Finset.mem_Ico.mpr ⟨outside, erased⟩)]
      · rw [if_neg (fun inside => erased (Finset.mem_Ico.mp inside).2), if_neg (by omega)]
        exact ready.inside index (by omega)
    · rw [if_neg outside, if_neg (fun inside => outside (Finset.mem_Ico.mp inside).1)]
      exact if_congr (by omega) rfl rfl

/-- Elements are added at the end, where nothing was in the map. -/
theorem extended_shows (added : List α) (edited : Edited var next tmp (var.maxIndex + added.length))
    (found : ∀ index, tmp.find index = if var.maxIndex ≤ index then added[index - var.maxIndex]? else var.written.find index) :
    Shows next (pair.work (pair.working ++ added)) := by
  have same := shown.size
  apply edited_shows shown edited (by rw [List.length_append, same])
  · intro index outside
    rw [List.length_append] at outside
    rw [found, if_pos (by omega)]
    exact List.getElem?_eq_none (by omega)
  · intro index _
    by_cases new : var.maxIndex ≤ index
    · left
      rw [found, if_pos new, List.getElem?_append_right (by omega), same]
    · refine .inr ⟨?_, by omega, List.getElem?_append_left (by omega)⟩
      rw [found, if_neg new]

theorem shortened_shows (count : Nat) (below : count ≤ pair.working.length)
    (edited : Edited var next tmp count)
    (found : ∀ index, tmp.find index = if count ≤ index then none else var.written.find index) :
    Shows next (pair.work (pair.working.take count)) := by
  have same := shown.size
  have length : (pair.working.take count).length = count := List.length_take_of_le below
  apply edited_shows shown edited length.symm
  · intro index outside
    rw [found, if_pos (by omega)]
  · intro index inside
    refine .inr ⟨?_, by omega, List.getElem?_take_of_lt (by omega)⟩
    rw [found, if_neg (by omega)]

theorem pushBack_shows (value : α) : Shows (var.pushBack value) (pair.work (pair.working ++ [value])) := by
  have ready := markAsUsed_shows (check_shows shown)
  have extended := @extended_shows _ _ var.check.markAsUsed pair
    (emplaceAll var.check.markAsUsed.written {var.check.markAsUsed.maxIndex} fun _ => value) ready (var.pushBack value) [value]
  apply extended ⟨rfl, rfl, rfl, rfl⟩
  intro index
  rw [find_emplaceAll]
  by_cases last : index = var.check.markAsUsed.maxIndex
  · rw [last, ready.inside _ le_rfl, if_pos ⟨Finset.mem_singleton_self _, rfl⟩, if_pos le_rfl, Nat.sub_self]
    rfl
  · rw [if_neg (fun both => last (Finset.mem_singleton.mp both.1))]
    by_cases outside : var.check.markAsUsed.maxIndex ≤ index
    · rw [if_pos outside, ready.inside index outside]
      exact (List.getElem?_eq_none (by simp; omega)).symm
    · rw [if_neg outside]

theorem popBack_shows (occupied : pair.working ≠ []) : Shows var.popBack (pair.work pair.working.dropLast) := by
  have ready := markAsUsed_shows (check_shows shown)
  have size := ready.size
  have positive := List.length_pos_iff.mpr occupied
  have last : var.popBack.maxIndex = pair.working.length - 1 := by
    rw [← size]
    exact if_neg (by omega)
  have shortened := @shortened_shows _ _ var.check.markAsUsed pair (var.check.markAsUsed.written.erase var.popBack.maxIndex) ready var.popBack
  rw [List.dropLast_eq_take]
  apply shortened (pair.working.length - 1) (by omega) ⟨rfl, rfl, last, rfl⟩
  intro index
  rw [last, Table.find_erase]
  by_cases here : index = pair.working.length - 1
  · rw [if_pos here, if_pos (by omega)]
  · rw [if_neg here]
    by_cases outside : pair.working.length - 1 ≤ index
    · rw [if_pos outside]
      exact ready.inside index (by omega)
    · rw [if_neg outside]

theorem resizeWith_shows (count : Nat) (value : α) : Shows (var.resizeWith count value)
    (pair.work (pair.working.take count ++ List.replicate (count - pair.working.length) value)) := by
  have ready := check_shows shown
  have size := ready.size
  have written : (var.resizeWith count value).tmp = some (if count < var.check.maxIndex then
      var.check.written.eraseKeys (Finset.Ico count var.check.maxIndex)
    else emplaceAll var.check.written (Finset.Ico var.check.maxIndex count) fun _ => value) := rfl
  by_cases shorter : count < var.check.maxIndex
  · rw [Nat.sub_eq_zero_of_le (by omega), List.replicate_zero, List.append_nil]
    rw [if_pos shorter] at written
    have shortened := @shortened_shows _ _ var.check pair (var.check.written.eraseKeys (Finset.Ico count var.check.maxIndex))
      ready (var.resizeWith count value)
    apply shortened count (by omega) ⟨rfl, written, rfl, rfl⟩
    intro index
    rw [Table.find_eraseKeys]
    by_cases outside : count ≤ index
    · rw [if_pos outside]
      by_cases erased : index < var.check.maxIndex
      · rw [if_pos (Finset.mem_Ico.mpr ⟨outside, erased⟩)]
      · rw [if_neg (fun inside => erased (Finset.mem_Ico.mp inside).2)]
        exact ready.inside index (by omega)
    · rw [if_neg outside, if_neg (fun inside => outside (Finset.mem_Ico.mp inside).1)]
  · rw [List.take_of_length_le (by omega)]
    rw [if_neg shorter] at written
    have reached : count = var.check.maxIndex + (List.replicate (count - pair.working.length) value).length := by
      rw [List.length_replicate]
      omega
    have extended := @extended_shows _ _ var.check pair (emplaceAll var.check.written (Finset.Ico var.check.maxIndex count) fun _ => value)
      ready (var.resizeWith count value)
    apply extended _ ⟨rfl, written, reached, rfl⟩
    intro index
    rw [find_emplaceAll]
    by_cases outside : var.check.maxIndex ≤ index
    · rw [if_pos outside, ready.inside index outside, List.getElem?_replicate]
      apply if_congr _ rfl rfl
      rw [Finset.mem_Ico, and_iff_left rfl]
      omega
    · rw [if_neg outside, if_neg (fun both => outside (Finset.mem_Ico.mp both.1).1)]

theorem commit_shows : Shows var.commit { pair with committed := pair.working } := by
  have ready := check_shows shown
  have size := ready.size
  have found {index : Nat} (member : index ∈ var.check.written.keys) : var.check.written.find index = some (var.check.written.value index) :=
    if_pos member
  have inside {index : Nat} (member : index ∈ var.check.written.keys) : index < var.check.maxIndex := by
    by_contra outside
    cases (found member).symm.trans (ready.inside index (Nat.le_of_not_lt outside))
  have equal : var.commit.vector = pair.working := by
    apply committed_eq var.check.written.value (Finset.sortedLT_sort _).pairwise
    · intro key member
      have member := (Finset.mem_sort _).mp member
      rw [← ready.element key (inside member)]
      exact source_found (found member)
    · rw [List.length_take]
      omega
    · intro index bound outside
      have absent : var.check.written.find index = none := if_neg fun member => outside ((Finset.mem_sort _).mpr member)
      rw [List.length_take] at bound
      rw [List.getElem?_take_of_lt (by omega), ← ready.element index (by omega), source, absent]
      cases cleared : var.check.clear with
      | false => rfl
      | true =>
        rw [cleared] at bound
        cases (Nat.not_lt_zero index) (Nat.lt_of_lt_of_le bound (Nat.min_le_right _ _))
    · intro index bound beyond
      rw [Finset.mem_sort]
      by_contra outside
      have absent : var.check.written.find index = none := if_neg outside
      have here := List.getElem?_eq_getElem bound
      rw [List.length_take] at beyond
      cases cleared : var.check.clear with
      | true => cases absent.symm.trans ((ready.loaded cleared index (by omega)).trans here)
      | false =>
        rw [cleared] at beyond
        have element := (ready.element index (by omega)).trans here
        rw [source, absent] at element
        have stored := (List.getElem?_eq_some_iff.mp element).1
        have kept : min var.check.maxIndex var.check.vector.length ≤ index := beyond
        omega
  have length : var.commit.maxIndex = pair.working.length := congrArg List.length equal
  have checked : var.commit.written = var.check.written := rfl
  constructor
  · exact equal
  · exact length
  · intro unused
    rw [length, equal]
  · intro index outside
    rw [length] at outside
    rw [checked]
    exact ready.inside index (by omega)
  · intro index bound
    rw [length] at bound
    rw [checked, equal]
    cases found : var.check.written.find index with
    | none => rw [source, found]
    | some value =>
      have element := ready.element index (by omega)
      rw [source_found found] at element
      exact (source_found found).trans element
  · exact nofun

theorem revert_shows : Shows var.revert (pair.work pair.committed) := by
  have same := congrArg List.length shown.committed
  constructor
  · exact shown.committed
  · exact same
  · intro _
    rfl
  · intro index _
    exact find_default index
  · intro index _
    exact congrArg (·[index]?) shown.committed
  · exact nofun

theorem step_agrees (call : VectorCall α) (allowed : pair.Allowed call) : Agrees (var.step call) (pair.step call) := by
  cases call with
  | assign count value => exact ⟨rfl, assign_shows shown count value⟩
  | assignRange values => exact ⟨rfl, assignRange_shows shown values⟩
  | «at» pos use => exact at_agrees shown pos use
  | subscript pos use => exact at_agrees shown pos use
  | empty =>
    refine ⟨?_, shown⟩
    have same : var.empty = pair.working.isEmpty := by
      rw [SafeVector.empty, shown.size]
      cases pair.working with
      | nil => rfl
      | cons first rest => rfl
    exact congrArg (fun value => Except.ok (VectorReply.flag value)) same
  | size => exact ⟨congrArg (fun value => Except.ok (VectorReply.index value)) (check_shows shown).size, check_shows shown⟩
  | clear => exact ⟨rfl, clear_shows shown⟩
  | insert pos value =>
    refine passing_agrees shown pos fun next place ready here loaded _ => ?_
    refine passing_agrees ready value fun last new ready what loadedValue grows => ?_
    exact insert_agrees ready allowed here what (loaded.mono grows) loadedValue
  | erase pos => exact erase_agrees shown pos
  | eraseRange first last => exact eraseRange_agrees shown first last
  | pushBack value =>
    refine passing_agrees shown value fun next new ready what loaded _ => ?_
    rw [← Option.some.inj ((ready.holds.seen loaded).symm.trans what)]
    exact ⟨rfl, pushBack_shows ready _⟩
  | emplaceBack value => exact ⟨rfl, pushBack_shows shown value⟩
  | popBack => exact ⟨rfl, popBack_shows shown allowed⟩
  | resize count => exact ⟨rfl, resizeWith_shows shown count default⟩
  | resizeWith count value =>
    refine passing_agrees shown value fun next new ready what loaded _ => ?_
    rw [← Option.some.inj ((ready.holds.seen loaded).symm.trans what)]
    exact ⟨rfl, resizeWith_shows ready count _⟩
  | get => exact ⟨congrArg (fun values => Except.ok (VectorReply.elements values)) shown.committed, shown⟩
  | commit => exact ⟨rfl, commit_shows shown⟩
  | revert => exact ⟨rfl, revert_shows shown⟩

end Shown

private theorem simulates : Simulates (VectorPair.step (α := α)) SafeVector.step (fun pair var => Shows var pair) VectorPair.Allowed := by
  intro pair var call shown allowed
  obtain ⟨same, next⟩ := step_agrees shown call allowed
  exact ⟨same.symm, next⟩

private theorem start_shows (base : SafeBase) : Shows { ofOwner (α := α) with base } ⟨[], []⟩ :=
  ⟨rfl, rfl, fun _ => rfl, fun index _ => find_default index, nofun, nofun⟩

/-- No plain answer is that of an access behind the end of a vector. -/
theorem never_pastEnd (pair : VectorPair α) (call : VectorCall α) : (pair.step call).1 ≠ .error pastEnd := by
  have index : (Except.error "Index out of range" : VectorAnswer α) ≠ .error pastEnd := fun same => absurd (Except.error.inj same) (by decide)
  have pos : (Except.error "pos out of range" : VectorAnswer α) ≠ .error pastEnd := fun same => absurd (Except.error.inj same) (by decide)
  have passed {β : Type} {plain : β → VectorAnswer α × VectorPair α} (arg : VectorArg α β) (fine : ∀ value, (plain value).1 ≠ .error pastEnd) :
      (pair.passing plain arg).1 ≠ .error pastEnd := by
    unfold VectorPair.passing
    split
    · exact index
    · exact fine _
  have indices : (Except.error "Indices out of range" : VectorAnswer α) ≠ .error pastEnd := fun same => absurd (Except.error.inj same) (by decide)
  cases call with
  | «at» place use | subscript place use =>
    simp only [VectorPair.step, VectorPair.«at»]
    cases pair.working[place]? with
    | none => exact index
    | some value => exact nofun
  | insert place value =>
    refine passed place fun place => passed value fun value => ?_
    unfold VectorPair.insert
    split
    · exact nofun
    · exact pos
  | pushBack value | resizeWith count value => exact passed value fun _ => nofun
  | erase place =>
    simp only [VectorPair.step]
    split
    · exact nofun
    · exact index
  | eraseRange first last =>
    simp only [VectorPair.step]
    split
    · exact nofun
    · exact indices
  | _ => exact nofun

/-- A run in which nothing is popped from an empty vector is answered as by two ordinary vectors,
one of which `get` shows. No access goes behind the end of the committed one. -/
theorem runs_agree (base : SafeBase) (calls : List (VectorCall α)) (popped : Along VectorPair.step VectorPair.Allowed ⟨[], []⟩ calls) :
    answers SafeVector.step { ofOwner with base } calls = answers VectorPair.step ⟨[], []⟩ calls ∧
      ∀ answer ∈ answers SafeVector.step { ofOwner with base } calls, answer ≠ .error pastEnd := by
  have same := (simulates.run calls (start_shows base) popped).1
  constructor
  · exact same.symm
  · rw [← same]
    exact answers_forall never_pastEnd calls

end Views

/-- Elements are inserted, popped and erased, with a commit and a revert in between. The one that is inserted and its index are
elements of the vector. -/
abbrev shiftingCalls : List (VectorCall Nat) :=
  [.assignRange [1, 2], .commit, .insert (.own 0 id) (.own 1 id), .popBack, .«at» 2 id, .revert, .erase 0, .get]

theorem shifting_calls_agree :
    answers SafeVector.step { ofOwner with base := { owned := true, shouldRegister := true } } shiftingCalls =
      [.ok .done, .ok .done, .ok (.index 1), .ok .done, .error "Index out of range", .ok .done, .ok (.index 0), .ok (.elements [1, 2])] := by
  have steady : VectorPair.Steady [1, 2] (.own 0 id) (.own 1 id) := by
    intro place new here what _
    obtain rfl : 1 = place := Option.some.inj here
    obtain rfl : 2 = new := Option.some.inj what
    exact ⟨rfl, rfl⟩
  rw [(runs_agree _ shiftingCalls ⟨trivial, trivial, steady, (by decide : [1, 2, 2] ≠ []), trivial, trivial, trivial, trivial, trivial⟩).1]
  decide

/-- An element goes up before it is read, so that the one below it is inserted. -/
theorem own_element_moves : ¬ ∀ calls : List (VectorCall Nat), Along VectorPair.step (fun pair call => call = .popBack → pair.working ≠ []) ⟨[], []⟩ calls →
    answers SafeVector.step ofOwner calls = answers VectorPair.step ⟨[], []⟩ calls := by
  intro agree
  have same := agree [.assignRange [10, 20], .insert (.value 0) (.own 1 id), .«at» 0 id] ⟨nofun, nofun, nofun, trivial⟩
  have differ : answers SafeVector.step ofOwner [.assignRange [10, 20], .insert (.value 0) (.own 1 id), .«at» 0 id] ≠
      answers VectorPair.step ⟨[], []⟩ [.assignRange [10, 20], .insert (.value 0) (.own 1 id), .«at» 0 id] := by decide
  exact differ same

end OrbiterSDK.Proofs.VectorRefinement
