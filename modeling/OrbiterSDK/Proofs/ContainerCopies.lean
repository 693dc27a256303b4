import OrbiterSDK.Proofs.VectorRefinement
import OrbiterSDK.Proofs.MapRefinement
import OrbiterSDK.Proofs.TupleRefinement

/-! What copies of safe containers answer. A copied vector has only what the map of its original
holds, a copied map loses the erased keys that were written again once it is committed, and a
copied tuple is compared by what is committed. -/

namespace OrbiterSDK.Proofs.ContainerCopies
open Lib MapRefinement

/-- A copy answers reads as its original does, and still does so once it is committed. The original goes on as before. -/
def AnswersAlike {σ ρ ο : Type} (answer : σ → ρ → ο) (copied : σ → σ × σ) (commit : σ → σ) (reads : Set ρ) (var : σ) : Prop :=
  ∀ read ∈ reads, answer (copied var).1 read = answer var read ∧ answer (commit (copied var).1) read = answer var read ∧
    answer (copied var).2 read = answer var read

section Vectors
variable {α : Type} [Inhabited α]

inductive VectorRead where
  | size
  | «at» (pos : Nat)
  | subscript (pos : Nat)
  | get
  deriving DecidableEq

def VectorRead.answer (var : SafeVector α) : VectorRead → VectorAnswer α
  | .size => (var.step .size).1
  | .«at» pos => (var.step (.«at» pos id)).1
  | .subscript pos => (var.step (.subscript pos id)).1
  | .get => (var.step .get).1

/-- All reads but `get`, which gives the committed vector. -/
def vectorReads : Set VectorRead := {read | read ≠ .get}

/-- An element as it is read. -/
def element (var : SafeVector α) (pos : Nat) : VectorAnswer α :=
  if var.check.maxIndex ≤ pos then .error "Index out of range"
  else match SafeVector.source var.vector var.written pos with
    | none => .error SafeVector.pastEnd
    | some value => .ok (.element value)

theorem at_element (var : SafeVector α) (pos : Nat) : (var.«at» pos id).1 = element var pos := by
  have checked : var.check.written = var.written := by
    cases overlay : var.tmp <;> simp [SafeVector.check, SafeVector.written, overlay]
  have behind : var.check.vector = var.vector := by
    cases overlay : var.tmp <;> simp [SafeVector.check, overlay]
  unfold SafeVector.«at» SafeVector.checkIndexAndCopy element SafeVector.source
  by_cases outside : var.check.maxIndex ≤ pos
  · simp only [if_pos outside]
  · simp only [if_neg outside, checked, behind]
    by_cases inside : pos ∈ var.written.keys
    · have found : var.written.find pos = some (var.written.value pos) := if_pos inside
      have contained : var.written.contains pos = true := contains_iff.mpr inside
      simp only [if_pos contained, found]
      exact congrArg (fun table : Table Nat α => Except.ok (VectorReply.element (table.value pos))) checked
    · have absent : var.written.find pos = none := if_neg inside
      have lacking : ¬ var.written.contains pos = true := fun found => inside (contains_iff.mp found)
      simp only [if_neg lacking, absent]
      cases var.vector[pos]? with
      | none => rfl
      | some value =>
        have copied : (var.check.put pos value).written.value pos = value := Table.modify_value_self var.check.written pos fun _ => value
        exact congrArg (fun value : α => (Except.ok (VectorReply.element value) : VectorAnswer α)) copied

private theorem check_maxIndex (var : SafeVector α) : var.check.check.maxIndex = var.check.maxIndex := by
  cases overlay : var.tmp <;> simp [SafeVector.check, overlay]

/-- What a vector answers, but for what is committed, are its size and its elements. -/
theorem alike_iff {var other : SafeVector α} : (∀ read ∈ vectorReads, read.answer other = read.answer var) ↔
    other.check.maxIndex = var.check.maxIndex ∧ ∀ pos < var.check.maxIndex, SafeVector.source other.vector other.written pos =
      SafeVector.source var.vector var.written pos := by
  constructor
  · intro alike
    have sizes : VectorReply.index (α := α) other.check.maxIndex = .index var.check.maxIndex := Except.ok.inj (alike .size (by simp [vectorReads]))
    have sizes := VectorReply.index.inj sizes
    refine ⟨sizes, fun pos inside => ?_⟩
    have reads := alike (.«at» pos) (by simp [vectorReads])
    have same : element other pos = element var pos := (at_element other pos).symm.trans (reads.trans (at_element var pos))
    simp only [element, sizes, if_neg (Nat.not_le.mpr inside)] at same
    cases first : SafeVector.source other.vector other.written pos <;> cases second : SafeVector.source var.vector var.written pos <;>
      simp_all
  · rintro ⟨sizes, elements⟩
    have same (pos : Nat) : element other pos = element var pos := by
      unfold element
      by_cases outside : var.check.maxIndex ≤ pos
      · simp only [sizes, if_pos outside]
      · simp only [sizes, if_neg outside, elements pos (Nat.not_le.mp outside)]
    intro read member
    cases read with
    | size => exact congrArg (fun size => (Except.ok (VectorReply.index size) : VectorAnswer α)) sizes
    | «at» pos => exact (at_element other pos).trans ((same pos).trans (at_element var pos).symm)
    | subscript pos => exact (at_element other pos).trans ((same pos).trans (at_element var pos).symm)
    | get => exact absurd rfl member

omit [Inhabited α] in
/-- Entries in ascending order that all stand behind the end of a vector are appended to it. -/
theorem commitEntry_appends (value : Nat → α) : ∀ {keys : List Nat} {vector : List α}, keys.Pairwise (· < ·) →
    (∀ key ∈ keys, vector.length ≤ key) →
    (keys.map fun index => (index, value index)).foldl SafeVector.commitEntry vector = vector ++ keys.map value := by
  intro keys
  induction keys with
  | nil =>
    intro vector _ _
    simp
  | cons key rest ih =>
    intro vector ascending behind
    obtain ⟨later, ascending⟩ := List.pairwise_cons.mp ascending
    have next : SafeVector.commitEntry vector (key, value key) = vector ++ [value key] :=
      if_neg (Nat.not_lt.mpr (behind key List.mem_cons_self))
    have others : ∀ other ∈ rest, (vector ++ [value key]).length ≤ other := by
      intro other member
      have here := behind key List.mem_cons_self
      have after := later other member
      simp only [List.length_append, List.length_singleton]
      omega
    simp only [List.map_cons, List.foldl_cons, next]
    simp [ih ascending others]

/-- A copy commits what stands in the map, wherever it belongs. -/
theorem copied_commit (var : SafeVector α) : var.copied.1.commit.vector = var.written.keys.sort.map var.written.value := by
  have entries : var.copied.1.commit.vector = (var.check.written.keys.sort.map fun index => (index, var.check.written.value index)).foldl
      SafeVector.commitEntry (([] : List α).take var.check.maxIndex) := rfl
  have behind : ∀ key ∈ var.written.keys.sort, ([] : List α).length ≤ key := fun _ _ => Nat.zero_le _
  have appended := commitEntry_appends var.written.value var.written.keys.sortedLT_sort.pairwise behind
  simpa [entries, SafeVector.check_written] using appended

theorem copied_alike (var : SafeVector α) : (∀ read ∈ vectorReads, read.answer var.copied.1 = read.answer var) ↔
    ∀ pos < var.check.maxIndex, SafeVector.source [] var.written pos = SafeVector.source var.vector var.written pos := by
  have copy : var.copied.1.written = var.written := SafeVector.check_written var
  have none : var.copied.1.vector = [] := rfl
  have sizes : var.copied.1.check.maxIndex = var.check.maxIndex := rfl
  simp only [alike_iff, copy, none, sizes, true_and]

theorem committed_alike (var : SafeVector α) : (∀ read ∈ vectorReads, read.answer var.copied.1.commit = read.answer var) ↔
    var.written.keys.card = var.check.maxIndex ∧ ∀ pos < var.check.maxIndex,
      SafeVector.source (var.written.keys.sort.map var.written.value) var.written pos = SafeVector.source var.vector var.written pos := by
  have copy : var.copied.1.commit.written = var.written := SafeVector.check_written var
  have behind := copied_commit var
  have sizes : var.copied.1.commit.check.maxIndex = var.copied.1.commit.vector.length := rfl
  simp only [alike_iff, copy, sizes, behind, List.length_map, Finset.length_sort]

/-- A copied vector answers as its original does if all elements stand in the map. -/
theorem vector_copies_iff (var : SafeVector α) : AnswersAlike (fun var read => VectorRead.answer var read) SafeVector.copied SafeVector.commit
    vectorReads var ↔ var.written.keys = Finset.range var.check.maxIndex := by
  have original : ∀ read ∈ vectorReads, read.answer var.copied.2 = read.answer var := by
    apply alike_iff.mpr
    refine ⟨check_maxIndex var, fun pos _ => ?_⟩
    cases overlay : var.tmp <;> simp [SafeVector.copied, SafeVector.check, SafeVector.written, overlay]
  have split : AnswersAlike (fun var read => VectorRead.answer var read) SafeVector.copied SafeVector.commit vectorReads var ↔
      (∀ read ∈ vectorReads, read.answer var.copied.1 = read.answer var) ∧
        ∀ read ∈ vectorReads, read.answer var.copied.1.commit = read.answer var := by
    constructor
    · intro alike
      exact ⟨fun read member => (alike read member).1, fun read member => (alike read member).2.1⟩
    · rintro ⟨copy, committed⟩ read member
      exact ⟨copy read member, committed read member, original read member⟩
  rw [split, copied_alike, committed_alike]
  constructor
  · rintro ⟨copies, count, commits⟩
    have covered : Finset.range var.check.maxIndex ⊆ var.written.keys := by
      intro pos inside
      have below := Finset.mem_range.mp inside
      by_contra outside
      have absent : var.written.find pos = none := if_neg outside
      have same := (copies pos below).trans (commits pos below).symm
      -- Neither has the map an entry there nor the empty vector, but the one that is committed.
      simp only [SafeVector.source, absent, List.getElem?_nil] at same
      have short := List.getElem?_eq_none_iff.mp same.symm
      simp only [List.length_map, Finset.length_sort] at short
      omega
    exact (Finset.eq_of_subset_of_card_le covered (by rw [count, Finset.card_range])).symm
  · intro whole
    have found (pos : Nat) (inside : pos < var.check.maxIndex) (vector : List α) :
        SafeVector.source vector var.written pos = some (var.written.value pos) := by
      have member : pos ∈ var.written.keys := whole ▸ Finset.mem_range.mpr inside
      have here : var.written.find pos = some (var.written.value pos) := if_pos member
      simp only [SafeVector.source, here]
    refine ⟨fun pos inside => ?_, ?_, fun pos inside => ?_⟩
    · simp only [found pos inside]
    · simp [whole]
    · simp only [found pos inside]

/-- With `get`, only of a vector that is empty and has been. -/
theorem vector_all_copies_iff (var : SafeVector α) : AnswersAlike (fun var read => VectorRead.answer var read) SafeVector.copied
    SafeVector.commit Set.univ var ↔ var.vector = [] ∧ var.written.keys = ∅ ∧ var.check.maxIndex = 0 := by
  have answer (other : SafeVector α) : VectorRead.answer other .get = .ok (.elements other.vector) := rfl
  have checked : var.copied.2.vector = var.vector := by
    cases overlay : var.tmp <;> simp [SafeVector.copied, SafeVector.check, overlay]
  constructor
  · intro alike
    have whole := (vector_copies_iff var).mp fun read _ => alike read trivial
    have reads := alike .get trivial
    simp only [answer, Except.ok.injEq, VectorReply.elements.injEq, copied_commit] at reads
    have none : var.vector = [] := reads.1.symm
    have empty : var.written.keys = ∅ := by
      have length := congrArg List.length (reads.2.1.trans none)
      simpa using length
    refine ⟨none, empty, ?_⟩
    rw [empty] at whole
    exact Finset.range_eq_empty_iff.mp whole.symm
  · rintro ⟨none, empty, start⟩ read _
    have whole : var.written.keys = Finset.range var.check.maxIndex := by simp [empty, start]
    by_cases live : read ∈ vectorReads
    · exact (vector_copies_iff var).mpr whole read live
    · have same : read = .get := not_not.mp live
      cases same
      have committed : var.copied.1.commit.vector = [] := by simp [copied_commit, empty]
      have copy : var.copied.1.vector = [] := rfl
      simp only [answer, copy, committed, checked, none, and_self]

end Vectors

section Maps
variable {κ ν : Type} [DecidableEq κ] [Inhabited ν]

inductive MapRead (κ : Type) where
  | find (key : κ)
  | contains (key : κ)
  | count (key : κ)
  | «at» (key : κ)
  | subscript (key : κ)
  | size

def MapRead.answer (var : SafeUnorderedMap κ ν) : MapRead κ → MapAnswer ν
  | .find key => (var.step (.find key id)).1
  | .contains key => (var.step (.contains key)).1
  | .count key => (var.step (.count key)).1
  | .«at» key => (var.step (.«at» key id)).1
  | .subscript key => (var.step (.subscript key id)).1
  | .size => .ok (.size var.size.1)

/-- All reads but `size`, which is that of the committed map. -/
def mapReads : Set (MapRead κ) := {read | read ≠ .size}

/-- An answer as it follows from what can be found. -/
def seen (view : κ → Option ν) : MapRead κ → MapAnswer ν
  | .find key => .ok (.entry (view key))
  | .contains key => .ok (.flag (view key).isSome)
  | .count key => .ok (.size (if (view key).isSome then 1 else 0))
  | .«at» key =>
    match view key with
    | none => .error "Key not found"
    | some value => .ok (.entry (some value))
  | .subscript key => .ok (.entry (some ((view key).getD default)))
  | .size => .ok .done

theorem find_seen (var : SafeUnorderedMap κ ν) (key : κ) : (var.find key id).1 = .ok (.entry (var.visible key)) := by
  have loaded : (var.checkKeyAndCopy key).markAsUsed.written.find key = var.visible key := checkKeyAndCopy_visible var key
  simp only [SafeUnorderedMap.find, loaded]
  cases var.visible key <;> rfl

private theorem contains_seen (var : SafeUnorderedMap κ ν) (key : κ) :
    (var.checkKeyAndCopy key).written.contains key = (var.visible key).isSome := by
  have loaded := checkKeyAndCopy_visible var key
  rw [← loaded]
  by_cases inside : key ∈ (var.checkKeyAndCopy key).written.keys <;> simp [Table.contains, Table.find, inside]

theorem at_seen (var : SafeUnorderedMap κ ν) (key : κ) : (var.«at» key id).1 = seen var.visible (.«at» key) := by
  have loaded := checkKeyAndCopy_visible var key
  simp only [SafeUnorderedMap.«at», checkKeyAndThrow_eq, seen]
  cases found : var.visible key with
  | none => rfl
  | some value =>
    rw [found] at loaded
    exact congrArg (fun value => (Except.ok (MapReply.entry (some value)) : MapAnswer ν)) (Table.find_eq_some loaded).2

theorem subscript_seen (var : SafeUnorderedMap κ ν) (key : κ) : (var.subscript key id).1 = seen var.visible (.subscript key) := by
  have loaded := checkKeyAndCopy_visible var key
  have answer : (var.subscript key id).1 = .ok (.entry (some ((var.checkKeyAndCreate key).written.value key))) := rfl
  simp only [answer, checkKeyAndCreate_eq, seen]
  cases found : var.visible key with
  | none =>
    have made : (var.check.write key fun _ => default).written.value key = default :=
      Table.modify_value_self var.check.written key fun _ => default
    exact congrArg (fun value => (Except.ok (MapReply.entry (some value)) : MapAnswer ν)) made
  | some value =>
    rw [found] at loaded
    exact congrArg (fun value => (Except.ok (MapReply.entry (some value)) : MapAnswer ν)) (Table.find_eq_some loaded).2

theorem answer_seen (var : SafeUnorderedMap κ ν) {read : MapRead κ} (live : read ∈ mapReads) : read.answer var = seen var.visible read := by
  have contained := contains_seen var
  cases read with
  | find key => exact find_seen var key
  | contains key => exact congrArg (fun flag => (Except.ok (MapReply.flag flag) : MapAnswer ν)) (contained key)
  | count key => exact congrArg (fun flag => (Except.ok (MapReply.size (if flag = true then 1 else 0)) : MapAnswer ν)) (contained key)
  | «at» key => exact at_seen var key
  | subscript key => exact subscript_seen var key
  | size => exact absurd rfl live

theorem lookups_alike_iff {var other : SafeUnorderedMap κ ν} :
    (∀ read ∈ mapReads, read.answer other = read.answer var) ↔ ∀ key, other.visible key = var.visible key := by
  constructor
  · intro alike key
    have same := (find_seen other key).symm.trans ((alike (.find key) (by simp [mapReads])).trans (find_seen var key))
    exact MapReply.entry.inj (Except.ok.inj same)
  · intro same read live
    simp only [answer_seen _ live, funext same]

private theorem copied_commit_visible (var : SafeUnorderedMap κ ν) (key : κ) : var.copied.1.commit.visible key =
    if key ∈ var.erased then none else if key ∈ var.written.keys then some (var.written.value key) else var.map.find key := by
  have gone : ∀ other ∈ var.copied.1.commit.erased, var.copied.1.commit.map.find other = none :=
    fun other erased => (committed_find var.copied.1 other).trans (if_pos erased)
  exact (visible_level rfl gone key).trans (committed_find var.copied.1 key)

/-- A copied map is looked up as its original is if no erased key has been written again. -/
theorem map_lookups_iff (var : SafeUnorderedMap κ ν) : AnswersAlike (fun var read => MapRead.answer var read) SafeUnorderedMap.copied
    SafeUnorderedMap.commit mapReads var ↔ Apart var := by
  have copy : ∀ read ∈ mapReads, read.answer var.copied.1 = read.answer var := lookups_alike_iff.mpr fun _ => rfl
  have original : ∀ read ∈ mapReads, read.answer var.copied.2 = read.answer var := lookups_alike_iff.mpr fun _ => rfl
  have split : AnswersAlike (fun var read => MapRead.answer var read) SafeUnorderedMap.copied SafeUnorderedMap.commit mapReads var ↔
      ∀ key, var.copied.1.commit.visible key = var.visible key := by
    rw [← lookups_alike_iff]
    exact ⟨fun alike read live => (alike read live).2.1, fun same read live => ⟨copy read live, same read live, original read live⟩⟩
  rw [split]
  constructor
  · intro same key erased inside
    have lost := (copied_commit_visible var key).symm.trans (same key)
    have found : var.written.find key = some (var.written.value key) := if_pos inside
    rw [if_pos erased, visible_written found] at lost
    cases lost
  · intro apart key
    rw [copied_commit_visible]
    by_cases inside : key ∈ var.written.keys
    · have found : var.written.find key = some (var.written.value key) := if_pos inside
      have kept : key ∉ var.erased := fun erased => apart key erased inside
      rw [visible_written found, if_neg kept, if_pos inside]
    · rw [visible_unwritten inside, if_neg inside]

theorem copied_commit_size (var : SafeUnorderedMap κ ν) :
    var.copied.1.commit.size.1 = ((var.map.keys ∪ var.written.keys) \ var.erased).card := by
  apply congrArg Finset.card
  ext key
  rw [← Table.find_isSome, committed_find var.copied.1 key]
  by_cases erased : key ∈ var.erased
  · have gone : key ∈ var.copied.1.erased := erased
    simp [gone, erased]
  · have kept : key ∉ var.copied.1.erased := erased
    by_cases inside : key ∈ var.written.keys
    · have there : key ∈ var.copied.1.written.keys := inside
      simp [kept, erased, there, inside]
    · have outside : key ∉ var.copied.1.written.keys := inside
      have same : var.copied.1.map = var.map := rfl
      simp only [if_neg kept, if_neg outside, same, Table.find_isSome]
      simp [erased, inside]

/-- With `size`, if besides as many keys are new as are gone. -/
theorem map_all_copies_iff (var : SafeUnorderedMap κ ν) : AnswersAlike (fun var read => MapRead.answer var read) SafeUnorderedMap.copied
    SafeUnorderedMap.commit Set.univ var ↔ Apart var ∧ ((var.map.keys ∪ var.written.keys) \ var.erased).card = var.map.keys.card := by
  have answer (other : SafeUnorderedMap κ ν) : MapRead.answer other .size = .ok (.size other.size.1) := rfl
  constructor
  · intro alike
    refine ⟨(map_lookups_iff var).mp fun read _ => alike read trivial, ?_⟩
    have sizes := (alike .size trivial).2.1
    simp only [answer, Except.ok.injEq, MapReply.size.injEq, copied_commit_size] at sizes
    exact sizes
  · rintro ⟨apart, sizes⟩ read _
    by_cases live : read ∈ mapReads
    · exact (map_lookups_iff var).mpr apart read live
    · have same : read = .size := not_not.mp live
      cases same
      have committed : var.copied.1.commit.size.1 = var.size.1 := (copied_commit_size var).trans sizes
      refine ⟨rfl, ?_, rfl⟩
      simp only [answer, committed]

end Maps

section Tuples
variable {n : Nat} {Types : Fin n → Type} [∀ index, DecidableEq (Types index)] [∀ index, LT (Types index)]
  [∀ index, DecidableLT (Types index)]

/-- The reads of a tuple, which may stand on either side of a comparison with another one. -/
inductive TupleRead (Types : Fin n → Type) where
  | get (index : Fin n)
  | compare (comparison : TupleComparison) (other : SafeTuple Types)
  | compareBy (comparison : TupleComparison) (other : SafeTuple Types)

/-- The variable that is read, and another one. -/
def beside (var other : SafeTuple Types) : Bool → SafeTuple Types
  | true => var
  | false => other

def TupleRead.answer (var : SafeTuple Types) : TupleRead Types → TupleReply Types
  | .get index => (SafeTuple.step (beside var var) (.get true index id)).1
  | .compare comparison other => (SafeTuple.step (beside var other) (.compare comparison true false)).1
  | .compareBy comparison other => (SafeTuple.step (beside var other) (.compare comparison false true)).1

/-- An answer as it follows from the working and the committed tuple. -/
private theorem answer_tuples (var : SafeTuple Types) (read : TupleRead Types) : read.answer var = match read with
    | .get index => .element index (var.written index)
    | .compare comparison other => .flag (Tuple.compare comparison var.tuple other.tuple)
    | .compareBy comparison other => .flag (Tuple.compare comparison other.tuple var.tuple) := by
  cases read <;> rfl

/-- A copied tuple answers as its original does if nothing is written that is not committed. -/
theorem tuple_copies_iff (var : SafeTuple Types) : AnswersAlike (fun var read => TupleRead.answer var read) SafeTuple.copied SafeTuple.commit
    Set.univ var ↔ var.Settled := by
  have written : var.copied.1.commit.written = var.written := rfl
  have committed : var.copied.1.commit.tuple = var.written := rfl
  constructor
  · intro alike
    have same := (alike (.compare .eq { base := var.base, tuple := var.tuple }) trivial).2.1
    simp only [answer_tuples, committed, Tuple.compare, TupleReply.flag.injEq, decide_true, decide_eq_true_eq] at same
    exact same
  · intro settled read _
    have tuple : var.copied.1.commit.tuple = var.tuple := committed.trans settled
    refine ⟨?_, ?_, ?_⟩
    · cases read <;> rfl
    · cases read <;> simp only [answer_tuples, written, tuple]
    · cases read <;> rfl

end Tuples

/-- When copies answer all reads as their originals do, at once and once they are committed, for vectors, maps and
tuples in any state, and for vectors and maps also without the reads of what is committed alone. -/
theorem copies_answer_alike_iff {α κ ν : Type} [Inhabited α] [DecidableEq κ] [Inhabited ν] {n : Nat} {Types : Fin n → Type}
    [∀ index, DecidableEq (Types index)] [∀ index, LT (Types index)] [∀ index, DecidableLT (Types index)] :
    (∀ var : SafeVector α,
      (AnswersAlike (fun var read => VectorRead.answer var read) SafeVector.copied SafeVector.commit vectorReads var ↔
        var.written.keys = Finset.range var.check.maxIndex) ∧
      (AnswersAlike (fun var read => VectorRead.answer var read) SafeVector.copied SafeVector.commit Set.univ var ↔
        var.vector = [] ∧ var.written.keys = ∅ ∧ var.check.maxIndex = 0)) ∧
    (∀ var : SafeUnorderedMap κ ν,
      (AnswersAlike (fun var read => MapRead.answer var read) SafeUnorderedMap.copied SafeUnorderedMap.commit mapReads var ↔ Apart var) ∧
      (AnswersAlike (fun var read => MapRead.answer var read) SafeUnorderedMap.copied SafeUnorderedMap.commit Set.univ var ↔
        Apart var ∧ ((var.map.keys ∪ var.written.keys) \ var.erased).card = var.map.keys.card)) ∧
    ∀ var : SafeTuple Types,
      AnswersAlike (fun var read => TupleRead.answer var read) SafeTuple.copied SafeTuple.commit Set.univ var ↔ var.Settled :=
  ⟨fun var => ⟨vector_copies_iff var, vector_all_copies_iff var⟩, fun var => ⟨map_lookups_iff var, map_all_copies_iff var⟩, tuple_copies_iff⟩

/-- A vector of one element that has been committed and reverted. -/
abbrev settledVector : SafeVector Nat := after SafeVector.step SafeVector.ofOwner [.pushBack (.value 5), .commit, .revert]

/-- Its copy has the size of it and no element, and none at all once it is committed. -/
theorem committed_elements_are_left_behind :
    VectorRead.answer settledVector (.«at» 0) = .ok (.element 5) ∧
      VectorRead.answer settledVector.copied.1 .size = .ok (.index 1) ∧
      VectorRead.answer settledVector.copied.1 (.«at» 0) = .error SafeVector.pastEnd ∧
      VectorRead.answer settledVector.copied.1.commit .size = .ok (.index 0) ∧
      ¬ AnswersAlike (fun var read => VectorRead.answer var read) SafeVector.copied SafeVector.commit vectorReads settledVector := by
  have lost : VectorRead.answer settledVector.copied.1 (.«at» 0) ≠ VectorRead.answer settledVector (.«at» 0) := by decide +kernel
  refine ⟨by decide +kernel, by decide +kernel, by decide +kernel, by decide +kernel, fun alike => lost (alike (.«at» 0) (by simp [vectorReads])).1⟩

end OrbiterSDK.Proofs.ContainerCopies
