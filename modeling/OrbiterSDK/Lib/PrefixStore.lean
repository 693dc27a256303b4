import OrbiterSDK.Lib.Loops
import OrbiterSDK.Lib.Reader
import Mathlib.Data.List.AList
import Mathlib.Data.List.Sort
import Mathlib.Tactic.Common

/-! Stores whose keys are sequences, with scans over the keys that begin alike. What is
written under one prefix is found under that prefix only, unless one begins another. -/

namespace Lib

/-- A map with sequences as keys. -/
abbrev PrefixStore (β ν : Type) := AList fun _ : List β => ν

namespace PrefixStore
variable {β ν : Type}

/-- Prefixes neither of which begins the other. -/
def Apart (first second : List β) : Prop := ¬ first <+: second ∧ ¬ second <+: first

instance [DecidableEq β] (first second : List β) : Decidable (Apart first second) := inferInstanceAs (Decidable (_ ∧ _))

theorem Apart.ne {first second : List β} (apart : Apart first second) (left right : List β) : first ++ left ≠ second ++ right := by
  intro same
  have begins : first <+: second ++ right := same ▸ List.prefix_append first left
  cases List.prefix_or_prefix_of_prefix begins (List.prefix_append second right) with
  | inl inside => exact apart.1 inside
  | inr inside => exact apart.2 inside

/-! The order of keys that begin with parts of one length. -/

section Order
variable [LT β] {first second left right : List β}

theorem append_lt_append (size : first.length = second.length) (below : first < second) : first ++ left < second ++ right := by
  induction first generalizing second with
  | nil =>
    cases second with
    | nil => exact absurd below (List.not_lt_nil _)
    | cons _ _ => cases size
  | cons head rest ih =>
    cases second with
    | nil => cases size
    | cons other tail =>
      apply List.cons_lt_cons_iff.mpr
      cases List.cons_lt_cons_iff.mp below with
      | inl less => exact .inl less
      | inr equal => exact .inr ⟨equal.1, ih (Nat.succ.inj size) equal.2⟩

theorem lt_append (some : right ≠ []) : left < left ++ right := by
  cases right with
  | nil => exact absurd rfl some
  | cons head rest =>
    have less : left ++ [] < left ++ head :: rest := List.append_left_lt (List.nil_lt_cons head rest)
    rwa [List.append_nil] at less

theorem append_lt_append_left [Std.Irrefl (α := β) (· < ·)] (pfx : List β) : pfx ++ left < pfx ++ right ↔ left < right := by
  induction pfx with
  | nil => exact Iff.rfl
  | cons head rest ih =>
    apply List.cons_lt_cons_iff.trans
    constructor
    · intro either
      cases either with
      | inl less => exact absurd less (Std.Irrefl.irrefl head)
      | inr tails => exact ih.mp tails.2
    · exact fun less => .inr ⟨rfl, ih.mpr less⟩

/-- What lies between two keys begins as both of them do. -/
theorem prefix_of_between [LE β] [Std.IsLinearOrder β] [Std.LawfulOrderLT β] {key : List β} (pfx : List β)
    (low : pfx ++ left ≤ key) (high : key ≤ pfx ++ right) : pfx <+: key := by
  induction pfx generalizing key with
  | nil => exact List.nil_prefix
  | cons head rest ih =>
    cases key with
    | nil => exact absurd (List.nil_lt_cons _ _) low
    | cons other tail =>
      have notLess : ¬ other < head := fun less => low (List.cons_lt_cons_iff.mpr (.inl less))
      have notMore : ¬ head < other := fun more => high (List.cons_lt_cons_iff.mpr (.inl more))
      have same : head = other := Std.le_antisymm (Std.not_lt.mp notLess) (Std.not_lt.mp notMore)
      subst same
      apply List.cons_prefix_cons.mpr
      refine ⟨rfl, ih ?_ ?_⟩
      · exact fun less => low (List.cons_lt_cons_iff.mpr (.inr ⟨rfl, less⟩))
      · exact fun less => high (List.cons_lt_cons_iff.mpr (.inr ⟨rfl, less⟩))

end Order

variable [DecidableEq β]

/-- Several writes in one go. -/
def putAll (store : PrefixStore β ν) (batch : List (List β × ν)) : PrefixStore β ν :=
  batch.foldl (fun store entry => store.insert entry.1 entry.2) store

/-- The entries under a prefix, which is taken off their keys. -/
def under (store : PrefixStore β ν) (pfx : List β) : List (List β × ν) :=
  store.entries.filterMap fun entry => if pfx <+: entry.1 then some (entry.1.drop pfx.length, entry.2) else none

/-- The same in the order of their keys. -/
def scan [LT β] [DecidableLT β] (store : PrefixStore β ν) (pfx : List β) : List (List β × ν) :=
  (store.under pfx).insertionSort fun first second => first.1 ≤ second.1

section Writes
variable {store : PrefixStore β ν} {batch : List (List β × ν)} {key : List β}

theorem lookup_putAll_of_mem {value : ν} (member : (key, value) ∈ batch)
    (same : ∀ entry ∈ batch, entry.1 = key → entry.2 = value) : (store.putAll batch).lookup key = some value := by
  have writes : ∀ (store : PrefixStore β ν), ∀ entry ∈ batch, entry.1 = key →
      (store.insert entry.1 entry.2).lookup key = some value := by
    rintro store entry listed rfl
    rw [AList.lookup_insert, same entry listed rfl]
  apply foldl_written writes
  · exact fun store entry _ apart => AList.lookup_insert_ne (Ne.symm apart)
  · exact ⟨_, member, rfl⟩

theorem lookup_putAll_of_not_mem (unwritten : ∀ entry ∈ batch, entry.1 ≠ key) :
    (store.putAll batch).lookup key = store.lookup key := by
  have keeps : ∀ (store : PrefixStore β ν), ∀ entry ∈ batch, entry.1 ≠ key →
      (store.insert entry.1 entry.2).lookup key = store.lookup key :=
    fun store entry _ apart => AList.lookup_insert_ne (Ne.symm apart)
  exact foldl_kept keeps unwritten store

theorem lookup_putAll_isSome {value : ν} (member : (key, value) ∈ batch) : ((store.putAll batch).lookup key).isSome = true := by
  apply @foldl_written _ _ _ _ (fun store : PrefixStore β ν => (store.lookup key).isSome) fun entry => entry.1 = key
  · rintro store entry _ rfl
    rw [AList.lookup_insert]
    rfl
  · intro store entry _ apart
    rw [AList.lookup_insert_ne (Ne.symm apart)]
  · exact ⟨_, member, rfl⟩

/-- What is found after a batch that gives no key two values. -/
theorem lookup_putAll_iff {value : ν}
    (once : ∀ {key : List β} {first second : ν}, (key, first) ∈ batch → (key, second) ∈ batch → first = second) :
    (store.putAll batch).lookup key = some value ↔
      (key, value) ∈ batch ∨ (∀ other, (key, other) ∉ batch) ∧ store.lookup key = some value := by
  by_cases written : ∃ other, (key, other) ∈ batch
  · obtain ⟨other, member⟩ := written
    have found : (store.putAll batch).lookup key = some other := by
      apply lookup_putAll_of_mem member
      rintro ⟨_, third⟩ again rfl
      exact once again member
    rw [found]
    constructor
    · intro same
      cases same
      exact .inl member
    · intro either
      cases either with
      | inl again => exact congrArg some (once member again)
      | inr older => exact absurd member (older.1 other)
  · have unwritten : ∀ other, (key, other) ∉ batch := fun other member => written ⟨other, member⟩
    rw [lookup_putAll_of_not_mem]
    · constructor
      · exact fun found => .inr ⟨unwritten, found⟩
      · intro either
        cases either with
        | inl member => exact absurd member (unwritten value)
        | inr older => exact older.2
    · rintro ⟨_, other⟩ member rfl
      exact unwritten other member

end Writes

variable [LT β] [DecidableLT β] {store : PrefixStore β ν} {pfx : List β}

theorem mem_scan {key : List β} {value : ν} : (key, value) ∈ store.scan pfx ↔ store.lookup (pfx ++ key) = some value := by
  rw [← Option.mem_def, AList.mem_lookup_iff, scan, List.mem_insertionSort, under, List.mem_filterMap]
  constructor
  · rintro ⟨⟨whole, found⟩, member, kept⟩
    split at kept
    case isTrue begins =>
      obtain ⟨rest, rfl⟩ := begins
      cases kept
      rw [List.drop_left]
      exact member
    case isFalse => cases kept
  · intro member
    refine ⟨_, member, ?_⟩
    rw [if_pos (List.prefix_append pfx key), List.drop_left]

theorem scan_eq_nil (none : ∀ key, store.lookup (pfx ++ key) = none) : store.scan pfx = [] := by
  rw [List.eq_nil_iff_forall_not_mem]
  rintro ⟨key, value⟩ listed
  have found := mem_scan.mp listed
  rw [none key] at found
  cases found

/-- No key is there twice. -/
theorem scan_nodup : ((store.scan pfx).map Prod.fst).Nodup := by
  have under_nodup : ((store.under pfx).map Prod.fst).Nodup := by
    rw [under, List.map_filterMap]
    have whole {entry : (_ : List β) × ν} {key : List β} (kept : Option.map Prod.fst (if pfx <+: entry.1 then
        some (entry.1.drop pfx.length, entry.2) else none) = some key) : entry.1 = pfx ++ key := by
      split at kept
      case isTrue begins =>
        obtain ⟨rest, begins⟩ := begins
        rw [← begins, List.drop_left] at kept
        rw [← begins]
        exact congrArg _ (Option.some.inj kept)
      case isFalse => cases kept
    apply (List.nodupKeys_iff_pairwise.mp store.nodupKeys).filterMap
    intro first second differ key kept again keptToo same
    exact differ ((whole kept).trans (same ▸ (whole keptToo).symm))
  exact ((List.perm_insertionSort _ _).map Prod.fst).nodup_iff.mpr under_nodup

theorem scan_sorted [LE β] [Std.IsLinearOrder β] [Std.LawfulOrderLT β] :
    (store.scan pfx).Pairwise fun first second => first.1 ≤ second.1 := by
  have total : Std.Total fun first second : List β × ν => first.1 ≤ second.1 := ⟨fun first second => List.le_total _ _⟩
  have trans : IsTrans (List β × ν) fun first second => first.1 ≤ second.1 := ⟨fun _ _ _ => List.le_trans⟩
  exact List.pairwise_insertionSort _ _

/-! Reading all entries under a prefix, each of which is the encoding of one value. -/

section Decoding
variable {ε δ : Type}
variable {decode : List β × ν → Except ε δ} {encode : δ → List β × ν}

/-- Exactly the encodings are accepted. -/
def Decodes (decode : List β × ν → Except ε δ) (encode : δ → List β × ν) : Prop :=
  ∀ {entry value}, decode entry = .ok value ↔ entry = encode value

variable (codec : Decodes decode encode)
include codec

omit [DecidableEq β] [LT β] [DecidableLT β] in
theorem Decodes.injective {first second : δ} (same : encode first = encode second) : first = second :=
  Except.ok.inj ((codec.mpr rfl).symm.trans (codec.mpr same))

theorem decode_ok (encoded : ∀ {key value}, store.lookup (pfx ++ key) = some value → ∃ item, (key, value) = encode item) :
    ∃ items, (store.scan pfx).mapM decode = .ok items := by
  apply mapM_ok
  rintro ⟨key, value⟩ listed
  obtain ⟨item, same⟩ := encoded (mem_scan.mp listed)
  exact ⟨item, codec.mpr same⟩

variable {items : List δ} (decoded : (store.scan pfx).mapM decode = .ok items)
include decoded

theorem mem_decoded {item : δ} : item ∈ items ↔ store.lookup (pfx ++ (encode item).1) = some (encode item).2 := by
  constructor
  · intro member
    obtain ⟨entry, listed, read⟩ := mem_of_mapM decoded member
    rw [codec.mp read] at listed
    exact mem_scan.mp listed
  · intro found
    obtain ⟨other, member, read⟩ := mapM_mem decoded (mem_scan.mpr found)
    rw [codec.injective (codec.mp read)]
    exact member

theorem decoded_of_lookup {key : List β} {value : ν} (found : store.lookup (pfx ++ key) = some value) :
    ∃ item ∈ items, (key, value) = encode item := by
  obtain ⟨item, member, read⟩ := mapM_mem decoded (mem_scan.mpr found)
  exact ⟨item, member, codec.mp read⟩

end Decoding

end PrefixStore
end Lib
