import OrbiterSDK.Lib.PrefixStore

/-! Variables of an object as areas of a store, each under a name of its own. What is written over an older save is
read back if every area gives each key one value and still has a value for each key of that save. -/

namespace Lib

namespace Table
variable {κ ν ι : Type} [Inhabited ν]

/-- The entries, as they are met when a map is walked. -/
def items (table : Table κ ν) : Set (κ × ν) := {item | item.1 ∈ table.keys ∧ item.2 = table.value item.1}

/-- The entries of the inner maps. -/
def nestedItems (table : Table κ (Table ι ν)) : Set (κ × ι × ν) :=
  {item | item.1 ∈ table.keys ∧ item.2 ∈ (table.value item.1).items}

/-- No inner map is empty. -/
def Filled (table : Table κ (Table ι ν)) : Prop := ∀ key ∈ table.keys, (table.value key).keys.Nonempty

/-- No inner map has two entries. -/
def Lone (table : Table κ (Table ι ν)) : Prop :=
  ∀ key, ∀ first ∈ (table.value key).keys, ∀ second ∈ (table.value key).keys, first = second

/-- Every entry of an inner map is still there. -/
structure Larger (before after : Table κ (Table ι ν)) : Prop where
  keys : ∀ key, (before.value key).keys ⊆ (after.value key).keys
  filled : before.Filled → after.Filled

theorem exists_items (table : Table κ ν) : ∃ walk : List (κ × ν), ∀ item, item ∈ walk ↔ item ∈ table.items := by
  refine ⟨table.keys.toList.map fun key => (key, table.value key), fun item => ?_⟩
  rw [List.mem_map]
  constructor
  · rintro ⟨key, member, rfl⟩
    exact ⟨Finset.mem_toList.mp member, rfl⟩
  · rintro ⟨member, value⟩
    exact ⟨item.1, Finset.mem_toList.mpr member, Prod.ext rfl value.symm⟩

theorem exists_nestedItems (table : Table κ (Table ι ν)) : ∃ walk : List (κ × ι × ν), ∀ item, item ∈ walk ↔ item ∈ table.nestedItems := by
  obtain ⟨outer, listed⟩ := table.exists_items
  choose inner walked using fun key => (table.value key).exists_items
  refine ⟨outer.flatMap fun entry => (inner entry.1).map fun item => (entry.1, item), fun item => ?_⟩
  rw [List.mem_flatMap]
  constructor
  · rintro ⟨entry, member, mapped⟩
    obtain ⟨found, inside, rfl⟩ := List.mem_map.mp mapped
    exact ⟨((listed entry).mp member).1, (walked entry.1 found).mp inside⟩
  · rintro ⟨member, inside⟩
    exact ⟨(item.1, table.value item.1), (listed _).mpr ⟨member, rfl⟩, List.mem_map.mpr ⟨item.2, (walked item.1 item.2).mpr inside, rfl⟩⟩

theorem Larger.refl (table : Table κ (Table ι ν)) : table.Larger table := ⟨fun _ => subset_rfl, id⟩

theorem Larger.trans {first second third : Table κ (Table ι ν)} (early : first.Larger second) (late : second.Larger third) :
    first.Larger third := ⟨fun key => (early.keys key).trans (late.keys key), late.filled ∘ early.filled⟩

variable [DecidableEq κ] [DecidableEq ι]

/-- Entries that are written one after another into an empty map. -/
def fill (written : List (κ × ν)) : Table κ ν := modifyEach Prod.fst (fun item _ => item.2) written default

def fillNested (written : List (κ × ι × ν)) : Table κ (Table ι ν) :=
  modifyEach Prod.fst (fun item inner => inner.modify item.2.1 fun _ => item.2.2) written default

theorem fill_items {table : Table κ ν} {written : List (κ × ν)} (listed : ∀ item, item ∈ written ↔ item ∈ table.items) :
    fill written = table := by
  apply eq_of_find
  intro key
  apply @foldl_wanted _ _ _ _ (fun filled : Table κ ν => filled.find key) fun item : κ × ν => item.1 = key
  · intro filled item member hit
    obtain ⟨inside, value⟩ := (listed item).mp member
    dsimp only
    rw [find_modify, if_pos hit.symm, value, ← hit, find, if_pos inside]
  · intro filled item _ missed
    rw [find_modify, if_neg (Ne.symm missed)]
  · intro none
    have outside : key ∉ table.keys := fun inside => none _ ((listed (key, table.value key)).mpr ⟨inside, rfl⟩) rfl
    rw [find, find, if_neg outside]
    rfl

theorem fillNested_items {table : Table κ (Table ι ν)} (filled : table.Filled) {written : List (κ × ι × ν)}
    (listed : ∀ item, item ∈ written ↔ item ∈ table.nestedItems) : fillNested written = table := by
  have keys : (fillNested written).keys = table.keys := by
    ext key
    rw [fillNested, modifyEach_keys, Finset.mem_union, List.mem_toFinset, List.mem_map]
    constructor
    · intro either
      cases either with
      | inl empty => cases empty
      | inr some =>
        obtain ⟨item, member, rfl⟩ := some
        exact ((listed item).mp member).1
    · intro inside
      obtain ⟨inner, member⟩ := filled key inside
      exact .inr ⟨(key, inner, (table.value key).value inner), (listed _).mpr ⟨inside, member, rfl⟩, rfl⟩
  apply Table.ext keys
  funext key
  apply eq_of_find
  intro inner
  apply @foldl_wanted _ _ _ _ (fun filled : Table κ (Table ι ν) => (filled.value key).find inner)
    fun item : κ × ι × ν => item.1 = key ∧ item.2.1 = inner
  · intro state item member hit
    obtain ⟨rfl, rfl⟩ := hit
    obtain ⟨_, inside, value⟩ := (listed item).mp member
    rw [modify_value_self, find_modify, if_pos rfl, value, find, if_pos inside]
  · intro state item _ missed
    rw [modify_value]
    by_cases same : key = item.1
    · have apart : inner ≠ item.2.1 := fun here => missed ⟨same.symm, here.symm⟩
      rw [if_pos same, find_modify, if_neg apart, same]
    · rw [if_neg same]
  · intro none
    have outside : inner ∉ (table.value key).keys := by
      intro member
      have inside : key ∈ table.keys := by
        by_contra outside
        rw [table.absent key outside] at member
        cases member
      exact none (key, inner, (table.value key).value inner) ((listed _).mpr ⟨inside, member, rfl⟩) ⟨rfl, rfl⟩
    rw [find, find, if_neg outside]
    rfl

theorem fill_keys {written : List (κ × ν)} {item : κ × ν} (member : item ∈ written) : item.1 ∈ (fill written).keys := by
  rw [fill, modifyEach_keys, Finset.mem_union, List.mem_toFinset]
  exact .inr (List.mem_map_of_mem member)

/-- Every entry of an inner map was written. -/
theorem fillNested_mem {written : List (κ × ι × ν)} {key : κ} {inner : ι} (member : inner ∈ ((fillNested written).value key).keys) :
    ∃ value, (key, inner, value) ∈ written := by
  by_contra none
  have missed : ∀ item ∈ written, ¬ (item.1 = key ∧ item.2.1 = inner) := by
    rintro ⟨_, _, value⟩ listed ⟨rfl, rfl⟩
    exact none ⟨value, listed⟩
  have keeps : ∀ (table : Table κ (Table ι ν)), ∀ item ∈ written, ¬ (item.1 = key ∧ item.2.1 = inner) →
      decide (inner ∈ ((table.modify item.1 fun entries => entries.modify item.2.1 fun _ => item.2.2).value key).keys) =
        decide (inner ∈ (table.value key).keys) := by
    intro table item _ miss
    rw [modify_value]
    by_cases same : key = item.1
    · have apart : inner ≠ item.2.1 := fun here => miss ⟨same.symm, here.symm⟩
      rw [if_pos same, modify_keys, same, decide_eq_decide, Finset.mem_insert]
      exact or_iff_right apart
    · rw [if_neg same]
  have still := @foldl_kept _ _ _ _ (fun table : Table κ (Table ι ν) => decide (inner ∈ (table.value key).keys)) _ _ keeps missed default
  have inside := of_decide_eq_true (still.symm.trans (decide_eq_true member))
  cases inside

omit [DecidableEq ι] in
theorem nestedItems_mem {table : Table κ (Table ι ν)} {key : κ} {inner : ι} (member : inner ∈ (table.value key).keys) :
    (key, inner, (table.value key).value inner) ∈ table.nestedItems := by
  refine ⟨?_, member, rfl⟩
  by_contra outside
  rw [table.absent key outside] at member
  cases member

omit [DecidableEq ι] in
/-- One inner map only gets larger, and then has an entry. -/
theorem larger_modify {table : Table κ (Table ι ν)} {key : κ} {update : Table ι ν → Table ι ν}
    (keys : (table.value key).keys ⊆ (update (table.value key)).keys) (some : (update (table.value key)).keys.Nonempty) :
    table.Larger (table.modify key update) := by
  constructor
  · intro other
    rw [modify_value]
    by_cases same : other = key
    · rw [if_pos same, same]
      exact keys
    · rw [if_neg same]
  · intro filled other inside
    rw [modify_value]
    by_cases same : other = key
    · rw [if_pos same]
      exact some
    · rw [if_neg same]
      rw [modify_keys] at inside
      exact filled other ((Finset.mem_insert.mp inside).resolve_left same)

/-- One entry is written. -/
theorem larger_entry (table : Table κ (Table ι ν)) (key : κ) (inner : ι) (change : ν → ν) :
    table.Larger (table.modify key fun entries => entries.modify inner change) := by
  apply larger_modify
  · rw [modify_keys]
    exact Finset.subset_insert _ _
  · rw [modify_keys]
    exact Finset.insert_nonempty _ _

end Table

namespace PrefixStore
variable {β ν δ : Type}

/-- The entries of a variable, whose keys stand behind its name. -/
structure Area (β ν : Type) where
  name : List β
  content : Set (List β × ν)

namespace Area

/-- The encodings of some items. -/
def of (name : List β) (encode : δ → List β × ν) (items : Set δ) : Area β ν := ⟨name, encode '' items⟩

/-- A single entry, whose key is the name. -/
def one (name : List β) (value : ν) : Area β ν := ⟨name, {([], value)}⟩

def keys (area : Area β ν) : Set (List β) := Prod.fst '' area.content

/-- No key has two values. -/
def Single (area : Area β ν) : Prop := ∀ {key first second}, (key, first) ∈ area.content → (key, second) ∈ area.content → first = second

theorem single_one (name : List β) (value : ν) : (one name value).Single := by
  intro key first second here again
  exact (Prod.mk.inj here).2.trans (Prod.mk.inj again).2.symm

theorem single_of {name : List β} {encode : δ → List β × ν} {items : Set δ}
    (distinct : ∀ first ∈ items, ∀ second ∈ items, (encode first).1 = (encode second).1 → first = second) :
    (of name encode items).Single := by
  rintro key first second ⟨item, member, here⟩ ⟨other, memberToo, again⟩
  have same := distinct item member other memberToo (by rw [here, again])
  rw [same, again] at here
  exact (Prod.mk.inj here).2.symm

variable {κ ι μ : Type} [Inhabited μ] {name : List β}

/-- Entries of a map under keys that tell them apart. -/
theorem single_items {table : Table κ μ} {encode : κ × μ → List β × ν} (code : κ → List β) (apart : Function.Injective code)
    (keyed : ∀ item, (encode item).1 = code item.1) : (of name encode table.items).Single := by
  apply single_of
  rintro ⟨key, value⟩ member ⟨other, value'⟩ memberToo same
  rw [keyed, keyed] at same
  obtain rfl : key = other := apart same
  rw [show value = table.value key from member.2, show value' = table.value key from memberToo.2]

theorem single_nestedItems {table : Table κ (Table ι μ)} {encode : κ × ι × μ → List β × ν} (code : κ × ι → List β)
    (apart : Function.Injective code) (keyed : ∀ item, (encode item).1 = code (item.1, item.2.1)) :
    (of name encode table.nestedItems).Single := by
  apply single_of
  rintro ⟨key, inner, value⟩ member ⟨other, inner', value'⟩ memberToo same
  rw [keyed, keyed] at same
  obtain ⟨rfl, rfl⟩ := Prod.mk.inj (apart same)
  rw [show value = (table.value key).value inner from member.2.2, show value' = (table.value key).value inner from memberToo.2.2]

/-- Entries that only their first key tells apart. -/
theorem single_loneItems {table : Table κ (Table ι μ)} {encode : κ × ι × μ → List β × ν} (code : κ → List β)
    (apart : Function.Injective code) (keyed : ∀ item, (encode item).1 = code item.1) (lone : table.Lone) :
    (of name encode table.nestedItems).Single := by
  apply single_of
  rintro ⟨key, inner, value⟩ member ⟨other, inner', value'⟩ memberToo same
  rw [keyed, keyed] at same
  obtain rfl : key = other := apart same
  obtain rfl : inner = inner' := lone key inner member.2.1 inner' memberToo.2.1
  rw [show value = (table.value key).value inner from member.2.2, show value' = (table.value key).value inner from memberToo.2.2]

theorem keys_items {before after : Table κ μ} {encode : κ × μ → List β × ν} (code : κ → List β)
    (keyed : ∀ item, (encode item).1 = code item.1) (larger : before.keys ⊆ after.keys) :
    (of name encode before.items).keys ⊆ (of name encode after.items).keys := by
  rintro _ ⟨_, ⟨item, member, rfl⟩, rfl⟩
  refine ⟨_, ⟨(item.1, after.value item.1), ⟨larger member.1, rfl⟩, rfl⟩, ?_⟩
  rw [keyed, keyed]

theorem keys_nestedItems [DecidableEq κ] [DecidableEq ι] {before after : Table κ (Table ι μ)} {encode : κ × ι × μ → List β × ν}
    (code : κ × ι → List β) (keyed : ∀ item, (encode item).1 = code (item.1, item.2.1)) (larger : before.Larger after) :
    (of name encode before.nestedItems).keys ⊆ (of name encode after.nestedItems).keys := by
  rintro _ ⟨_, ⟨item, member, rfl⟩, rfl⟩
  refine ⟨_, ⟨_, Table.nestedItems_mem (larger.keys item.1 member.2.1), rfl⟩, ?_⟩
  rw [keyed, keyed]

end Area

variable {pfx : List β} {area : Area β ν} {areas others : List (Area β ν)} {batch : List (List β × ν)}

/-- A batch with the entries of some areas. -/
def Writes (pfx : List β) (areas : List (Area β ν)) (batch : List (List β × ν)) : Prop :=
  ∀ entry, entry ∈ batch ↔ ∃ area ∈ areas, ∃ rest ∈ area.content, entry = (pfx ++ (area.name ++ rest.1), rest.2)

/-- No area's name begins with another's. -/
abbrev AllApart (areas : List (Area β ν)) : Prop := areas.Pairwise fun first second => Apart first.name second.name

theorem apart_of_ne {other : Area β ν} (apart : AllApart areas) (member : area ∈ areas)
    (memberToo : other ∈ areas) (differ : area ≠ other) : Apart area.name other.name := by
  have symm : Std.Symm fun first second : Area β ν => Apart first.name second.name := ⟨fun _ _ differ => ⟨differ.2, differ.1⟩⟩
  exact apart.forall member memberToo differ

/-- Areas are told apart by their names. -/
theorem eq_of_name {other : Area β ν} (apart : AllApart areas) (member : area ∈ areas)
    (memberToo : other ∈ areas) (same : area.name = other.name) : area = other := by
  by_contra differ
  exact (apart_of_ne apart member memberToo differ).1 (same ▸ List.prefix_rfl)

theorem Writes.mem (writes : Writes pfx areas batch) (apart : AllApart areas)
    (member : area ∈ areas) {key : List β} {value : ν} : (pfx ++ (area.name ++ key), value) ∈ batch ↔ (key, value) ∈ area.content := by
  constructor
  · intro written
    obtain ⟨other, listed, rest, inside, same⟩ := (writes _).mp written
    obtain ⟨keys, rfl⟩ := Prod.mk.inj same
    have keys := List.append_cancel_left keys
    by_cases own : area = other
    · subst own
      rw [List.append_cancel_left keys]
      exact inside
    · exact absurd keys ((apart_of_ne apart member listed own).ne key rest.1)
  · intro inside
    exact (writes _).mpr ⟨area, member, (key, value), inside, rfl⟩

theorem Writes.append {later : List (List β × ν)} (first : Writes pfx areas batch) (second : Writes pfx others later) :
    Writes pfx (areas ++ others) (batch ++ later) := by
  intro entry
  rw [List.mem_append, first, second]
  simp only [List.mem_append, or_and_right, exists_or]

theorem writes_one (pfx name : List β) (value : ν) : Writes pfx [.one name value] [(pfx ++ name, value)] := by
  intro entry
  simp [Area.one]

theorem writes_of {name : List β} {encode : δ → List β × ν} {items : Set δ} {walk : List δ} (walked : ∀ item, item ∈ walk ↔ item ∈ items) :
    Writes pfx [.of name encode items] (walk.map fun item => (pfx ++ name ++ (encode item).1, (encode item).2)) := by
  intro entry
  rw [List.mem_map]
  constructor
  · rintro ⟨item, member, rfl⟩
    exact ⟨_, List.mem_singleton_self _, encode item, ⟨item, (walked item).mp member, rfl⟩, by rw [List.append_assoc, Area.of]⟩
  · rintro ⟨area, member, rest, inside, rfl⟩
    cases List.mem_singleton.mp member
    obtain ⟨item, inside, rfl⟩ := inside
    exact ⟨item, (walked item).mpr inside, by rw [List.append_assoc, Area.of]⟩

variable [DecidableEq β] {store : PrefixStore β ν}

/-- The store holds these entries under the name. -/
def Exact (store : PrefixStore β ν) (pfx : List β) (area : Area β ν) : Prop :=
  ∀ key value, store.lookup (pfx ++ (area.name ++ key)) = some value ↔ (key, value) ∈ area.content

/-- Whatever the store holds under the name, there still is an entry with that key. -/
def Within (store : PrefixStore β ν) (pfx : List β) (area : Area β ν) : Prop :=
  ∀ key value, store.lookup (pfx ++ (area.name ++ key)) = some value → key ∈ area.keys

theorem Exact.congr {other : PrefixStore β ν} (exact_ : Exact store pfx area)
    (same : ∀ key, other.lookup (pfx ++ key) = store.lookup (pfx ++ key)) : Exact other pfx area := by
  intro key value
  rw [same]
  exact exact_ key value

theorem Within.congr {other : PrefixStore β ν} (within : Within store pfx area)
    (same : ∀ key, other.lookup (pfx ++ key) = store.lookup (pfx ++ key)) : Within other pfx area := by
  intro key value
  rw [same]
  exact within key value

/-- An area that still has the keys that another one had. -/
theorem Within.mono {other : Area β ν} (within : Within store pfx area) (name : other.name = area.name) (keys : area.keys ⊆ other.keys) :
    Within store pfx other := by
  intro key value
  rw [name]
  exact fun found => keys (within key value found)

theorem Exact.within (exact_ : Exact store pfx area) : Within store pfx area :=
  fun key value found => ⟨(key, value), (exact_ key value).mp found, rfl⟩

/-- What is written in one go over an older save. -/
theorem exact_putAll (writes : Writes pfx areas batch) (apart : AllApart areas)
    (single : ∀ area ∈ areas, area.Single) (within : ∀ area ∈ areas, Within store pfx area) :
    ∀ area ∈ areas, Exact (store.putAll batch) pfx area := by
  have once {key : List β} {first second : ν} (here : (key, first) ∈ batch) (again : (key, second) ∈ batch) : first = second := by
    obtain ⟨area, member, rest, inside, same⟩ := (writes _).mp here
    obtain ⟨rfl, rfl⟩ := Prod.mk.inj same
    exact single area member inside ((writes.mem apart member).mp again)
  intro area member key value
  rw [lookup_putAll_iff once, writes.mem apart member]
  constructor
  · intro either
    cases either with
    | inl inside => exact inside
    | inr older =>
      obtain ⟨⟨_, other⟩, inside, rfl⟩ := within area member key value older.2
      exact absurd ((writes.mem apart member).mpr inside) (older.1 other)
  · exact .inl

/-- Nothing is written under other names. -/
theorem exact_putAll_of_apart (writes : Writes pfx areas batch) (apart : ∀ written ∈ areas, Apart area.name written.name)
    (exact_ : Exact store pfx area) : Exact (store.putAll batch) pfx area := by
  intro key value
  rw [lookup_putAll_of_not_mem, exact_]
  intro entry member same
  obtain ⟨written, listed, rest, _, rfl⟩ := (writes _).mp member
  exact (apart written listed).ne key rest.1 (List.append_cancel_left same).symm

/-- A key of an area that is not written is not written by the other areas either. -/
theorem lookup_putAll_of_outside (writes : Writes pfx areas batch) (apart : AllApart areas)
    (member : area ∈ areas) {key : List β} (outside : key ∉ area.keys) :
    (store.putAll batch).lookup (pfx ++ (area.name ++ key)) = store.lookup (pfx ++ (area.name ++ key)) := by
  apply lookup_putAll_of_not_mem
  intro entry listed same
  have written : (pfx ++ (area.name ++ key), entry.2) ∈ batch := by
    rw [← same]
    exact listed
  exact outside ⟨_, (writes.mem apart member).mp written, rfl⟩

/-- A single value that was written. -/
theorem lookup_putAll_one {name : List β} {value : ν} (writes : Writes pfx areas batch)
    (apart : AllApart areas) (member : .one name value ∈ areas) :
    (store.putAll batch).lookup (pfx ++ name) = some value := by
  have written {other : ν} : (pfx ++ name, other) ∈ batch ↔ other = value := by
    have inside : (pfx ++ ((Area.one name value).name ++ []), other) ∈ batch ↔ ([], other) ∈ (Area.one name value).content :=
      writes.mem apart member
    rw [List.append_nil] at inside
    refine inside.trans ⟨?_, ?_⟩
    · exact fun same => (Prod.mk.inj same).2
    · exact fun same => Prod.ext rfl same
  apply lookup_putAll_of_mem (written.mpr rfl)
  rintro ⟨_, other⟩ listed rfl
  exact written.mp listed

/-- Under the name there are keys of this shape only. -/
def Shaped (store : PrefixStore β ν) (pfx name : List β) (shape : Set (List β)) : Prop :=
  ∀ key value, store.lookup (pfx ++ (name ++ key)) = some value → key ∈ shape

theorem Shaped.congr {other : PrefixStore β ν} {name : List β} {shape : Set (List β)} (shaped : Shaped store pfx name shape)
    (same : ∀ key, other.lookup (pfx ++ key) = store.lookup (pfx ++ key)) : Shaped other pfx name shape := by
  intro key value
  rw [same]
  exact shaped key value

/-- Nothing is written under the name. -/
theorem shaped_putAll_of_apart {name : List β} {shape : Set (List β)} (writes : Writes pfx areas batch)
    (apart : ∀ written ∈ areas, Apart name written.name) (shaped : Shaped store pfx name shape) : Shaped (store.putAll batch) pfx name shape := by
  intro key value found
  rw [lookup_putAll_of_not_mem] at found
  · exact shaped key value found
  · intro entry member same
    obtain ⟨written, listed, rest, _, rfl⟩ := (writes _).mp member
    exact (apart written listed).ne key rest.1 (List.append_cancel_left same).symm

/-- What is written under the name has such keys too. -/
theorem shaped_putAll {shape : Set (List β)} (writes : Writes pfx areas batch)
    (apart : AllApart areas) (member : area ∈ areas) (keys : area.keys ⊆ shape)
    (shaped : Shaped store pfx area.name shape) : Shaped (store.putAll batch) pfx area.name shape := by
  intro key value found
  by_cases inside : key ∈ area.keys
  · exact keys inside
  · rw [lookup_putAll_of_outside writes apart member inside] at found
    exact shaped key value found

theorem lookup_one {name : List β} {value : ν} (exact_ : Exact store pfx (.one name value)) : store.lookup (pfx ++ name) = some value := by
  have found := (exact_ [] value).mpr rfl
  rwa [show (Area.one name value).name ++ [] = name from List.append_nil name] at found

theorem mem_scan_iff [LT β] [DecidableLT β] (exact_ : Exact store pfx area) {entry : List β × ν} :
    entry ∈ store.scan (pfx ++ area.name) ↔ entry ∈ area.content := by
  rw [mem_scan, List.append_assoc]
  exact exact_ entry.1 entry.2

theorem scan_eq_of_length_le_one [LT β] [DecidableLT β] {entries : List (List β × ν)} (few : entries.length ≤ 1)
    (same : ∀ entry, entry ∈ store.scan pfx ↔ entry ∈ entries) : store.scan pfx = entries := by
  have distinct : (store.scan pfx).Nodup := scan_nodup.of_map
  cases entries with
  | nil => exact List.eq_nil_iff_forall_not_mem.mpr fun entry member => by cases (same entry).mp member
  | cons entry rest =>
    cases rest with
    | nil => exact List.perm_singleton.mp ((List.perm_ext_iff_of_nodup distinct (List.nodup_singleton entry)).mpr same)
    | cons other rest => exact absurd few (by simp)

/-- Reading all entries under a name. -/
theorem decode_items [LT β] [DecidableLT β] {ε : Type} {name : List β} {encode : δ → List β × ν} {items : Set δ}
    {decode : List β × ν → Except ε δ} (exact_ : Exact store pfx (.of name encode items))
    (decodes : ∀ item ∈ items, decode (encode item) = .ok item) :
    ∃ read, (store.scan (pfx ++ name)).mapM decode = .ok read ∧ ∀ item, item ∈ read ↔ item ∈ items := by
  have listed {entry : List β × ν} : entry ∈ store.scan (pfx ++ name) ↔ entry ∈ (Area.of name encode items).content := mem_scan_iff exact_
  have each : ∀ entry ∈ store.scan (pfx ++ name), ∃ item, decode entry = .ok item := by
    intro entry member
    obtain ⟨item, inside, rfl⟩ := listed.mp member
    exact ⟨item, decodes item inside⟩
  obtain ⟨read, done⟩ := mapM_ok each
  refine ⟨read, done, fun item => ?_⟩
  constructor
  · intro member
    obtain ⟨entry, there, decoded⟩ := mem_of_mapM done member
    obtain ⟨other, inside, rfl⟩ := listed.mp there
    rw [decodes other inside] at decoded
    exact Except.ok.inj decoded ▸ inside
  · intro inside
    obtain ⟨other, member, decoded⟩ := mapM_mem done (listed.mpr ⟨item, inside, rfl⟩)
    rw [decodes item inside] at decoded
    exact Except.ok.inj decoded ▸ member

/-- Where a key only says the first key of an entry, no first key is read twice. -/
theorem fillNested_lone [LT β] [DecidableLT β] {ε κ ι μ : Type} [Inhabited μ] [DecidableEq κ] [DecidableEq ι] {code : κ → List β}
    {decode : List β × ν → Except ε (κ × ι × μ)} {items : List (κ × ι × μ)} (done : (store.scan pfx).mapM decode = .ok items)
    (keyed : ∀ {entry item}, decode entry = .ok item → entry.1 = code item.1) : (Table.fillNested items).Lone := by
  intro key first here second there
  obtain ⟨value, member⟩ := Table.fillNested_mem here
  obtain ⟨value', memberToo⟩ := Table.fillNested_mem there
  obtain ⟨entry, scanned, decoded⟩ := mem_of_mapM done member
  obtain ⟨entry', scannedToo, decoded'⟩ := mem_of_mapM done memberToo
  obtain rfl : entry = entry' :=
    List.inj_on_of_nodup_map scan_nodup scanned scannedToo ((keyed decoded).trans (keyed decoded').symm)
  cases decoded.symm.trans decoded'
  rfl

/-- Keys of one shape are scanned once. -/
theorem scan_of_shaped [LT β] [DecidableLT β] {name key : List β} (shaped : Shaped store pfx name {key}) :
    (store.scan (pfx ++ name)).length ≤ 1 := by
  have each : ∀ scanned ∈ (store.scan (pfx ++ name)).map Prod.fst, scanned = key := by
    intro scanned member
    obtain ⟨entry, listed, rfl⟩ := List.mem_map.mp member
    have found := mem_scan.mp listed
    rw [List.append_assoc] at found
    exact shaped entry.1 entry.2 found
  have distinct : ((store.scan (pfx ++ name)).map Prod.fst).Nodup := scan_nodup
  rw [List.eq_replicate_of_mem each, List.nodup_replicate, List.length_map] at distinct
  exact distinct

/-! Writing areas one after another. -/

/-- The areas are written to the store, in some order. -/
def Stores (store : PrefixStore β ν) (pfx : List β) (areas : List (Area β ν)) (after : PrefixStore β ν) : Prop :=
  ∃ batch, Writes pfx areas batch ∧ after = store.putAll batch

variable {between after : PrefixStore β ν}

theorem Stores.trans (first : Stores store pfx areas between) (second : Stores between pfx others after) :
    Stores store pfx (areas ++ others) after := by
  obtain ⟨batch, writes, rfl⟩ := first
  obtain ⟨later, writesToo, rfl⟩ := second
  exact ⟨batch ++ later, writes.append writesToo, List.foldl_append.symm⟩

theorem stores_one (name : List β) (value : ν) : Stores store pfx [.one name value] (store.insert (pfx ++ name) value) :=
  ⟨_, writes_one pfx name value, rfl⟩

end PrefixStore
end Lib
