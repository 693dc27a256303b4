import OrbiterSDK.Proofs.EventRuns

/-! The events of a range of blocks, asked for by address and topics. -/

namespace OrbiterSDK.Proofs.Logs
open Lib PrefixStore MultiIndex EventManager Utils EventTexts EventRuns

variable {json : JsonLibrary} {caps : EventCaps} {history : List Emitter} {manager : EventManager} {db : DB} {event : Event}

structure Query where
  fromBlock : UInt64
  toBlock : UInt64
  address : Address
  topics : List Hash

namespace Query
variable (query : Query)

def Ranges (event : Event) : Prop :=
  query.fromBlock.toNat ≤ event.blockIndex.toNat ∧ event.blockIndex.toNat ≤ query.toBlock.toNat

def Addresses (event : Event) : Prop := query.address = 0 ∨ event.address = query.address

def Matches (event : Event) : Prop := (query.Ranges event ∧ query.Addresses event) ∧ query.topics <+: event.topics

instance : DecidablePred query.Ranges := fun _ => inferInstanceAs (Decidable (_ ∧ _))

instance : DecidablePred query.Addresses := fun _ => inferInstanceAs (Decidable (_ ∨ _))

instance : DecidablePred query.Matches := fun _ => inferInstanceAs (Decidable (_ ∧ _))

def run (json : JsonLibrary) (caps : EventCaps) (manager : EventManager) (db : DB) : Except Exception (List Event) :=
  getEvents json caps manager db query.fromBlock query.toBlock query.address query.topics

end Query

theorem matchTopics_iff {topics : List Hash} : matchTopics event topics = true ↔ topics <+: event.topics := by
  have pairs : ∀ {first second : List Hash}, first.length ≤ second.length →
      ((first.zip second).all (fun pair => pair.1 = pair.2) = true ↔ first <+: second) := by
    intro first
    induction first with
    | nil => exact fun _ => ⟨fun _ => List.nil_prefix, fun _ => rfl⟩
    | cons head rest ih =>
      intro second enough
      cases second with
      | nil => cases enough
      | cons other tail =>
        rw [List.zip_cons_cons, List.all_cons, Bool.and_eq_true, ih (Nat.le_of_succ_le_succ enough), List.cons_prefix_cons,
          decide_eq_true_eq]
  unfold matchTopics
  split
  case isTrue empty =>
    rw [List.isEmpty_iff.mp empty]
    exact ⟨fun _ => List.nil_prefix, fun _ => rfl⟩
  case isFalse =>
    split
    case isTrue short => exact ⟨nofun, fun begins => absurd begins.length_le (not_le.mpr short)⟩
    case isFalse enough => exact pairs (not_lt.mp enough)

/-- The events of the memory that are answered. -/
def remembered (manager : EventManager) (query : Query) : List Event :=
  (filterFromMemory manager query.fromBlock query.toBlock query.address).filter fun e => matchTopics e query.topics

/-- Every event of a greater address that the query would match but for the address is behind an event of an address
in between that is above the range. -/
def Fenced (manager : EventManager) (query : Query) : Prop :=
  query.address ≠ 0 → ∀ event ∈ manager.events, query.address.toNat < event.address.toNat → query.Ranges event →
    query.topics <+: event.topics → ∃ other ∈ manager.events, query.address.toNat ≤ other.address.toNat ∧
      other.address.toNat < event.address.toNat ∧ query.toBlock.toNat < other.blockIndex.toNat

section Memory
variable (kept : Kept json history manager db) {query : Query}
include kept

theorem mem_walk {address : Address} {limit : UInt64} :
    event ∈ (lowerBound (fun event : Event => event.address.toNat) address.toNat manager.events).takeWhile
      (fun event => event.blockIndex.toNat ≤ limit.toNat) ↔
    (event ∈ manager.events ∧ address.toNat ≤ event.address.toNat) ∧ event.blockIndex.toNat ≤ limit.toNat ∧
      ∀ other ∈ manager.events, address.toNat ≤ other.address.toNat → other.address.toNat < event.address.toNat →
        other.blockIndex.toNat ≤ limit.toNat := by
  have stable : (lowerBound (fun event : Event => event.address.toNat) address.toNat manager.events).Pairwise fun first second =>
      first.address.toNat < second.address.toNat ∨
        first.address.toNat = second.address.toNat ∧ first.blockIndex.toNat ≤ second.blockIndex.toNat :=
    (ordered_stable (kept.rising.imp blockIndex_le_of_key)).sublist (List.dropWhile_sublist _)
  rw [mem_takeWhile_iff stable, mem_lowerBound]
  apply and_congr_right'
  apply and_congr_right'
  constructor
  · exact fun clear other inside above => clear other (mem_lowerBound.mpr ⟨inside, above⟩)
  · exact fun clear other walked => clear other (mem_lowerBound.mp walked).1 (mem_lowerBound.mp walked).2

theorem remembered_nodup : (remembered manager query).Nodup := by
  have nodup : manager.events.Nodup := kept.rising.nodup
  apply List.Nodup.filter
  unfold filterFromMemory
  split
  case isTrue =>
    apply List.Nodup.filter
    apply List.Nodup.sublist (List.takeWhile_sublist _)
    exact (perm_ordered.nodup_iff.mpr nodup).sublist (List.dropWhile_sublist _)
  case isFalse => exact (perm_ordered.nodup_iff.mpr nodup).filter _

omit kept in
theorem mem_remembered_any (any : query.address = 0) :
    event ∈ remembered manager query ↔ event ∈ manager.events ∧ query.Matches event := by
  unfold remembered filterFromMemory
  rw [if_neg (not_not.mpr any), List.mem_filter, matchTopics_iff, List.mem_filter, decide_eq_true_eq]
  constructor
  · intro found
    exact ⟨mem_ordered.mp found.1.1, ⟨found.1.2, .inl any⟩, found.2⟩
  · intro found
    exact ⟨⟨mem_ordered.mpr found.1, found.2.1.1⟩, found.2.2⟩

theorem mem_remembered_address (given : query.address ≠ 0) :
    event ∈ remembered manager query ↔ ((event ∈ manager.events ∧ query.address.toNat ≤ event.address.toNat) ∧ query.Ranges event ∧
      query.topics <+: event.topics) ∧ ∀ other ∈ manager.events, query.address.toNat ≤ other.address.toNat →
        other.address.toNat < event.address.toNat → other.blockIndex.toNat ≤ query.toBlock.toNat := by
  unfold remembered filterFromMemory
  rw [if_pos given, List.mem_filter, matchTopics_iff, List.mem_filter, decide_eq_true_eq, mem_walk kept]
  constructor
  · intro found
    exact ⟨⟨found.1.1.1, ⟨found.1.2, found.1.1.2.1⟩, found.2⟩, found.1.1.2.2⟩
  · intro found
    exact ⟨⟨⟨found.1.1, found.1.2.1.2, found.2⟩, found.1.2.1.1⟩, found.1.2.2⟩

theorem remembered_complete (inside : event ∈ manager.events) (wanted : query.Matches event) :
    event ∈ remembered manager query := by
  by_cases any : query.address = 0
  · exact (mem_remembered_any any).mpr ⟨inside, wanted⟩
  · have same : event.address = query.address := wanted.1.2.resolve_left any
    apply (mem_remembered_address kept any).mpr
    refine ⟨⟨⟨inside, (congrArg BitVec.toNat same).ge⟩, wanted.1.1, wanted.2⟩, fun other _ above below => ?_⟩
    rw [same] at below
    exact absurd below (not_lt.mpr above)

theorem remembered_exact_iff : (∀ event ∈ remembered manager query, query.Matches event) ↔ Fenced manager query := by
  constructor
  · intro exact_ given event inside greater ranges begins
    by_contra unfenced
    have walked : event ∈ remembered manager query := by
      apply (mem_remembered_address kept given).mpr
      refine ⟨⟨⟨inside, greater.le⟩, ranges, begins⟩, fun other there above below => ?_⟩
      apply not_lt.mp
      exact fun beyond => unfenced ⟨other, there, above, below, beyond⟩
    have same := (exact_ event walked).1.2.resolve_left given
    rw [same] at greater
    exact Nat.lt_irrefl _ greater
  · intro fenced event walked
    by_cases any : query.address = 0
    · exact ((mem_remembered_any any).mp walked).2
    · obtain ⟨⟨⟨inside, above⟩, ranges, begins⟩, clear⟩ := (mem_remembered_address kept any).mp walked
      refine ⟨⟨ranges, .inr ?_⟩, begins⟩
      cases Nat.eq_or_lt_of_le above with
      | inl same => exact (BitVec.eq_of_toNat_eq same).symm
      | inr greater =>
        obtain ⟨other, there, least, less, beyond⟩ := fenced any event inside greater ranges begins
        exact absurd (clear other there least less) (not_le.mpr beyond)

/-- The memory has exactly what is asked for, each once. -/
theorem remembered_perm_iff : (remembered manager query).Perm ((history.flatMap committed).filter query.Matches) ↔ Fenced manager query := by
  have nodup : (history.flatMap committed).Nodup := kept.perm.nodup_iff.mp kept.rising.nodup
  rw [← remembered_exact_iff kept, List.perm_ext_iff_of_nodup (remembered_nodup kept) (nodup.filter _)]
  constructor
  · intro same event walked
    exact of_decide_eq_true (List.mem_filter.mp ((same event).mp walked)).2
  · intro exact_ event
    rw [List.mem_filter, decide_eq_true_eq, ← kept.perm.mem_iff]
    constructor
    · intro walked
      have wanted := exact_ event walked
      refine ⟨?_, wanted⟩
      by_cases any : query.address = 0
      · exact ((mem_remembered_any any).mp walked).1
      · exact ((mem_remembered_address kept any).mp walked).1.1.1
    · exact fun found => remembered_complete kept found.1 found.2

end Memory

theorem mem_getKeys {pfx start last key : Bytes} : key ∈ db.getKeys pfx start last ↔
    (∃ value, db.lookup (pfx ++ key) = some value) ∧ start ≤ key ∧ key ≤ last := by
  unfold DB.getKeys
  rw [List.mem_map]
  constructor
  · intro found
    obtain ⟨⟨whole, value⟩, listed, rfl⟩ := found
    obtain ⟨stored, between⟩ := List.mem_filter.mp listed
    obtain ⟨low, high⟩ := of_decide_eq_true between
    obtain ⟨rest, rfl⟩ := prefix_of_between pfx low high
    rw [List.drop_left]
    have found : db.lookup ([] ++ (pfx ++ rest)) = some value := mem_scan.mp stored
    refine ⟨⟨value, found⟩, fun less => low ?_, fun more => high ?_⟩
    · exact (append_lt_append_left pfx).mpr less
    · exact (append_lt_append_left pfx).mpr more
  · intro found
    obtain ⟨⟨value, stored⟩, low, high⟩ := found
    refine ⟨(pfx ++ key, value), List.mem_filter.mpr ⟨mem_scan.mpr stored, decide_eq_true ⟨?_, ?_⟩⟩, List.drop_left⟩
    · exact fun less => low ((append_lt_append_left pfx).mp less)
    · exact fun more => high ((append_lt_append_left pfx).mp more)

/-- A key and the number of a block: the key is less exactly if its block is. -/
theorem eventKey_compare (event : Event) (height : UInt64) :
    (event.blockIndex.toNat < height.toNat → eventKey event < uint64ToBytes height) ∧
      (height.toNat ≤ event.blockIndex.toNat → uint64ToBytes height < eventKey event) := by
  have size (first second : UInt64) : (uint64ToBytes first).length = (uint64ToBytes second).length := by
    rw [uint64ToBytes_length, uint64ToBytes_length]
  constructor
  · intro less
    have below : eventKey event < uint64ToBytes height ++ [] := uint64ToBytes_lt less _ _
    rwa [List.append_nil] at below
  · intro reached
    cases Nat.eq_or_lt_of_le reached with
    | inl same =>
      rw [UInt64.toNat_inj.mp same]
      apply lt_append
      intro empty
      have bytes := congrArg List.length empty
      rw [List.length_append, uint64ToBytes_length] at bytes
      exact absurd bytes (by rw [List.length_nil]; omega)
    | inr greater =>
      have above : uint64ToBytes height ++ [] < eventKey event :=
        append_lt_append (size height event.blockIndex) (uintToBytes_lt event.blockIndex.toNat_lt greater)
      rwa [List.append_nil] at above

private theorem le_eventKey {height : UInt64} : uint64ToBytes height ≤ eventKey event ↔ height.toNat ≤ event.blockIndex.toNat := by
  constructor
  · intro low
    exact not_lt.mp fun less => low ((eventKey_compare event height).1 less)
  · exact fun reached less => List.lt_asymm less ((eventKey_compare event height).2 reached)

/-- The bound itself is shorter than the keys of its block, which are greater. -/
private theorem eventKey_le {height : UInt64} : eventKey event ≤ uint64ToBytes height ↔ event.blockIndex.toNat < height.toNat := by
  constructor
  · intro high
    exact not_le.mp fun reached => high ((eventKey_compare event height).2 reached)
  · exact fun less more => List.lt_asymm more ((eventKey_compare event height).1 less)

theorem wantsKey_eventKey (query : Query) (event : Event) :
    wantsKey query.fromBlock query.toBlock query.address (eventKey event) =
      .ok (decide (query.Ranges event ∧ query.Addresses event)) := by
  have block : (eventKey event).take 8 = uint64ToBytes event.blockIndex := by
    rw [eventKey, List.take_left' (uint64ToBytes_length _)]
  have rest : (eventKey event).drop 24 = event.address.get := by
    unfold eventKey
    rw [← List.append_assoc, ← List.append_assoc, List.drop_left']
    rw [List.length_append, List.length_append, uint64ToBytes_length, uint64ToBytes_length, uint64ToBytes_length]
  have tail : event.address.get.take 20 = event.address.get := List.take_of_length_le (uintToBytes_length 20 _).le
  have length : (eventKey event).length = 44 := by
    unfold eventKey
    rw [List.length_append, List.length_append, List.length_append, uint64ToBytes_length, uint64ToBytes_length, uint64ToBytes_length,
      Address.get, uintToBytes_length]
  have long : ¬ (eventKey event).length < 44 := not_lt.mpr length.ge
  have height : bytesToUint (uint64ToBytes event.blockIndex) = event.blockIndex.toNat :=
    ByteStrings.bytesToUint_uintToBytes event.blockIndex.toNat_lt
  have address := address_ofBytes_get event.address
  rw [wantsKey, if_neg long, block, rest, tail, height, address]
  apply congrArg Except.ok
  apply decide_eq_decide.mpr
  exact and_congr_right' (or_congr_right eq_comm)

theorem wantedKeys_ok {query : Query} {keys : List Bytes} {wanted : Bytes → Bool}
    (each : ∀ key ∈ keys, wantsKey query.fromBlock query.toBlock query.address key = .ok (wanted key)) :
    wantedKeys query.fromBlock query.toBlock query.address keys = .ok (keys.filter wanted) := by
  induction keys with
  | nil => rfl
  | cons key rest ih =>
    apply bind_ok.mpr
    refine ⟨wanted key, each key List.mem_cons_self, bind_ok.mpr ⟨rest.filter wanted, ?_, ?_⟩⟩
    · exact ih fun other member => each other (List.mem_cons_of_mem _ member)
    · rw [List.filter_cons]
      rfl

theorem mem_getBatchOf {pfx : Bytes} {keys : List Bytes} {record : Bytes × Bytes} :
    record ∈ db.getBatchOf pfx keys ↔ record ∈ db.getBatch pfx ∧ (keys = [] ∨ record.1 ∈ keys) := by
  unfold DB.getBatchOf
  split
  case isTrue none => exact ⟨fun listed => ⟨listed, .inl (List.isEmpty_iff.mp none)⟩, And.left⟩
  case isFalse some =>
    rw [List.mem_flatMap]
    constructor
    · intro found
      obtain ⟨other, listed, chosen⟩ := found
      obtain ⟨key, member, rfl⟩ := List.mem_map.mp chosen
      obtain ⟨inside, same⟩ := List.mem_filter.mp member
      exact ⟨listed, .inr (of_decide_eq_true same ▸ inside)⟩
    · intro found
      obtain ⟨listed, chosen⟩ := found
      have inside := chosen.resolve_left fun none => some (List.isEmpty_iff.mpr none)
      exact ⟨record, listed, List.mem_map.mpr ⟨record.1, List.mem_filter.mpr ⟨inside, decide_eq_true rfl⟩, rfl⟩⟩

/-- The key of the event is in the database and is among those that are found for the query. -/
def Keyed (db : DB) (query : Query) (event : Event) : Prop := db.has (eventKey event) DBPrefix.events = true ∧
  (query.fromBlock.toNat ≤ event.blockIndex.toNat ∧ event.blockIndex.toNat < query.toBlock.toNat) ∧ query.Addresses event

/-- No event with the topics is taken from the database: there are keys for the query, and none of them is of such an event. -/
def Unread (manager : EventManager) (db : DB) (query : Query) : Prop :=
  ∀ event ∈ manager.events, db.has (eventKey event) DBPrefix.events = true → query.topics <+: event.topics →
    ¬ Keyed db query event ∧ ∃ other ∈ manager.events, Keyed db query other

section Database
variable (kept : Kept json history manager db) (readable : Readable json history) {query : Query}
include kept

theorem saved_iff {key : Bytes} : (∃ value, db.lookup (DBPrefix.events ++ key) = some value) ↔
    ∃ event ∈ manager.events, key = eventKey event ∧ db.has (eventKey event) DBPrefix.events = true := by
  constructor
  · intro found
    obtain ⟨value, found⟩ := found
    obtain ⟨event, inside, rfl, _⟩ := kept.stored found
    exact ⟨event, inside, rfl, Option.isSome_iff_exists.mpr ⟨value, found⟩⟩
  · intro found
    obtain ⟨event, _, rfl, saved⟩ := found
    exact Option.isSome_iff_exists.mp saved

theorem wantedKeys_found : ∃ dbKeys, wantedKeys query.fromBlock query.toBlock query.address
      (db.getKeys DBPrefix.events (uint64ToBytes query.fromBlock) (uint64ToBytes query.toBlock)) = .ok dbKeys ∧
    ∀ key, key ∈ dbKeys ↔ ∃ event ∈ manager.events, key = eventKey event ∧ Keyed db query event := by
  have answers {event : Event} : (wantsKey query.fromBlock query.toBlock query.address (eventKey event)).toOption.getD false =
      decide (query.Ranges event ∧ query.Addresses event) := by
    rw [wantsKey_eventKey]
    rfl
  refine ⟨_, @wantedKeys_ok query _ (fun key => (wantsKey query.fromBlock query.toBlock query.address key).toOption.getD false) ?_, ?_⟩
  · intro key found
    obtain ⟨event, _, rfl, _⟩ := (saved_iff kept).mp (mem_getKeys.mp found).1
    rw [answers]
    exact wantsKey_eventKey query event
  · intro key
    rw [List.mem_filter, mem_getKeys, saved_iff kept]
    constructor
    · intro found
      obtain ⟨⟨⟨event, inside, rfl, saved⟩, low, high⟩, wanted⟩ := found
      rw [answers] at wanted
      exact ⟨event, inside, rfl, saved, ⟨le_eventKey.mp low, eventKey_le.mp high⟩, (of_decide_eq_true wanted).2⟩
    · intro found
      obtain ⟨event, inside, rfl, saved, ⟨low, high⟩, addressed⟩ := found
      rw [answers]
      exact ⟨⟨⟨event, inside, rfl, saved⟩, le_eventKey.mpr low, eventKey_le.mpr high⟩, decide_eq_true ⟨⟨low, high.le⟩, addressed⟩⟩

include readable

/-- What is taken from the database. If no key is found, that is everything. -/
theorem filterFromDB_ok : ∃ stored : List Event,
    filterFromDB json caps db query.fromBlock query.toBlock query.address query.topics =
      .ok ((stored.filter fun e => matchTopics e query.topics).take caps.eventLogCap.toNat) ∧
    ∀ event, event ∈ stored ↔ (event ∈ manager.events ∧ db.has (eventKey event) DBPrefix.events = true) ∧
      ((∃ other ∈ manager.events, Keyed db query other) → Keyed db query event) := by
  obtain ⟨dbKeys, wanted, chosen⟩ := @wantedKeys_found _ _ _ _ kept query
  have reads {record : Bytes × Bytes} (listed : record ∈ db.getBatch DBPrefix.events) : ∃ event ∈ manager.events,
      record.1 = eventKey event ∧ Event.ofString json record.2 = .ok event := by
    obtain ⟨event, inside, key, value⟩ := kept.stored (mem_scan.mp listed)
    exact ⟨event, inside, key, value ▸ kept.reads readable inside⟩
  obtain ⟨stored, decoded⟩ : ∃ stored, (db.getBatchOf DBPrefix.events dbKeys).mapM (fun entry => Event.ofString json entry.2) = .ok stored := by
    apply mapM_ok
    intro record listed
    obtain ⟨event, _, _, read⟩ := reads (mem_getBatchOf.mp listed).1
    exact ⟨event, read⟩
  have none : dbKeys = [] ↔ ¬ ∃ other ∈ manager.events, Keyed db query other := by
    rw [List.eq_nil_iff_forall_not_mem]
    constructor
    · intro empty some
      obtain ⟨other, inside, keyed⟩ := some
      exact empty _ ((chosen _).mpr ⟨other, inside, rfl, keyed⟩)
    · intro nothing key listed
      obtain ⟨other, inside, _, keyed⟩ := (chosen key).mp listed
      exact nothing ⟨other, inside, keyed⟩
  have keyed {event : Event} (inside : event ∈ manager.events) : eventKey event ∈ dbKeys ↔ Keyed db query event := by
    constructor
    · intro listed
      obtain ⟨other, there, same, keyed⟩ := (chosen _).mp listed
      rwa [kept.eq_of_key inside there same]
    · exact fun keyed => (chosen _).mpr ⟨event, inside, rfl, keyed⟩
  have admitted {event : Event} (inside : event ∈ manager.events) : dbKeys = [] ∨ eventKey event ∈ dbKeys ↔
      ((∃ other ∈ manager.events, Keyed db query other) → Keyed db query event) := by
    rw [none, keyed inside]
    exact imp_iff_not_or.symm
  refine ⟨stored, bind_ok.mpr ⟨dbKeys, wanted, ?_⟩, fun event => ?_⟩
  · exact @fetch_ok json _ caps (fun e => matchTopics e query.topics) _ decoded [] (Nat.zero_le _)
  · constructor
    · intro listed
      obtain ⟨record, found, read⟩ := mem_of_mapM decoded listed
      obtain ⟨batch, admits⟩ := mem_getBatchOf.mp found
      obtain ⟨other, inside, key, readToo⟩ := reads batch
      cases read.symm.trans readToo
      obtain ⟨third, there, same, saved⟩ := (saved_iff kept).mp ⟨record.2, mem_scan.mp batch⟩
      rw [← same, key] at saved
      exact ⟨⟨inside, saved⟩, (admitted inside).mp (key ▸ admits)⟩
    · intro found
      obtain ⟨⟨inside, saved⟩, admits⟩ := found
      obtain ⟨value, stored⟩ := Option.isSome_iff_exists.mp saved
      have batch : (eventKey event, value) ∈ db.getBatch DBPrefix.events := mem_scan.mpr stored
      have listed := mem_getBatchOf.mpr ⟨batch, (admitted inside).mpr admits⟩
      obtain ⟨other, member, read⟩ := mapM_mem decoded listed
      obtain ⟨third, there, key, readToo⟩ := reads batch
      cases read.symm.trans readToo
      rwa [kept.eq_of_key inside there key]

end Database

theorem run_ok (kept : Kept json history manager db) (readable : Readable json history) {query : Query}
    (ordered : query.fromBlock.toNat ≤ query.toBlock.toNat)
    (near : query.toBlock.toNat - query.fromBlock.toNat ≤ caps.eventBlockCap.toNat) :
    ∃ fetched, query.run json caps manager db = .ok ((remembered manager query ++ fetched).take caps.eventLogCap.toNat) ∧
      (0 < caps.eventLogCap.toNat → (fetched = [] ↔ Unread manager db query)) := by
  obtain ⟨stored, filtered, member⟩ := @filterFromDB_ok json caps _ _ _ kept readable query
  refine ⟨(stored.filter fun e => matchTopics e query.topics).take caps.eventLogCap.toNat, ?_, fun room => ?_⟩
  · have difference : max query.fromBlock.toNat query.toBlock.toNat - min query.fromBlock.toNat query.toBlock.toNat =
        query.toBlock.toNat - query.fromBlock.toNat := by omega
    unfold Query.run getEvents
    dsimp only
    rw [difference, if_neg (not_lt.mpr near), filtered]
    change (if caps.eventLogCap.toNat ≤ ((remembered manager query).take caps.eventLogCap.toNat).length then _ else _) = _
    rw [List.length_take, List.take_append]
    split
    case isTrue full =>
      have enough : caps.eventLogCap.toNat - (remembered manager query).length = 0 := by omega
      rw [enough, List.take_zero, List.append_nil]
      rfl
    case isFalse space =>
      have count : ((remembered manager query).take caps.eventLogCap.toNat).length = (remembered manager query).length := by
        rw [List.length_take]
        omega
      rw [← count]
      rfl
  · have none : (stored.filter fun e => matchTopics e query.topics).take caps.eventLogCap.toNat = [] ↔
        stored.filter (fun e => matchTopics e query.topics) = [] := by
      rw [List.take_eq_nil_iff]
      exact or_iff_right room.ne'
    rw [none, List.filter_eq_nil_iff]
    constructor
    · intro unmatched event inside saved begins
      have absent : ¬ ((∃ other ∈ manager.events, Keyed db query other) → Keyed db query event) := fun admits =>
        unmatched event ((member event).mpr ⟨⟨inside, saved⟩, admits⟩) (matchTopics_iff.mpr begins)
      obtain ⟨some, unkeyed⟩ := Classical.not_imp.mp absent
      exact ⟨unkeyed, some⟩
    · intro unread event listed matched
      obtain ⟨⟨inside, saved⟩, admits⟩ := (member event).mp listed
      obtain ⟨unkeyed, some⟩ := unread event inside saved (matchTopics_iff.mp matched)
      exact unkeyed (admits some)

theorem answer_perm_iff (kept : Kept json history manager db) (readable : Readable json history) {query : Query}
    (ordered : query.fromBlock.toNat ≤ query.toBlock.toNat)
    (near : query.toBlock.toNat - query.fromBlock.toNat ≤ caps.eventBlockCap.toNat)
    (below : ((history.flatMap committed).filter query.Matches).length < caps.eventLogCap.toNat) :
    (∃ ret, query.run json caps manager db = .ok ret ∧ ret.Perm ((history.flatMap committed).filter query.Matches)) ↔
      Fenced manager query ∧ Unread manager db query := by
  obtain ⟨fetched, answer, none⟩ := @run_ok json caps _ _ _ kept readable query ordered near
  have nodup : (history.flatMap committed).Nodup := kept.perm.nodup_iff.mp kept.rising.nodup
  -- What is asked for is in the memory, so that the rest is too much.
  have complete : (history.flatMap committed).filter query.Matches ⊆ remembered manager query := by
    intro event listed
    obtain ⟨inside, wanted⟩ := List.mem_filter.mp listed
    exact remembered_complete kept (kept.perm.mem_iff.mpr inside) (of_decide_eq_true wanted)
  have enough := ((nodup.filter query.Matches).subperm complete).length_le
  rw [answer, ← remembered_perm_iff kept, ← none (by omega)]
  constructor
  · intro right
    obtain ⟨ret, same, perm⟩ := right
    cases Except.ok.inj same
    have lengths := perm.length_eq
    rw [List.length_take, List.length_append] at lengths
    have empty : fetched = [] := List.eq_nil_of_length_eq_zero (by omega)
    rw [empty, List.append_nil, List.take_of_length_le (by omega)] at perm
    exact ⟨perm, empty⟩
  · intro right
    obtain ⟨perm, empty⟩ := right
    have lengths := perm.length_eq
    refine ⟨_, rfl, ?_⟩
    rw [empty, List.append_nil, List.take_of_length_le (by omega)]
    exact perm

/-- A query of a range gives each event that it asks for once and nothing else exactly if the walk over the memory comes by
no event of another address, and none is taken from the database. -/
theorem logs_exact_iff (run : EventRun json history manager db) (readable : Readable json history) (query : Query)
    (ordered : query.fromBlock.toNat ≤ query.toBlock.toNat)
    (near : query.toBlock.toNat - query.fromBlock.toNat ≤ caps.eventBlockCap.toNat)
    (below : ((history.flatMap committed).filter query.Matches).length < caps.eventLogCap.toNat) :
    (∃ ret, query.run json caps manager db = .ok ret ∧ ret.Perm ((history.flatMap committed).filter query.Matches)) ↔
      Fenced manager query ∧ Unread manager db query :=
  answer_perm_iff (kept_of_run run readable) readable ordered near below

def tenOfTen : EventCaps := ⟨10, 10⟩

/-- The logs of the second contract. -/
def ofSecond : Query := ⟨1, 1, 9, [7]⟩

theorem second_is_exact : ∃ ret, ofSecond.run (textsOf exchanged) tenOfTen exchangeManager ∅ = .ok ret ∧
    ret.Perm (([exchange].flatMap committed).filter ofSecond.Matches) := by
  apply (@logs_exact_iff _ tenOfTen _ _ _ exchange_run exchange_readable ofSecond (by decide) (by decide) (by decide)).mpr
  constructor
  · intro _ event inside greater
    have all : ∀ event ∈ exchanged, ¬ ofSecond.address.toNat < event.address.toNat := by decide
    exact absurd greater (all event inside)
  · intro event _ saved
    cases saved

/-- The logs of the first contract. -/
def ofFirst : Query := ⟨1, 1, 6, []⟩

/-- The walk from the address of the first contract goes on to the log of the second. -/
theorem first_is_inexact : EventRun (textsOf exchanged) [exchange] exchangeManager ∅ ∧
    ofFirst.run (textsOf exchanged) tenOfTen exchangeManager ∅ = .ok exchanged ∧
    ([exchange].flatMap committed).filter ofFirst.Matches = exchanged.take 1 ∧ ¬ exchanged.Perm (exchanged.take 1) := by
  have answer : (ofFirst.run (textsOf exchanged) tenOfTen exchangeManager ∅).toOption = some exchanged := by decide
  refine ⟨exchange_run, toOption_some.mp answer, by decide, fun perm => ?_⟩
  exact absurd perm.length_eq (by decide)

end OrbiterSDK.Proofs.Logs
