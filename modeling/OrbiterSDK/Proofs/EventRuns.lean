import OrbiterSDK.Proofs.EventTexts

/-! Events over runs: each is committed once, has a key of its own, and comes back after a restart. -/

namespace OrbiterSDK.Proofs.EventRuns
open Lib PrefixStore MultiIndex EventManager Utils EventTexts

/-- The events in an order, with the numbers that they get in it. -/
def numbered (emitter : Emitter) (events : List Event) : List Event :=
  events.mapIdx fun logIndex event => event.setStateData (UInt64.ofNat logIndex) emitter.tx.hash emitter.txIndex
    emitter.block.blockHash emitter.block.blockHeight

def committed (emitter : Emitter) : List Event :=
  match emitter.emission with
  | .machine emittedEvents => emittedEvents.mapIdx (State.sdkEvent emitter.tx emitter.block emitter.txIndex)
  | .contract registered true => numbered emitter (byBlockIndex registered)
  | .contract _ false => []

theorem foldl_commitEvent (events : List Event) : ∀ manager : EventManager,
    events.foldl commitEvent manager = { manager with events := manager.events ++ events } := by
  induction events with
  | nil =>
    intro manager
    rw [List.append_nil]
    rfl
  | cons event rest ih =>
    intro manager
    apply (ih (commitEvent manager event)).trans
    rw [commitEvent, List.append_assoc]
    rfl

theorem foldl_registerEvent (events : List Event) : ∀ manager : EventManager,
    events.foldl registerEvent manager = { manager with tempEvents := manager.tempEvents ++ events } := by
  induction events with
  | nil =>
    intro manager
    rw [List.append_nil]
    rfl
  | cons event rest ih =>
    intro manager
    apply (ih (registerEvent manager event)).trans
    rw [registerEvent, List.append_assoc]
    rfl

variable {json : JsonLibrary} {history : List Emitter} {manager : EventManager} {db : DB} {emitter : Emitter} {events : List Event}
variable {txs : List (TxBlock × Emission)} {event : Event}

theorem process_eq (waiting : manager.tempEvents = []) (emitter : Emitter) :
    emitter.process manager = { manager with events := manager.events ++ committed emitter } := by
  obtain ⟨events, tempEvents⟩ := manager
  cases waiting
  unfold Emitter.process committed
  cases emitter.emission with
  | machine emittedEvents => exact foldl_commitEvent _ _
  | contract registered returns =>
    cases returns with
    | true =>
      dsimp only
      rw [foldl_registerEvent]
      rfl
    | false =>
      dsimp only
      rw [foldl_registerEvent, List.append_nil]
      rfl

theorem foldl_process (emitters : List Emitter) : ∀ {manager : EventManager}, manager.tempEvents = [] →
    emitters.foldl Emitter.process manager = { manager with events := manager.events ++ emitters.flatMap committed } := by
  induction emitters with
  | nil =>
    intro manager _
    rw [List.flatMap_nil, List.append_nil]
    rfl
  | cons emitter rest ih =>
    intro manager waiting
    rw [List.foldl_cons, process_eq waiting]
    apply (@ih { manager with events := manager.events ++ committed emitter } waiting).trans
    rw [List.flatMap_cons, List.append_assoc]

/-- The event has the place of its transaction and a number in it. -/
structure Placed (emitter : Emitter) (logIndex : Nat) (event : Event) : Prop where
  logIndex : event.logIndex = UInt64.ofNat logIndex
  txHash : event.txHash = emitter.tx.hash
  txIndex : event.txIndex = emitter.txIndex
  blockIndex : event.blockIndex = emitter.block.blockHeight

theorem placed_numbered {i : Nat} (here : (numbered emitter events)[i]? = some event) :
    Placed emitter i event := by
  unfold numbered at here
  rw [List.getElem?_mapIdx] at here
  obtain ⟨_, _, rfl⟩ := Option.map_eq_some_iff.mp here
  exact ⟨rfl, rfl, rfl, rfl⟩

theorem placed_committed {i : Nat} (here : (committed emitter)[i]? = some event) : Placed emitter i event := by
  unfold committed at here
  split at here
  case h_1 emittedEvents =>
    rw [List.getElem?_mapIdx] at here
    obtain ⟨_, _, rfl⟩ := Option.map_eq_some_iff.mp here
    exact ⟨rfl, rfl, rfl, rfl⟩
  case h_2 => exact placed_numbered here
  case h_3 => cases here

theorem committed_length (emitter : Emitter) : (committed emitter).length ≤ emitter.emission.count := by
  unfold committed
  split
  case h_1 emittedEvents same =>
    rw [same, List.length_mapIdx]
    exact Nat.le_refl _
  case h_2 registered same =>
    rw [same, numbered, List.length_mapIdx]
    exact (perm_ordered.length_eq).le
  case h_3 => exact Nat.zero_le _

theorem placed_of_mem (member : event ∈ committed emitter) : ∃ i, Placed emitter i event := by
  obtain ⟨i, here⟩ := List.getElem?_of_mem member
  exact ⟨i, placed_committed here⟩

theorem uint64ToBytes_length (value : UInt64) : (uint64ToBytes value).length = 8 := uintToBytes_length 8 _

theorem uintToBytes_lt {width : Nat} : ∀ {first second : Nat}, second < 256 ^ width → first < second →
    uintToBytes width first < uintToBytes width second := by
  induction width with
  | zero =>
    intro first second bound less
    rw [pow_zero] at bound
    omega
  | succ width ih =>
    intro first second bound less
    unfold uintToBytes
    by_cases high : first / 256 < second / 256
    · apply append_lt_append
      · rw [uintToBytes_length, uintToBytes_length]
      · exact ih (Nat.div_lt_of_lt_mul (by rwa [pow_succ, mul_comm] at bound)) high
    · have level : first / 256 = second / 256 := by omega
      rw [level]
      apply (append_lt_append_left _).mpr
      apply List.cons_lt_cons_iff.mpr
      apply Or.inl
      apply UInt8.lt_iff_toNat_lt.mpr
      rw [UInt8.toNat_ofNat', UInt8.toNat_ofNat']
      omega

theorem uint64ToBytes_lt {first second : UInt64} (less : first.toNat < second.toNat) (left right : Bytes) :
    uint64ToBytes first ++ left < uint64ToBytes second ++ right := by
  apply append_lt_append
  · rw [uint64ToBytes_length, uint64ToBytes_length]
  · exact uintToBytes_lt second.toNat_lt less

/-! Keys rise with the block, in it with the transaction, and for this with the number. -/

section Keys
variable {first second : Event} (block : first.blockIndex = second.blockIndex) (tx : first.txIndex = second.txIndex)

theorem eventKey_lt_of_block (less : first.blockIndex.toNat < second.blockIndex.toNat) : eventKey first < eventKey second :=
  uint64ToBytes_lt less _ _

theorem blockIndex_le_of_key (ordered : eventKey first < eventKey second) : first.blockIndex.toNat ≤ second.blockIndex.toNat :=
  not_lt.mp fun below => List.lt_asymm ordered (eventKey_lt_of_block below)

include block

theorem eventKey_lt_of_tx (less : first.txIndex.toNat < second.txIndex.toNat) : eventKey first < eventKey second := by
  rw [eventKey, eventKey, block]
  exact (append_lt_append_left _).mpr (uint64ToBytes_lt less _ _)

include tx

theorem eventKey_lt_of_log (less : first.logIndex.toNat < second.logIndex.toNat) : eventKey first < eventKey second := by
  rw [eventKey, eventKey, block, tx]
  exact (append_lt_append_left _).mpr ((append_lt_append_left _).mpr (uint64ToBytes_lt less _ _))

end Keys

def Differ (first second : Emitter) : Prop := first.block.blockHeight ≠ second.block.blockHeight ∨ first.txIndex ≠ second.txIndex

private theorem ofNat_lt {first second : Nat} (less : first < second) (small : second < 2 ^ 64) :
    (UInt64.ofNat first).toNat < (UInt64.ofNat second).toNat := by
  rwa [UInt64.toNat_ofNat_of_lt' (less.trans small), UInt64.toNat_ofNat_of_lt' small]

theorem ofBlock_eq (block : BlockContext) (txs : List (TxBlock × Emission)) : ∀ start : UInt64,
    Emitter.ofBlock block txs start = txs.mapIdx fun i entry => ⟨block, entry.1, start + UInt64.ofNat i, entry.2⟩ := by
  induction txs with
  | nil => exact fun _ => rfl
  | cons entry rest ih =>
    intro start
    rw [Emitter.ofBlock, ih, List.mapIdx_cons]
    have next (i : Nat) : start + 1 + UInt64.ofNat i = start + UInt64.ofNat (i + 1) := by
      rw [UInt64.ofNat_add, UInt64.add_assoc, UInt64.add_comm 1]
      rfl
    simp only [next]
    congr 2
    exact (UInt64.add_zero start).symm

theorem mem_ofBlock {block : BlockContext} (member : emitter ∈ Emitter.ofBlock block txs 0) :
    emitter.block = block ∧ (emitter.tx, emitter.emission) ∈ txs := by
  rw [ofBlock_eq] at member
  obtain ⟨i, here⟩ := List.getElem?_of_mem member
  rw [List.getElem?_mapIdx] at here
  obtain ⟨entry, found, rfl⟩ := Option.map_eq_some_iff.mp here
  exact ⟨rfl, List.mem_of_getElem? found⟩

private theorem ofBlock_rising {block : BlockContext} (few : txs.length ≤ 2 ^ 64) :
    (Emitter.ofBlock block txs 0).Pairwise fun first second => first.txIndex.toNat < second.txIndex.toNat := by
  rw [ofBlock_eq, List.pairwise_iff_getElem]
  intro i j left right less
  rw [List.length_mapIdx] at left right
  rw [List.getElem_mapIdx, List.getElem_mapIdx]
  dsimp only
  rw [UInt64.zero_add, UInt64.zero_add]
  exact ofNat_lt less (by omega)

/-- The keys rise. -/
def Rising (events : List Event) : Prop := events.Pairwise fun first second => eventKey first < eventKey second

theorem Rising.keys (rising : Rising events) : (events.map eventKey).Nodup :=
  List.pairwise_map.mpr (rising.imp Std.ne_of_lt)

theorem Rising.nodup (rising : Rising events) : events.Nodup := .of_map eventKey rising.keys

theorem Rising.ext {first second : List Event} (left : Rising first) (right : Rising second) (same : ∀ event, event ∈ first ↔ event ∈ second) :
    first = second := by
  have perm := (List.perm_ext_iff_of_nodup left.nodup right.nodup).mpr fun {event} => same event
  exact perm.eq_of_pairwise (fun _ _ _ _ less more => absurd more (List.lt_asymm less)) left right

theorem rising_of_placed (few : events.length ≤ 2 ^ 64)
    (placed : ∀ {i event}, events[i]? = some event → Placed emitter i event) : Rising events := by
  apply List.pairwise_iff_getElem.mpr
  intro i j left right less
  have first := placed (List.getElem?_eq_getElem left)
  have second := placed (List.getElem?_eq_getElem right)
  apply eventKey_lt_of_log (first.blockIndex.trans second.blockIndex.symm) (first.txIndex.trans second.txIndex.symm)
  rw [first.logIndex, second.logIndex]
  exact ofNat_lt less (by omega)

theorem committed_rising (few : emitter.emission.count ≤ 2 ^ 64) : Rising (committed emitter) :=
  rising_of_placed ((committed_length emitter).trans few) placed_committed

private theorem block_rising {block : BlockContext}
    (few : txs.length ≤ 2 ^ 64 ∧ ∀ entry ∈ txs, entry.2.count ≤ 2 ^ 64) :
    Rising ((Emitter.ofBlock block txs 0).flatMap committed) := by
  apply List.pairwise_flatMap.mpr
  refine ⟨fun emitter member => committed_rising (few.2 _ (mem_ofBlock member).2), (ofBlock_rising few.1).imp_of_mem ?_⟩
  intro first second left right less event inFirst other inSecond
  obtain ⟨_, placed⟩ := placed_of_mem inFirst
  obtain ⟨_, placedToo⟩ := placed_of_mem inSecond
  apply eventKey_lt_of_tx
  · rw [placed.blockIndex, placedToo.blockIndex, (mem_ofBlock left).1, (mem_ofBlock right).1]
  · rwa [placed.txIndex, placedToo.txIndex]

/-- The texts of all events that were committed can be read. -/
def Readable (json : JsonLibrary) (history : List Emitter) : Prop :=
  ∀ emitter ∈ history, ∀ event ∈ committed emitter, json.parse (json.dump event.toJson) = .ok event.toJson

structure Kept (json : JsonLibrary) (history : List Emitter) (manager : EventManager) (db : DB) : Prop where
  waiting : manager.tempEvents = []
  perm : manager.events.Perm (history.flatMap committed)
  differ : history.Pairwise Differ
  few : ∀ emitter ∈ history, emitter.emission.count ≤ 2 ^ 64
  rising : Rising manager.events
  stored : ∀ {key value}, db.lookup (DBPrefix.events ++ key) = some value →
    ∃ event ∈ manager.events, key = eventKey event ∧ value = event.serialize json

theorem Kept.mem_events (kept : Kept json history manager db) :
    event ∈ manager.events ↔ ∃ emitter ∈ history, event ∈ committed emitter := by
  rw [kept.perm.mem_iff, List.mem_flatMap]

theorem Kept.eq_of_key (kept : Kept json history manager db) {first second : Event} (left : first ∈ manager.events)
    (right : second ∈ manager.events) (same : eventKey first = eventKey second) : first = second :=
  List.inj_on_of_nodup_map kept.rising.keys left right same

theorem ofString_serialize (readable : json.parse (json.dump event.toJson) = .ok event.toJson) :
    Event.ofString json (event.serialize json) = .ok event :=
  bind_ok.mpr ⟨event.toJson, readable, ofJson_toJson event⟩

theorem Kept.reads (kept : Kept json history manager db) (readable : Readable json history)
    (member : event ∈ manager.events) : Event.ofString json (event.serialize json) = .ok event := by
  obtain ⟨emitter, inside, listed⟩ := kept.mem_events.mp member
  exact ofString_serialize (readable emitter inside event listed)

theorem kept_block (kept : Kept json history manager db) {block : BlockContext}
    (higher : ∀ emitter ∈ history, emitter.block.blockHeight.toNat < block.blockHeight.toNat)
    (few : txs.length ≤ 2 ^ 64 ∧ ∀ entry ∈ txs, entry.2.count ≤ 2 ^ 64) :
    Kept json (history ++ Emitter.ofBlock block txs 0) ((Emitter.ofBlock block txs 0).foldl Emitter.process manager) db := by
  rw [foldl_process _ kept.waiting]
  have height {event : Event} (member : event ∈ (Emitter.ofBlock block txs 0).flatMap committed) : event.blockIndex = block.blockHeight := by
    obtain ⟨emitter, inside, listed⟩ := List.mem_flatMap.mp member
    obtain ⟨_, placed⟩ := placed_of_mem listed
    rw [placed.blockIndex, (mem_ofBlock inside).1]
  constructor
  · exact kept.waiting
  · rw [List.flatMap_append]
    exact kept.perm.append_right _
  · apply List.pairwise_append.mpr
    have apart : (Emitter.ofBlock block txs 0).Pairwise Differ :=
      (ofBlock_rising few.1).imp fun less => .inr fun same => less.ne (congrArg UInt64.toNat same)
    refine ⟨kept.differ, apart, fun first older second newer => .inl fun same => ?_⟩
    have below := higher first older
    rw [same, (mem_ofBlock newer).1] at below
    exact Nat.lt_irrefl _ below
  · intro emitter member
    cases List.mem_append.mp member with
    | inl older => exact kept.few emitter older
    | inr newer => exact few.2 _ (mem_ofBlock newer).2
  · apply List.pairwise_append.mpr
    refine ⟨kept.rising, block_rising few, fun first older second newer => ?_⟩
    obtain ⟨emitter, inside, listed⟩ := kept.mem_events.mp older
    obtain ⟨_, placed⟩ := placed_of_mem listed
    apply eventKey_lt_of_block
    rw [placed.blockIndex, height newer]
    exact higher emitter inside
  · intro key value found
    obtain ⟨event, member, same⟩ := kept.stored found
    exact ⟨event, List.mem_append_left _ member, same⟩

theorem Kept.lookup_save (kept : Kept json history manager db) {key value : Bytes} :
    (manager.save json db).lookup (DBPrefix.events ++ key) = some value ↔
      ∃ event ∈ manager.events, key = eventKey event ∧ value = event.serialize json := by
  have batch {value : Bytes} : (DBPrefix.events ++ key, value) ∈
      (byBlockIndex manager.events).map (fun event => (DBPrefix.events ++ eventKey event, event.serialize json)) ↔
      ∃ event ∈ manager.events, key = eventKey event ∧ value = event.serialize json := by
    rw [List.mem_map]
    constructor
    · intro listed
      obtain ⟨event, member, same⟩ := listed
      obtain ⟨front, back⟩ := Prod.mk.inj same
      exact ⟨event, mem_ordered.mp member, (List.append_cancel_left front).symm, back.symm⟩
    · intro listed
      obtain ⟨event, member, rfl, rfl⟩ := listed
      exact ⟨event, mem_ordered.mpr member, rfl⟩
  unfold EventManager.save DB.putBatch
  rw [lookup_putAll_iff, batch]
  · constructor
    · intro either
      cases either with
      | inl written => exact written
      | inr older => exact kept.stored older.2
    · exact .inl
  · intro key first second left right
    obtain ⟨event, member, same⟩ := List.mem_map.mp left
    obtain ⟨other, memberToo, sameToo⟩ := List.mem_map.mp right
    obtain ⟨rfl, rfl⟩ := Prod.mk.inj same
    obtain ⟨front, rfl⟩ := Prod.mk.inj sameToo
    rw [kept.eq_of_key (mem_ordered.mp memberToo) (mem_ordered.mp member) (List.append_cancel_left front)]

/-- How an event is written. -/
def entry (json : JsonLibrary) (event : Event) : Bytes × Bytes := (eventKey event, event.serialize json)

theorem Kept.mem_scan_save (kept : Kept json history manager db) {record : Bytes × Bytes} :
    record ∈ (manager.save json db).getBatch DBPrefix.events ↔ ∃ event ∈ manager.events, record = entry json event := by
  obtain ⟨key, value⟩ := record
  apply mem_scan.trans
  rw [kept.lookup_save]
  constructor
  · intro saved
    obtain ⟨event, member, rfl, rfl⟩ := saved
    exact ⟨event, member, rfl⟩
  · intro saved
    obtain ⟨event, member, same⟩ := saved
    exact ⟨event, member, Prod.mk.inj same⟩

theorem Kept.reads_save (kept : Kept json history manager db) (readable : Readable json history) {record : Bytes × Bytes}
    (listed : record ∈ (manager.save json db).getBatch DBPrefix.events) :
    Event.ofString json record.2 = .ok event ↔ event ∈ manager.events ∧ record = entry json event := by
  obtain ⟨other, member, rfl⟩ := kept.mem_scan_save.mp listed
  have reads : Event.ofString json (entry json other).2 = .ok other := kept.reads readable member
  constructor
  · intro read
    cases reads.symm.trans read
    exact ⟨member, rfl⟩
  · intro same
    obtain ⟨memberToo, equal⟩ := same
    rw [kept.eq_of_key memberToo member (congrArg Prod.fst equal).symm]
    exact reads

/-- The constructor gives exactly the events that the destructor has saved. -/
theorem load_save (kept : Kept json history manager db) (readable : Readable json history) :
    ∃ opened, load json (manager.save json db) = .ok opened ∧ Kept json history opened (manager.save json db) := by
  obtain ⟨events, decoded⟩ : ∃ events, ((manager.save json db).getBatch DBPrefix.events).mapM (fun record => Event.ofString json record.2) =
      .ok events := by
    apply mapM_ok
    intro record listed
    obtain ⟨event, member, same⟩ := kept.mem_scan_save.mp listed
    exact ⟨event, (kept.reads_save readable listed).mpr ⟨member, same⟩⟩
  have entries : events.map (entry json) = (manager.save json db).getBatch DBPrefix.events :=
    mapM_map decoded fun record listed event read => ((kept.reads_save readable listed).mp read).2.symm
  have member {event : Event} : event ∈ events ↔ event ∈ manager.events := by
    constructor
    · intro inside
      obtain ⟨record, listed, read⟩ := mem_of_mapM decoded inside
      exact ((kept.reads_save readable listed).mp read).1
    · intro inside
      have listed := kept.mem_scan_save.mpr ⟨event, inside, rfl⟩
      obtain ⟨other, found, read⟩ := mapM_mem decoded listed
      obtain ⟨known, same⟩ := (kept.reads_save readable listed).mp read
      rw [kept.eq_of_key inside known (congrArg Prod.fst same)]
      exact found
  have keys : events.map eventKey = ((manager.save json db).getBatch DBPrefix.events).map Prod.fst := by
    rw [← entries, List.map_map]
    rfl
  have nodup : events.Nodup := .of_map eventKey (keys ▸ scan_nodup)
  refine ⟨{ events }, bind_ok.mpr ⟨events, decoded, rfl⟩, ?_⟩
  constructor
  · rfl
  · exact ((List.perm_ext_iff_of_nodup nodup kept.rising.nodup).mpr fun _ => member).trans kept.perm
  · exact kept.differ
  · exact kept.few
  · have sorted : (events.map (entry json)).Pairwise fun first second => first.1 < second.1 := by
      rw [entries]
      exact (scan_sorted.and (List.pairwise_map.mp scan_nodup)).imp fun both => Std.lt_of_le_of_ne both.1 both.2
    exact .of_map (entry json) (fun _ _ => id) sorted
  · intro key value found
    obtain ⟨event, inside, same⟩ := kept.lookup_save.mp found
    exact ⟨event, member.mpr inside, same⟩

theorem kept_of_run (run : EventRun json history manager db) (readable : Readable json history) : Kept json history manager db := by
  induction run with
  | start fresh =>
    refine ⟨rfl, .refl _, .nil, nofun, .nil, fun {key value} found => ?_⟩
    cases (fresh key).symm.trans found
  | block run block txs higher few ih =>
    exact kept_block (ih fun emitter member => readable emitter (List.mem_append_left _ member)) higher few
  | elsewhere run same ih =>
    have kept := ih readable
    refine { kept with stored := fun {key value} found => kept.stored ((same key).symm.trans found) }
  | restart run loaded ih =>
    obtain ⟨opened, again, kept⟩ := load_save (ih readable) readable
    cases Except.ok.inj (loaded.symm.trans again)
    exact kept

/-- Whatever a run has committed is saved under keys that differ, is read back from its text, and is there after a restart. -/
theorem events_survive (run : EventRun json history manager db) (readable : Readable json history) :
    manager.events.Perm (history.flatMap committed) ∧ (manager.events.map eventKey).Nodup ∧
      (∀ event ∈ manager.events, Event.ofString json (event.serialize json) = .ok event) ∧
      ∃ opened, load json (manager.save json db) = .ok opened ∧ opened.events.Perm manager.events := by
  have kept := kept_of_run run readable
  obtain ⟨opened, loaded, keptToo⟩ := load_save kept readable
  exact ⟨kept.perm, kept.rising.keys, fun event member => kept.reads readable member, opened, loaded, keptToo.perm.trans kept.perm.symm⟩

theorem fetch_ok {caps : EventCaps} {keep : Event → Bool} {entries : List (Bytes × Bytes)}
    (reads : entries.mapM (fun entry => Event.ofString json entry.2) = .ok events) :
    ∀ {ret : List Event}, ret.length ≤ caps.eventLogCap.toNat →
      fetch json caps keep entries ret = .ok (ret ++ (events.filter keep).take (caps.eventLogCap.toNat - ret.length)) := by
  induction entries generalizing events with
  | nil =>
    intro ret _
    have none : events = [] := (Except.ok.inj reads).symm
    rw [none, List.filter_nil, List.take_nil, List.append_nil]
    rfl
  | cons entry rest ih =>
    intro ret room
    obtain ⟨event, read, others, later, rfl⟩ := mapM_ok_cons.mp reads
    unfold fetch
    split
    case isTrue full =>
      rw [Nat.sub_eq_zero_of_le full, List.take_zero, List.append_nil]
    case isFalse space =>
      apply bind_ok.mpr
      refine ⟨event, read, ?_⟩
      rw [List.filter_cons]
      split
      case isTrue kept =>
        rw [ih later (by rw [List.length_append, List.length_singleton]; omega)]
        have less : caps.eventLogCap.toNat - ret.length = caps.eventLogCap.toNat - (ret ++ [event]).length + 1 := by
          rw [List.length_append, List.length_singleton]
          omega
        rw [less, List.take_succ_cons, List.append_assoc]
        rfl
      case isFalse => exact ih later room

def quoted (text : String) : List Char :=
  '"' :: text.toList.flatMap (fun c => if c = '"' ∨ c = '\\' then ['\\', c] else [c]) ++ ['"']

mutual

/-- The text of a value, without blanks. -/
def compact : Json → List Char
  | .string value => quoted value
  | .number value => Nat.toDigits 10 value.toNat
  | .boolean value => if value then ['t', 'r', 'u', 'e'] else ['f', 'a', 'l', 's', 'e']
  | .array values => '[' :: compactAll values ++ [']']
  | .object members => '\x7b' :: compactMembers members ++ ['\x7d']

def compactAll : List Json → List Char
  | [] => []
  | [value] => compact value
  | value :: rest => compact value ++ ',' :: compactAll rest

def compactMembers : List (String × Json) → List Char
  | [] => []
  | [entry] => compactMember entry
  | entry :: rest => compactMember entry ++ ',' :: compactMembers rest

def compactMember : String × Json → List Char
  | (name, value) => quoted name ++ ':' :: compact value

end

def dump (value : Json) : Bytes := (compact value).flatMap String.utf8EncodeChar

def textOf (event : Event) : Bytes := dump event.toJson

def textsOf (events : List Event) : JsonLibrary where
  dump := dump
  parse bytes :=
    match events.find? fun event => textOf event = bytes with
    | some event => .ok event.toJson
    | none => .error "[json.exception.parse_error.101]"

theorem readable_textsOf (same : history.flatMap committed = events) (differ : (events.map textOf).Nodup) :
    Readable (textsOf events) history := by
  intro emitter member event listed
  have inside : event ∈ events := same ▸ List.mem_flatMap.mpr ⟨emitter, member, listed⟩
  change (match events.find? fun other => textOf other = textOf event with | some event => _ | none => _) = _
  cases found : events.find? fun other => textOf other = textOf event with
  | none => exact absurd (decide_eq_true rfl) (List.find?_eq_none.mp found event inside)
  | some other =>
    have text : textOf other = textOf event := by simpa using List.find?_some found
    rw [List.inj_on_of_nodup_map differ (List.mem_of_find?_eq_some found) inside text]

/-- A transaction to the machine, whose two logs come from different contracts. -/
def exchange : Emitter where
  block := ⟨3, 1, 0, 1656356646000000, 100000000, 8080⟩
  tx :=
    { «to» := 6, «from» := 4, data := [], chainId := 8080, nonce := 0, value := 0, maxPriorityFeePerGas := 0, maxFeePerGas := 1
      gasLimit := 100000, v := 0, r := 1, s := 1, hash := 5 }
  txIndex := 0
  emission := .machine [⟨6, [1], [7]⟩, ⟨9, [2], [7, 8]⟩]

/-- What it commits. -/
def exchanged : List Event := [⟨"", 0, 5, 0, 3, 1, 6, [1], [7], false⟩, ⟨"", 1, 5, 0, 3, 1, 9, [2], [7, 8], false⟩]

def exchangeManager : EventManager := { events := exchanged }

theorem exchange_run : EventRun (textsOf exchanged) [exchange] exchangeManager ∅ :=
  .block (.start fun _ => rfl) exchange.block [(exchange.tx, exchange.emission)] nofun (by decide)

theorem exchange_readable : Readable (textsOf exchanged) [exchange] :=
  readable_textsOf rfl (by decide)

theorem exchange_survives : ∃ opened, load (textsOf exchanged) (exchangeManager.save (textsOf exchanged) ∅) = .ok opened ∧
    opened.events.Perm exchanged :=
  (events_survive exchange_run exchange_readable).2.2.2

end OrbiterSDK.Proofs.EventRuns
