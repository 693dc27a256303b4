import OrbiterSDK.Proofs.EventRuns

/-! The events of one transaction, asked for by its hash and its place. -/

namespace OrbiterSDK.Proofs.Receipts
open Lib PrefixStore MultiIndex EventManager EventRuns

variable {json : JsonLibrary} {caps : EventCaps} {history : List Emitter} {manager : EventManager} {db : DB} {emitter : Emitter}

/-- The events of a transaction with the numbers of their emission. -/
def emitted (emitter : Emitter) : List Event :=
  match emitter.emission with
  | .machine emittedEvents => emittedEvents.mapIdx (State.sdkEvent emitter.tx emitter.block emitter.txIndex)
  | .contract registered true => numbered emitter registered
  | .contract _ false => []

/-- What a contract says of an event. -/
def contents (event : Event) : String × Address × Bytes × List Hash × Bool :=
  (event.name, event.address, event.data, event.topics, event.anonymous)

/-- The block indices that the events of a contract have before they get that of the block do not exchange any of them. -/
def Unshuffled (emitter : Emitter) : Prop :=
  match emitter.emission with
  | .contract registered true => (byBlockIndex registered).map contents = registered.map contents
  | _ => True

theorem numbered_getElem? (events : List Event) (i : Nat) : (numbered emitter events)[i]? = events[i]?.map fun event =>
    event.setStateData (UInt64.ofNat i) emitter.tx.hash emitter.txIndex emitter.block.blockHash emitter.block.blockHeight :=
  List.getElem?_mapIdx ..

theorem numbered_contents (events : List Event) : (numbered emitter events).map contents = events.map contents := by
  apply List.ext_getElem?
  intro i
  rw [List.getElem?_map, numbered_getElem?, List.getElem?_map, Option.map_map]
  rfl

theorem setStateData_congr {first second : Event} (same : contents first = contents second) (logIndex : UInt64) (txHash : Hash)
    (txIndex : UInt64) (blockHash : Hash) (blockIndex : UInt64) :
    first.setStateData logIndex txHash txIndex blockHash blockIndex = second.setStateData logIndex txHash txIndex blockHash blockIndex := by
  obtain ⟨name, _, _, _, _, _, address, data, topics, anonymous⟩ := first
  obtain ⟨_, _, _, _, _, _, _, _, _, _⟩ := second
  cases same
  rfl

theorem numbered_congr {first second : List Event} (same : first.map contents = second.map contents) :
    numbered emitter first = numbered emitter second := by
  apply List.ext_getElem?
  intro i
  have here : (first.map contents)[i]? = (second.map contents)[i]? := by rw [same]
  rw [List.getElem?_map, List.getElem?_map] at here
  rw [numbered_getElem?, numbered_getElem?]
  cases left : first[i]? with
  | none =>
    rw [left] at here
    rw [Option.map_eq_none_iff.mp here.symm]
  | some event =>
    rw [left] at here
    obtain ⟨other, right, equal⟩ := Option.map_eq_some_iff.mp here.symm
    rw [right]
    exact congrArg some (setStateData_congr equal.symm ..)

private theorem numbered_rising {events : List Event} (few : events.length ≤ 2 ^ 64) : Rising (numbered emitter events) :=
  rising_of_placed (List.length_mapIdx.trans_le few) placed_numbered

theorem committed_eq_emitted (unshuffled : Unshuffled emitter) : committed emitter = emitted emitter := by
  obtain ⟨block, tx, txIndex, emission⟩ := emitter
  cases emission with
  | machine emittedEvents => rfl
  | contract registered returns =>
    cases returns with
    | false => rfl
    | true => exact numbered_congr unshuffled

theorem committed_perm_iff (few : emitter.emission.count ≤ 2 ^ 64) : (committed emitter).Perm (emitted emitter) ↔ Unshuffled emitter := by
  constructor
  · intro perm
    obtain ⟨block, tx, txIndex, emission⟩ := emitter
    cases emission with
    | machine emittedEvents => trivial
    | contract registered returns =>
      cases returns with
      | false => trivial
      | true =>
        have few : (byBlockIndex registered).length ≤ 2 ^ 64 := perm_ordered.length_eq.trans_le few
        have small : registered.length ≤ 2 ^ 64 := perm_ordered.length_eq.symm.trans_le few
        have equal := congrArg (List.map contents) ((numbered_rising few).ext (numbered_rising small) fun _ => perm.mem_iff)
        rwa [numbered_contents, numbered_contents] at equal
  · exact fun unshuffled => .of_eq (committed_eq_emitted unshuffled)

theorem committed_length_emitted (emitter : Emitter) : (committed emitter).length = (emitted emitter).length := by
  obtain ⟨block, tx, txIndex, emission⟩ := emitter
  cases emission with
  | machine emittedEvents => rfl
  | contract registered returns =>
    cases returns with
    | false => rfl
    | true =>
      apply List.length_mapIdx.trans
      exact perm_ordered.length_eq.trans List.length_mapIdx.symm

/-- The database has no event under the place of the transaction. -/
def Unsaved (db : DB) (emitter : Emitter) : Prop := ∀ key, db.lookup (DBPrefix.events ++
  (uint64ToBytes emitter.block.blockHeight ++ uint64ToBytes emitter.txIndex) ++ key) = none

/-- What the memory has of the transaction. -/
def remembered (manager : EventManager) (emitter : Emitter) : List Event :=
  ((ordered (fun event : Event => event.txHash.toNat) manager.events).filter fun event => event.txHash = emitter.tx.hash).filter
    fun event => event.blockIndex = emitter.block.blockHeight ∧ event.txIndex = emitter.txIndex

section Answers
variable (kept : Kept json history manager db) (member : emitter ∈ history)
include kept member

/-- Events with the place of a transaction are of that transaction. -/
theorem mem_of_place {event : Event} (inside : event ∈ manager.events) (block : event.blockIndex = emitter.block.blockHeight)
    (tx : event.txIndex = emitter.txIndex) : event ∈ committed emitter := by
  obtain ⟨other, known, listed⟩ := kept.mem_events.mp inside
  obtain ⟨_, placed⟩ := placed_of_mem listed
  have symm : Std.Symm Differ := ⟨fun _ _ either => either.imp Ne.symm Ne.symm⟩
  by_cases same : other = emitter
  · exact same ▸ listed
  · cases kept.differ.forall known member same with
    | inl heights => exact absurd (placed.blockIndex.symm.trans block) heights
    | inr indices => exact absurd (placed.txIndex.symm.trans tx) indices

omit member in
/-- Events of one hash keep the order of their keys. -/
private theorem remembered_rising : Rising (remembered manager emitter) := by
  have stable : (ordered (fun event : Event => event.txHash.toNat) manager.events).Pairwise fun first second =>
    first.txHash.toNat < second.txHash.toNat ∨ first.txHash.toNat = second.txHash.toNat ∧ eventKey first < eventKey second :=
      ordered_stable kept.rising
  apply ((stable.filter _).filter _).imp_of_mem
  intro first second left right either
  have hash {event : Event} (inside : event ∈ remembered manager emitter) : event.txHash = emitter.tx.hash :=
    of_decide_eq_true (List.mem_filter.mp (List.mem_filter.mp inside).1).2
  rw [hash left, hash right] at either
  exact (either.resolve_left (Nat.lt_irrefl _)).2

theorem remembered_eq : remembered manager emitter = committed emitter := by
  apply (remembered_rising kept).ext (committed_rising (kept.few emitter member))
  intro event
  unfold remembered
  rw [List.mem_filter, List.mem_filter, mem_ordered, decide_eq_true_eq, decide_eq_true_eq]
  constructor
  · intro found
    obtain ⟨⟨inside, _⟩, block, tx⟩ := found
    exact mem_of_place kept member inside block tx
  · intro listed
    obtain ⟨_, placed⟩ := placed_of_mem listed
    exact ⟨⟨kept.mem_events.mpr ⟨emitter, member, listed⟩, placed.txHash⟩, placed.blockIndex, placed.txIndex⟩

omit member in
theorem stored_reads (readable : Readable json history) : ∃ events,
    (db.getBatch (DBPrefix.events ++ (uint64ToBytes emitter.block.blockHeight ++ uint64ToBytes emitter.txIndex))).mapM
      (fun entry => Event.ofString json entry.2) = .ok events ∧ (events = [] ↔ Unsaved db emitter) := by
  obtain ⟨events, reads⟩ : ∃ events,
      (db.getBatch (DBPrefix.events ++ (uint64ToBytes emitter.block.blockHeight ++ uint64ToBytes emitter.txIndex))).mapM
        (fun entry => Event.ofString json entry.2) = .ok events := by
    apply mapM_ok
    intro entry listed
    have found := mem_scan.mp listed
    rw [List.append_assoc] at found
    obtain ⟨event, inside, _, value⟩ := kept.stored found
    exact ⟨event, value ▸ kept.reads readable inside⟩
  refine ⟨events, reads, ?_⟩
  constructor
  · intro none key
    cases found : db.lookup (DBPrefix.events ++ (uint64ToBytes emitter.block.blockHeight ++ uint64ToBytes emitter.txIndex) ++ key) with
    | none => rfl
    | some value =>
      obtain ⟨event, listed, _⟩ := mapM_mem reads (mem_scan.mpr found)
      rw [none] at listed
      cases listed
  · intro unsaved
    apply List.eq_nil_iff_forall_not_mem.mpr
    intro event listed
    obtain ⟨⟨key, value⟩, stored, _⟩ := mem_of_mapM reads listed
    cases (unsaved key).symm.trans (mem_scan.mp stored)

/-- The query answers what was committed and, after it, what is saved of it. -/
theorem answer_eq (readable : Readable json history) (below : (emitted emitter).length < caps.eventLogCap.toNat) :
    ∃ stored, (stored = [] ↔ Unsaved db emitter) ∧
      getTxEvents json caps manager db emitter.tx.hash emitter.block.blockHeight emitter.txIndex =
        .ok (committed emitter ++ stored.take (caps.eventLogCap.toNat - (committed emitter).length)) := by
  obtain ⟨stored, reads, none⟩ := @stored_reads json history manager db emitter kept readable
  have size := committed_length_emitted emitter
  have fetched := @fetch_ok json _ caps (fun _ => true) _ reads (committed emitter) (by omega)
  rw [List.filter_true] at fetched
  refine ⟨stored, none, ?_⟩
  change fetch json caps (fun _ => true) _ ((remembered manager emitter).take caps.eventLogCap.toNat) = _
  rw [remembered_eq kept member, List.take_of_length_le (by omega)]
  exact fetched

end Answers

/-- The query for a transaction gives each of its events once, with the number of its emission, exactly if none of them
has been saved and what their block indices were before did not change their order; and then in the order of emission. -/
theorem receipt_exact_iff (run : EventRun json history manager db) (readable : Readable json history) (member : emitter ∈ history)
    (below : (emitted emitter).length < caps.eventLogCap.toNat) :
    ((∃ ret, getTxEvents json caps manager db emitter.tx.hash emitter.block.blockHeight emitter.txIndex = .ok ret ∧
      ret.Perm (emitted emitter)) ↔ Unsaved db emitter ∧ Unshuffled emitter) ∧
    (Unsaved db emitter → Unshuffled emitter →
      getTxEvents json caps manager db emitter.tx.hash emitter.block.blockHeight emitter.txIndex = .ok (emitted emitter)) := by
  have kept := kept_of_run run readable
  obtain ⟨stored, none, answer⟩ := answer_eq kept member readable below
  have whole (unsaved : Unsaved db emitter) (unshuffled : Unshuffled emitter) :
      committed emitter ++ stored.take (caps.eventLogCap.toNat - (committed emitter).length) = emitted emitter := by
    rw [none.mpr unsaved, List.take_nil, List.append_nil, committed_eq_emitted unshuffled]
  rw [answer]
  refine ⟨⟨?_, fun right => ⟨_, rfl, .of_eq (whole right.1 right.2)⟩⟩, fun unsaved unshuffled => by rw [whole unsaved unshuffled]⟩
  intro right
  obtain ⟨ret, same, perm⟩ := right
  cases Except.ok.inj same
  have size := committed_length_emitted emitter
  have lengths := perm.length_eq
  rw [List.length_append, List.length_take] at lengths
  have empty : stored = [] := List.eq_nil_of_length_eq_zero (by omega)
  rw [empty, List.take_nil, List.append_nil] at perm
  exact ⟨none.mp empty, (committed_perm_iff (kept.few emitter member)).mp perm⟩

def tenCaps : EventCaps := ⟨10, 10⟩

theorem exchange_listed : (∃ ret, getTxEvents (textsOf exchanged) tenCaps exchangeManager ∅ 5 1 0 = .ok ret ∧ ret.Perm exchanged) ∧
    getTxEvents (textsOf exchanged) tenCaps exchangeManager ∅ 5 1 0 = .ok exchanged := by
  have listed := @receipt_exact_iff _ tenCaps _ _ _ _ exchange_run exchange_readable (List.mem_singleton_self exchange) (by decide)
  exact ⟨listed.1.mpr ⟨fun _ => rfl, trivial⟩, listed.2 (fun _ => rfl) trivial⟩

/-- A transaction with one log. -/
def deposit : Emitter := { exchange with emission := .machine [⟨6, [], []⟩] }

def deposited : Event := ⟨"", 0, 5, 0, 3, 1, 6, [], [], false⟩

private theorem deposit_run : EventRun (textsOf [deposited]) [deposit] { events := [deposited] } ∅ :=
  .block (.start fun _ => rfl) deposit.block [(deposit.tx, deposit.emission)] nofun (by decide)

/-- The database after a save has the event under all prefixes of its key. -/
theorem deposit_saved (json : JsonLibrary) : (EventManager.save json { events := [deposited] } ∅).getBatch DBPrefix.events =
      [(eventKey deposited, deposited.serialize json)] ∧
    ∃ key, (EventManager.save json { events := [deposited] } ∅).getBatch (DBPrefix.events ++
      (uint64ToBytes deposit.block.blockHeight ++ uint64ToBytes deposit.txIndex)) = [(key, deposited.serialize json)] :=
  ⟨rfl, _, rfl⟩

theorem deposit_reads (key : Bytes) : [(key, deposited.serialize (textsOf [deposited]))].mapM
    (fun entry => Event.ofString (textsOf [deposited]) entry.2) = .ok [deposited] := by
  have readable : Readable (textsOf [deposited]) [deposit] := readable_textsOf rfl (List.nodup_singleton _)
  have reads := ofString_serialize (readable deposit (List.mem_singleton_self _) deposited (List.mem_singleton_self _))
  exact mapM_ok_cons.mpr ⟨deposited, reads, [], rfl, rfl⟩

/-- After a restart the event is listed twice. -/
theorem deposit_listed_twice : ∃ opened db, EventRun (textsOf [deposited]) [deposit] opened db ∧ emitted deposit = [deposited] ∧
    getTxEvents (textsOf [deposited]) tenCaps opened db deposit.tx.hash deposit.block.blockHeight deposit.txIndex =
      .ok [deposited, deposited] ∧ ¬ [deposited, deposited].Perm (emitted deposit) := by
  obtain ⟨all, key, placed⟩ := deposit_saved (textsOf [deposited])
  have loaded : load (textsOf [deposited]) (EventManager.save (textsOf [deposited]) { events := [deposited] } ∅) =
      .ok { events := [deposited] } := by
    rw [load, all]
    exact bind_ok.mpr ⟨[deposited], deposit_reads _, rfl⟩
  refine ⟨_, _, .restart deposit_run loaded, rfl, ?_, ?_⟩
  · rw [getTxEvents, placed]
    exact fetch_ok (deposit_reads key) (by decide)
  · intro perm
    exact absurd perm.length_eq (by decide)

end OrbiterSDK.Proofs.Receipts
