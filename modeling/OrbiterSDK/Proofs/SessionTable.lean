import OrbiterSDK.Lib.Simulation
import OrbiterSDK.P2P.ManagerBase

/-! The table of sessions. Entries are erased by the id of a session and not by the session, and a header that is too
large closes a session without erasing it. -/

namespace OrbiterSDK.Proofs.SessionTable
open Lib P2P ManagerBase

/-- A session that has finished its handshake and has not been closed. -/
def LiveAt (manager : ManagerBase) (s : Nat) (nodeId : NodeID) : Prop :=
  ∃ session, manager.connections[s]? = some session ∧ session.doneHandshake = true ∧ session.closing = false ∧ session.nodeId = nodeId

/-- The table lists exactly the sessions that are live, under their ids. -/
def Exact (manager : ManagerBase) : Prop := ∀ nodeId s, manager.sessions nodeId = some s ↔ LiveAt manager s nodeId

/-- The session whose operation, write or close a step is. -/
def actor : Step → Option Nat
  | .complete s _ | .writing s _ | .failWrite s _ _ | .doClose s _ => some s
  | _ => none

/-- What a session does leaves the entries of the others. -/
def OwnOnly (manager : ManagerBase) (step : Step) : Prop := ∀ s, actor step = some s → ∀ nodeId other, other ≠ s →
  manager.sessions nodeId = some other → (manager.perform step).2.sessions nodeId = some other

/-- No other session has taken the place of one that is done with its handshake. -/
def Own (manager : ManagerBase) (s : Nat) (session : Session) : Prop :=
  session.doneHandshake = true → ∀ other, manager.sessions session.nodeId = some other → other = s

/-- A session that is listed does not read a header that is too large, and one whose place another has taken does not
fail any more. -/
def Regular (manager : ManagerBase) : Step → Prop
  | .complete s (.failed (.other _)) => ∀ session pending, manager.connections[s]? = some session → session.pending = some pending →
      Own manager s session
  | .complete s (.header messageSize) => ∀ session, manager.connections[s]? = some session → session.pending = some .readHeader →
      maxMessageSize < messageSize.toNat → manager.sessions session.nodeId ≠ some s
  | .failWrite s index (.other _) => ∀ session transfer, manager.connections[s]? = some session →
      session.outbound.inFlight[index]? = some transfer → Own manager s session
  | _ => True

def Shaking : Option Pending → Prop
  | some .connect | some .writeHandshake | some .readHandshake => True
  | _ => False

/-- Before the end of the handshake nothing is written, and nothing but a failure closes the session. -/
structure Sane (session : Session) : Prop where
  shaking : Shaking session.pending → session.doneHandshake = false ∧ session.closing = false
  silent : session.doneHandshake = false → session.outbound = {}

structure Kept (manager : ManagerBase) : Prop where
  exact_ : Exact manager
  sane : ∀ (s : Nat) (session : Session), manager.connections[s]? = some session → Sane session
  started : ∀ nodeId s, manager.sessions nodeId = some s → manager.started = true

section Updates
variable {manager : ManagerBase} {s t : Nat} {nodeId : NodeID} {change : Session → Session} {session : Session}

theorem update_getElem? : (manager.update s change).connections[t]? =
    if s = t then (manager.connections[t]?).map change else manager.connections[t]? := by
  by_cases same : s = t
  · simp [update, same]
  · simp [update, same]

theorem liveAt_update (same : ∀ session, (change session).doneHandshake = session.doneHandshake ∧
    (change session).closing = session.closing ∧ (change session).nodeId = session.nodeId) :
    LiveAt (manager.update s change) t nodeId ↔ LiveAt manager t nodeId := by
  unfold LiveAt
  rw [update_getElem?]
  split
  · simp only [Option.map_eq_some_iff]
    constructor
    · rintro ⟨_, ⟨session, here, rfl⟩, live⟩
      obtain ⟨done, closing, id⟩ := same session
      exact ⟨session, here, done ▸ closing ▸ id ▸ live⟩
    · rintro ⟨session, here, live⟩
      obtain ⟨done, closing, id⟩ := same session
      exact ⟨_, ⟨session, here, rfl⟩, done.symm ▸ closing.symm ▸ id.symm ▸ live⟩
  · exact Iff.rfl

theorem liveAt_close : LiveAt (manager.close s) t nodeId ↔ t ≠ s ∧ LiveAt manager t nodeId := by
  unfold LiveAt close
  rw [update_getElem?]
  split
  case isTrue same =>
    simp only [Option.map_eq_some_iff]
    constructor
    · rintro ⟨_, ⟨session, here, rfl⟩, _, closing, _⟩
      cases closing
    · rintro ⟨other, _⟩
      exact absurd same.symm other
  case isFalse other => exact (and_iff_right (Ne.symm other)).symm

/-- What a change leaves in every session, all sessions have after it. -/
theorem sane_update (sane : ∀ (t : Nat) (session : Session), manager.connections[t]? = some session → Sane session)
    (each : ∀ session, manager.connections[s]? = some session → Sane session → Sane (change session)) (t : Nat) (session : Session)
    (here : (manager.update s change).connections[t]? = some session) : Sane session := by
  rw [update_getElem?] at here
  split at here
  case isTrue same =>
    obtain ⟨before, found, rfl⟩ := Option.map_eq_some_iff.mp here
    exact each before (same ▸ found) (sane t before found)
  case isFalse => exact sane t session here

theorem Kept.update (kept : Kept manager) (same : ∀ session, (change session).doneHandshake = session.doneHandshake ∧
    (change session).closing = session.closing ∧ (change session).nodeId = session.nodeId)
    (each : ∀ session, manager.connections[s]? = some session → Sane session → Sane (change session)) : Kept (manager.update s change) where
  exact_ nodeId t := (kept.exact_ nodeId t).trans (liveAt_update same).symm
  sane := sane_update kept.sane each
  started := kept.started

theorem Sane.closed {session : Session} (sane : Sane session) (settled : ¬ Shaking session.pending) :
    Sane { session with closing := true } where
  shaking here := absurd here settled
  silent := sane.silent

theorem Kept.close (kept : Kept manager) (unlisted : ∀ nodeId, manager.sessions nodeId ≠ some s)
    (settled : ∀ session, manager.connections[s]? = some session → ¬ Shaking session.pending) : Kept (manager.close s) where
  exact_ nodeId t := by
    rw [liveAt_close, ← kept.exact_]
    constructor
    · intro listed
      refine ⟨?_, listed⟩
      rintro rfl
      exact unlisted nodeId listed
    · exact fun ⟨_, listed⟩ => listed
  sane := sane_update kept.sane fun session here sane => sane.closed (settled session here)
  started := kept.started

/-- The entry of a live session is erased and the session closed. -/
theorem Kept.drop (kept : Kept manager) (listed : manager.sessions nodeId = some s)
    (settled : ∀ session, manager.connections[s]? = some session → ¬ Shaking session.pending) :
    Kept { manager.close s with sessions := Function.update manager.sessions nodeId none } where
  exact_ other t := by
    have live : LiveAt { manager.close s with sessions := Function.update manager.sessions nodeId none } t other ↔
        LiveAt (manager.close s) t other := Iff.rfl
    rw [live, liveAt_close, ← kept.exact_]
    show Function.update manager.sessions nodeId none other = some t ↔ _
    by_cases here : other = nodeId
    · rw [here, Function.update_self, listed]
      constructor
      · exact nofun
      · rintro ⟨apart, same⟩
        exact absurd (Option.some.inj same).symm apart
    · rw [Function.update_of_ne here]
      constructor
      · intro entry
        refine ⟨?_, entry⟩
        rintro rfl
        obtain ⟨_, found, _, _, rfl⟩ := (kept.exact_ nodeId t).mp listed
        obtain ⟨_, found', _, _, rfl⟩ := (kept.exact_ other t).mp entry
        rw [found] at found'
        exact here (Option.some.inj found' ▸ rfl)
      · exact fun ⟨_, entry⟩ => entry
  sane := sane_update kept.sane fun session here sane => sane.closed (settled session here)
  started other t entry := by
    by_cases here : other = nodeId
    · rw [here] at entry
      change Function.update manager.sessions nodeId none nodeId = some t at entry
      rw [Function.update_self] at entry
      cases entry
    · change Function.update manager.sessions nodeId none other = some t at entry
      rw [Function.update_of_ne here] at entry
      exact kept.started other t entry

end Updates

section Steps
variable {manager : ManagerBase} {s : Nat} {session now : Session} {ec : ErrorCode}

theorem Kept.unlisted (kept : Kept manager) (here : manager.connections[s]? = some now)
    (other : now.doneHandshake = true → manager.sessions now.nodeId ≠ some s) (nodeId : NodeID) : manager.sessions nodeId ≠ some s := by
  intro listed
  obtain ⟨session, found, done, _, rfl⟩ := (kept.exact_ nodeId s).mp listed
  obtain rfl := Option.some.inj (here.symm.trans found)
  exact other done listed

/-- A failure of a session whose place no other session has taken. -/
theorem Kept.handleError (kept : Kept manager) (here : manager.connections[s]? = some now)
    (done : now.doneHandshake = session.doneHandshake) (id : now.nodeId = session.nodeId) (settled : ¬ Shaking now.pending)
    (own : ∀ value, ec = .other value → Own manager s session) : Kept (manager.handleError s session ec) := by
  have still : ∀ session, manager.connections[s]? = some session → ¬ Shaking session.pending := by
    intro session found
    obtain rfl := Option.some.inj (here.symm.trans found)
    exact settled
  cases ec with
  | operationCanceled => exact kept
  | other value =>
    have own := own value rfl
    unfold ManagerBase.handleError
    by_cases finished : session.doneHandshake = true
    · rw [if_pos finished]
      cases entry : manager.sessions session.nodeId with
      | none =>
        have unlisted := kept.unlisted here fun _ listed => by
          rw [id, entry] at listed
          cases listed
        have same : manager.unregisterSessionInternal session.nodeId = manager := by
          unfold unregisterSessionInternal
          split
          · rw [← entry, Function.update_eq_self]
          · rfl
        rw [same]
        exact kept.close unlisted still
      | some other =>
        obtain rfl := own finished other entry
        unfold unregisterSessionInternal
        rw [if_pos (kept.started _ _ entry)]
        exact kept.drop entry still
    · rw [if_neg finished]
      refine kept.close (kept.unlisted here fun ended => ?_) still
      exact absurd (done ▸ ended) finished

theorem register_cases (manager : ManagerBase) (nodeId : NodeID) (s : Nat) :
    manager.registerSessionInternal nodeId s = (false, manager) ∨
    manager.registerSessionInternal nodeId s = (true, { manager with sessions := Function.update manager.sessions nodeId (some s) }) ∧
      manager.started = true ∧ manager.sessions nodeId = none := by
  unfold registerSessionInternal
  cases started : manager.started with
  | false => exact .inl rfl
  | true =>
    cases taken : manager.sessions nodeId with
    | some other => exact .inl rfl
    | none => exact .inr ⟨rfl, rfl, rfl⟩

/-- What the handshake tells about a session. -/
def introduced (session : Session) (flag high low : UInt8) (before : Session) : Session := { before with
  type := if flag = 0 then .normalNode else .discoveryNode
  doneHandshake := true
  nodeId := (session.address, UInt16.ofNat (Utils.bytesToUint [high, low])) }

theorem liveAt_introduced {flag high low : UInt8} {t : Nat} {nodeId : NodeID} (here : manager.connections[s]? = some now)
    (active : now.closing = false) : LiveAt (manager.update s (introduced session flag high low)) t nodeId ↔
      t = s ∧ nodeId = (session.address, UInt16.ofNat (Utils.bytesToUint [high, low])) ∨ t ≠ s ∧ LiveAt manager t nodeId := by
  unfold LiveAt
  rw [update_getElem?]
  by_cases same : s = t
  · subst same
    rw [if_pos rfl, here, Option.map_some]
    constructor
    · rintro ⟨session', found, _, _, rfl⟩
      obtain rfl := Option.some.inj found
      exact .inl ⟨rfl, rfl⟩
    · rintro (⟨_, rfl⟩ | ⟨apart, _⟩)
      · exact ⟨_, rfl, rfl, active, rfl⟩
      · exact absurd rfl apart
  · rw [if_neg same]
    constructor
    · exact fun live => .inr ⟨Ne.symm same, live⟩
    · rintro (⟨equal, _⟩ | ⟨_, live⟩)
      · exact absurd equal.symm same
      · exact live

private theorem sane_introduced {flag high low : UInt8} (settled : ¬ Shaking now.pending) : Sane (introduced session flag high low now) where
  shaking here := absurd here settled
  silent fresh := by cases fresh

variable {after : ManagerBase}

theorem finishHandshake_refused {flag high low : UInt8}
    (no : (manager.update s (introduced session flag high low)).registerSessionInternal
      (session.address, UInt16.ofNat (Utils.bytesToUint [high, low])) s = (false, after)) :
    manager.finishHandshake s session flag high low = after.close s := by
  unfold introduced at no
  simp only [ManagerBase.finishHandshake, no]

theorem finishHandshake_registered {flag high low : UInt8}
    (yes : (manager.update s (introduced session flag high low)).registerSessionInternal
      (session.address, UInt16.ofNat (Utils.bytesToUint [high, low])) s = (true, after)) :
    manager.finishHandshake s session flag high low = after.await s .readHeader := by
  unfold introduced at yes
  simp only [ManagerBase.finishHandshake, yes]

/-- The end of a handshake: the session is listed, or closed. -/
theorem Kept.finishHandshake (kept : Kept manager) (here : manager.connections[s]? = some now) (fresh : now.doneHandshake = false)
    (active : now.closing = false) (settled : ¬ Shaking now.pending) (flag high low : UInt8) :
    Kept (manager.finishHandshake s session flag high low) := by
  have unlisted := kept.unlisted here fun ended => by
    rw [fresh] at ended
    cases ended
  have only : ∀ found, manager.connections[s]? = some found → ¬ Shaking found.pending := by
    intro found same
    obtain rfl := Option.some.inj (here.symm.trans same)
    exact settled
  have sane : ∀ (t : Nat) (session' : Session), (manager.update s (introduced session flag high low)).connections[t]? = some session' →
      Sane session' := sane_update kept.sane fun found same _ => sane_introduced (only found same)
  have quiet : ∀ found, (manager.update s (introduced session flag high low)).connections[s]? = some found → ¬ Shaking found.pending := by
    intro found same
    rw [update_getElem?, if_pos rfl, here] at same
    obtain rfl := Option.some.inj same
    exact settled
  have refused : Kept ((manager.update s (introduced session flag high low)).close s) := by
    refine ⟨fun nodeId t => ?_, sane_update sane fun found same sane => sane.closed (quiet found same), kept.started⟩
    rw [liveAt_close, liveAt_introduced here active, ← kept.exact_]
    show manager.sessions nodeId = some t ↔ _
    constructor
    · intro listed
      have apart : t ≠ s := by
        rintro rfl
        exact unlisted nodeId listed
      exact ⟨apart, .inr ⟨apart, listed⟩⟩
    · rintro ⟨apart, ⟨equal, _⟩ | ⟨_, listed⟩⟩
      · exact absurd equal apart
      · exact listed
  obtain no | ⟨yes, started, free⟩ := register_cases (manager.update s (introduced session flag high low))
    (session.address, UInt16.ofNat (Utils.bytesToUint [high, low])) s
  · rw [finishHandshake_refused no]
    exact refused
  · rw [finishHandshake_registered yes]
    refine Kept.update ⟨fun nodeId t => ?_, sane, fun _ _ _ => started⟩ (fun _ => ⟨rfl, rfl, rfl⟩) fun found same sane => ?_
    · refine Iff.trans ?_ (liveAt_introduced here active).symm
      rw [← kept.exact_]
      show Function.update manager.sessions _ (some s) nodeId = some t ↔ _
      change manager.sessions _ = none at free
      by_cases its : nodeId = (session.address, UInt16.ofNat (Utils.bytesToUint [high, low]))
      · rw [its, Function.update_self, free]
        constructor
        · exact fun same => .inl ⟨(Option.some.inj same).symm, rfl⟩
        · rintro (⟨rfl, _⟩ | ⟨_, listed⟩)
          · rfl
          · cases listed
      · rw [Function.update_of_ne its]
        constructor
        · intro listed
          refine .inr ⟨?_, listed⟩
          rintro rfl
          exact unlisted nodeId listed
        · rintro (⟨_, equal⟩ | ⟨_, listed⟩)
          · exact absurd equal its
          · exact listed
    · change (manager.update s (introduced session flag high low)).connections[s]? = some found at same
      rw [update_getElem?, if_pos rfl, here] at same
      obtain rfl := Option.some.inj same
      exact ⟨False.elim, sane.silent⟩

theorem Kept.onReadHeader {messageSize : UInt64} (kept : Kept manager) (here : manager.connections[s]? = some now)
    (settled : ¬ Shaking now.pending) (fits : maxMessageSize < messageSize.toNat → manager.sessions now.nodeId ≠ some s) :
    Kept (manager.onReadHeader s messageSize) := by
  unfold ManagerBase.onReadHeader
  split
  case isTrue large =>
    refine kept.close (kept.unlisted here fun _ => fits large) fun found same => ?_
    obtain rfl := Option.some.inj (here.symm.trans same)
    exact settled
  case isFalse => exact kept.update (fun _ => ⟨rfl, rfl, rfl⟩) fun _ _ sane => ⟨False.elim, sane.silent⟩

theorem found_or_last {l : List Session} {last : Session} {t : Nat} (found : (l ++ [last])[t]? = some session) :
    l[t]? = some session ∨ session = last := by
  rw [List.getElem?_append] at found
  split at found
  case isTrue => exact .inl found
  case isFalse => exact .inr (List.mem_singleton.mp (List.mem_of_getElem? found))

theorem Kept.make {address : IpAddress} {port : UInt16} {connectionType : ConnectionType} (kept : Kept manager) :
    Kept { manager with connections := manager.connections ++ [Session.run { address, port, connectionType }] } where
  exact_ nodeId t := by
    rw [show _ ↔ manager.sessions nodeId = some t from Iff.rfl, kept.exact_]
    unfold LiveAt
    constructor
    · rintro ⟨session, found, live⟩
      exact ⟨session, List.getElem?_append_left (List.getElem?_eq_some_iff.mp found).1 ▸ found, live⟩
    · rintro ⟨session, found, done, rest⟩
      cases found_or_last found with
      | inl old => exact ⟨session, old, done, rest⟩
      | inr new =>
        rw [new] at done
        cases done
  sane t session found := by
    cases found_or_last found with
    | inl old => exact kept.sane t session old
    | inr new => exact new ▸ ⟨fun _ => ⟨rfl, rfl⟩, fun _ => rfl⟩
  started := kept.started

/-- A session that has something to write is done with its handshake. -/
theorem Sane.finished (sane : Sane session) (writing : session.outbound ≠ {}) : session.doneHandshake = true := by
  cases done : session.doneHandshake with
  | true => rfl
  | false => exact absurd (sane.silent done) writing

theorem Sane.settled (sane : Sane session) (done : session.doneHandshake = true) : ¬ Shaking session.pending := by
  intro shaking
  rw [(sane.shaking shaking).1] at done
  cases done

variable {out : List (NodeID × Message)}

/-- What the handler of an operation does: it deals with a failure, begins the next operation, ends a handshake or weighs a header. -/
theorem completed_cases {pending : Pending} {completion : Completion}
    (does : manager.completed s session pending completion = some (out, after)) :
    (∃ ec, completion = .failed ec ∧ after = manager.handleError s session ec) ∨
      (∃ next, (Shaking (some next) → Shaking (some pending)) ∧ after = manager.await s next) ∨
      (∃ flag high low, Shaking (some pending) ∧ after = manager.finishHandshake s session flag high low) ∨
      ∃ messageSize, pending = .readHeader ∧ completion = .header messageSize ∧ after = manager.onReadHeader s messageSize := by
  unfold ManagerBase.completed at does
  split at does
  · cases does
    exact .inl ⟨_, rfl, rfl⟩
  · cases does
    exact .inr (.inl ⟨_, fun _ => trivial, rfl⟩)
  · cases does
    exact .inr (.inl ⟨_, fun _ => trivial, rfl⟩)
  · cases does
    exact .inr (.inr (.inl ⟨_, _, _, trivial, rfl⟩))
  · cases does
    exact .inr (.inr (.inr ⟨_, rfl, rfl, rfl⟩))
  · obtain ⟨_, does⟩ := Option.ite_none_right_eq_some.mp does
    cases does
    exact .inr (.inl ⟨_, False.elim, rfl⟩)
  · cases does

theorem Kept.completed {pending : Pending} {completion : Completion}
    (kept : Kept manager) (here : manager.connections[s]? = some session) (asked : session.pending = some pending)
    (does : (manager.update s fun session => { session with pending := none }).completed s session pending completion = some (out, after))
    (regular : Regular manager (.complete s completion)) : Kept after := by
  have sane := kept.sane s session here
  have kept' : Kept (manager.update s fun session => { session with pending := none }) :=
    kept.update (fun _ => ⟨rfl, rfl, rfl⟩) fun _ _ sane => ⟨False.elim, sane.silent⟩
  have here' : (manager.update s fun session => { session with pending := none }).connections[s]? =
      some { session with pending := none } := by
    rw [update_getElem?, if_pos rfl, here, Option.map_some]
  obtain ⟨ec, rfl, rfl⟩ | ⟨next, shakes, rfl⟩ | ⟨flag, high, low, shakes, rfl⟩ | ⟨messageSize, rfl, rfl, rfl⟩ := completed_cases does
  · refine kept'.handleError here' rfl rfl id ?_
    rintro value rfl
    exact regular session pending here asked
  · refine kept'.update (fun _ => ⟨rfl, rfl, rfl⟩) fun found same sane' => ⟨fun shaking => ?_, sane'.silent⟩
    obtain rfl := Option.some.inj (here'.symm.trans same)
    exact sane.shaking (asked ▸ shakes shaking)
  · obtain ⟨fresh, active⟩ := sane.shaking (asked ▸ shakes)
    exact kept'.finishHandshake here' fresh active id _ _ _
  · exact kept'.onReadHeader here' id (regular session here asked)

/-- Every transition of the writes of a session needs something written. -/
private theorem writing_nothing {turn : Outbound.Turn} {outbound : Outbound}
    (does : Outbound.proceed {} turn = some outbound) : False := by
  cases turn <;> cases does

theorem Kept.happen {step : Step} (kept : Kept manager)
    (does : manager.happen step = some (out, after)) (regular : Regular manager step) : Kept after := by
  cases step with
  | make address port connectionType =>
    cases does
    exact kept.make
  | complete s completion =>
    obtain ⟨session, here, does⟩ := Option.bind_eq_some_iff.mp does
    obtain ⟨pending, asked, does⟩ := Option.bind_eq_some_iff.mp does
    exact kept.completed here asked does regular
  | write nodeId message =>
    obtain ⟨s, listed, does⟩ := Option.bind_eq_some_iff.mp does
    cases does
    obtain ⟨session, here, done, _⟩ := (kept.exact_ nodeId s).mp listed
    refine kept.update (fun _ => ⟨rfl, rfl, rfl⟩) fun found same sane => ⟨sane.shaking, fun fresh => ?_⟩
    obtain rfl := Option.some.inj (here.symm.trans same)
    rw [done] at fresh
    cases fresh
  | writing s turn =>
    obtain ⟨session, here, does⟩ := Option.bind_eq_some_iff.mp does
    obtain ⟨outbound, wrote, does⟩ := Option.bind_eq_some_iff.mp does
    cases does
    refine kept.update (fun _ => ⟨rfl, rfl, rfl⟩) fun found same sane => ⟨sane.shaking, fun fresh => ?_⟩
    obtain rfl := Option.some.inj (here.symm.trans same)
    rw [sane.silent fresh] at wrote
    exact (writing_nothing wrote).elim
  | failWrite s index ec =>
    obtain ⟨session, here, does⟩ := Option.bind_eq_some_iff.mp does
    obtain ⟨transfer, flying, does⟩ := Option.bind_eq_some_iff.mp does
    cases does
    have done : session.doneHandshake = true := by
      refine (kept.sane s session here).finished fun nothing => ?_
      rw [nothing] at flying
      cases flying
    have settled := (kept.sane s session here).settled done
    have kept' : Kept (manager.update s fun session => { session with
        outbound := { session.outbound with inFlight := session.outbound.inFlight.eraseIdx index } }) := by
      refine kept.update (fun _ => ⟨rfl, rfl, rfl⟩) fun found same sane => ⟨sane.shaking, fun fresh => ?_⟩
      obtain rfl := Option.some.inj (here.symm.trans same)
      rw [done] at fresh
      cases fresh
    have here' : (manager.update s fun session => { session with
        outbound := { session.outbound with inFlight := session.outbound.inFlight.eraseIdx index } }).connections[s]? =
        some { session with outbound := { session.outbound with inFlight := session.outbound.inFlight.eraseIdx index } } := by
      rw [update_getElem?, if_pos rfl, here, Option.map_some]
    refine kept'.handleError here' rfl rfl settled ?_
    rintro value rfl
    exact regular session transfer here flying
  | disconnect nodeId =>
    cases does
    unfold disconnectSessionInternal
    split
    case isTrue => exact kept
    case isFalse =>
      split
      case h_1 => exact kept
      case h_2 s listed =>
        refine kept.drop listed fun found here => ?_
        obtain ⟨session, here', done, _⟩ := (kept.exact_ nodeId s).mp listed
        obtain rfl := Option.some.inj (here'.symm.trans here)
        exact (kept.sane s session here').settled done
  | doClose s closed =>
    obtain ⟨session, here, does⟩ := Option.bind_eq_some_iff.mp does
    obtain ⟨_, does⟩ := Option.ite_none_right_eq_some.mp does
    cases does
    exact kept.update (fun _ => ⟨rfl, rfl, rfl⟩) fun _ _ sane => ⟨sane.shaking, sane.silent⟩

theorem Kept.perform {step : Step} (kept : Kept manager) (regular : Regular manager step) : Kept (manager.perform step).2 := by
  unfold ManagerBase.perform
  cases does : manager.happen step with
  | none => exact kept
  | some result => exact kept.happen does regular

theorem own_iff {change : Session → Session} {value : Nat} (started : ∀ nodeId s, manager.sessions nodeId = some s → manager.started = true) :
    (∀ nodeId other, other ≠ s → manager.sessions nodeId = some other →
      ((manager.update s change).handleError s session (.other value)).sessions nodeId = some other) ↔ Own manager s session := by
  have erased (done : session.doneHandshake = true) (going : manager.started = true) :
      ((manager.update s change).handleError s session (.other value)).sessions =
        Function.update manager.sessions session.nodeId none := by
    have going : (manager.update s change).started = true := going
    unfold ManagerBase.handleError
    rw [if_pos done, unregisterSessionInternal, if_pos going]
    rfl
  constructor
  · intro others done other listed
    by_contra apart
    have still := others session.nodeId other apart listed
    rw [erased done (started _ _ listed), Function.update_self] at still
    cases still
  · intro own nodeId other apart listed
    by_cases done : session.doneHandshake = true
    · rw [erased done (started _ _ listed), Function.update_of_ne, listed]
      rintro rfl
      exact apart (own done other listed)
    · have same : ((manager.update s change).handleError s session (.other value)).sessions = manager.sessions := by
        unfold ManagerBase.handleError
        rw [if_neg done]
        rfl
      rw [same, listed]

theorem finishHandshake_sessions {flag high low : UInt8} {nodeId : NodeID} {other : Nat} (listed : manager.sessions nodeId = some other) :
    (manager.finishHandshake s session flag high low).sessions nodeId = some other := by
  obtain no | ⟨yes, started, free⟩ := register_cases (manager.update s (introduced session flag high low))
    (session.address, UInt16.ofNat (Utils.bytesToUint [high, low])) s
  · rw [finishHandshake_refused no]
    exact listed
  · rw [finishHandshake_registered yes]
    show Function.update manager.sessions _ (some s) nodeId = some other
    change manager.sessions _ = none at free
    rw [Function.update_of_ne, listed]
    rintro rfl
    rw [listed] at free
    cases free

theorem completed_sessions {pending : Pending} {completion : Completion}
    (does : manager.completed s session pending completion = some (out, after)) (works : ∀ ec, completion ≠ .failed ec)
    {nodeId : NodeID} {other : Nat} (listed : manager.sessions nodeId = some other) : after.sessions nodeId = some other := by
  obtain ⟨ec, failed, _⟩ | ⟨next, _, rfl⟩ | ⟨flag, high, low, _, rfl⟩ | ⟨messageSize, _, _, rfl⟩ := completed_cases does
  · exact absurd failed (works ec)
  · exact listed
  · exact finishHandshake_sessions listed
  · unfold ManagerBase.onReadHeader
    split
    · exact listed
    · exact listed

theorem perform_of {step : Step} (does : manager.happen step = some (out, after)) :
    (manager.perform step).2 = after := by
  rw [ManagerBase.perform, does, Option.getD_some]

theorem Kept.ownOnly {step : Step} (kept : Kept manager) (regular : Regular manager step) : OwnOnly manager step := by
  intro s acts nodeId other apart listed
  cases does : manager.happen step with
  | none =>
    rw [ManagerBase.perform, does]
    exact listed
  | some result =>
    obtain ⟨out, after⟩ := result
    rw [perform_of does]
    cases step with
    | make | write | disconnect => cases acts
    | complete s' completion =>
      obtain rfl := Option.some.inj acts
      obtain ⟨session, here, does⟩ := Option.bind_eq_some_iff.mp does
      obtain ⟨pending, asked, does⟩ := Option.bind_eq_some_iff.mp does
      by_cases works : ∀ ec, completion ≠ .failed ec
      · exact completed_sessions does works listed
      · push Not at works
        obtain ⟨ec, rfl⟩ := works
        cases does
        cases ec with
        | operationCanceled => exact listed
        | other value =>
          exact (own_iff kept.started).mpr (regular session pending here asked) nodeId other apart listed
    | writing s' turn =>
      obtain ⟨session, here, does⟩ := Option.bind_eq_some_iff.mp does
      obtain ⟨outbound, wrote, does⟩ := Option.bind_eq_some_iff.mp does
      cases does
      exact listed
    | failWrite s' index ec =>
      obtain rfl := Option.some.inj acts
      obtain ⟨session, here, does⟩ := Option.bind_eq_some_iff.mp does
      obtain ⟨transfer, flying, does⟩ := Option.bind_eq_some_iff.mp does
      cases does
      cases ec with
      | operationCanceled => exact listed
      | other value => exact (own_iff kept.started).mpr (regular session transfer here flying) nodeId other apart listed
    | doClose s' closed =>
      obtain ⟨session, here, does⟩ := Option.bind_eq_some_iff.mp does
      obtain ⟨_, does⟩ := Option.ite_none_right_eq_some.mp does
      cases does
      exact listed

/-- A step that leaves the table exact and the entries of the other sessions in it is regular. -/
theorem Kept.regular {step : Step} (kept : Kept manager) (exact_ : Exact (manager.perform step).2) (others : OwnOnly manager step) :
    Regular manager step := by
  cases step with
  | make | write | writing | disconnect | doClose => trivial
  | complete s completion =>
    cases completion with
    | done | handshake | message => trivial
    | header messageSize =>
      intro session here asked large listed
      have does : manager.happen (.complete s (.header messageSize)) =
          some ([], (manager.update s fun session => { session with pending := none }).onReadHeader s messageSize) := by
        simp only [ManagerBase.happen, here, asked, bind, Option.bind_some, ManagerBase.completed]
      rw [perform_of does, ManagerBase.onReadHeader, if_pos large] at exact_
      have live := (exact_ session.nodeId s).mp listed
      exact (liveAt_close.mp live).1 rfl
    | failed ec =>
      cases ec with
      | operationCanceled => trivial
      | other value =>
        intro session pending here asked
        have does : manager.happen (.complete s (.failed (.other value))) =
            some ([], (manager.update s fun session => { session with pending := none }).handleError s session (.other value)) := by
          simp only [ManagerBase.happen, here, asked, bind, Option.bind_some, ManagerBase.completed]
        have others := others s rfl
        rw [perform_of does] at others
        exact (own_iff kept.started).mp others
  | failWrite s index ec =>
    cases ec with
    | operationCanceled => trivial
    | other value =>
      intro session transfer here flying
      have does : manager.happen (.failWrite s index (.other value)) = some ([], (manager.update s fun session => { session with
          outbound := { session.outbound with inFlight := session.outbound.inFlight.eraseIdx index } }).handleError s session (.other value)) := by
        simp only [ManagerBase.happen, here, flying, bind, pure, Option.bind_some]
      have others := others s rfl
      rw [perform_of does] at others
      exact (own_iff kept.started).mp others

end Steps

private theorem kept_start {started : Bool} : Kept { started } where
  exact_ _ _ := ⟨nofun, fun ⟨_, found, _⟩ => nomatch found⟩
  sane _ _ found := nomatch found
  started _ _ listed := nomatch listed

/-- The table lists exactly the live sessions after every step of a run, and no session takes the entry of another one,
if and only if every step is regular. -/
theorem table_exact_iff (started : Bool) (steps : List Step) :
    Along perform (fun manager step => Exact (manager.perform step).2 ∧ OwnOnly manager step) { started } steps ↔
      Along perform Regular { started } steps := by
  have keeps : ∀ manager step, Kept manager → Regular manager step → Kept (manager.perform step).2 :=
    fun _ _ kept regular => kept.perform regular
  refine along_congr (fun manager step kept => ⟨?_, ?_⟩) keeps steps kept_start
  · exact fun ⟨exact_, others⟩ => kept.regular exact_ others
  · exact fun regular => ⟨(kept.perform regular).exact_, kept.ownOnly regular⟩

/-- A client whose peer names port 1. -/
def joins (s : Nat) : List Step := [.make (.v4 7) 50000 .inbound, .complete s .done, .complete s (.handshake 0 0 1)]

/-- The first session has the header of a message in the socket when its read fails. The same node connects again, and then the
write fails. -/
def lateFailure : List Step :=
  joins 0 ++ [.write (.v4 7, 1) ⟨[]⟩, .writing 0 (.start 0), .writing 0 .run, .writing 0 .run, .writing 0 .run, .complete 0 (.failed (.other 1))] ++
    joins 1 ++ [.failWrite 0 0 (.other 1)]

/-- A session that is closed for a large header stays listed, and a late failure of a session erases the one that has come after it. -/
theorem dead_listed_and_live_erased :
    ¬ (∀ (started : Bool) (steps : List Step),
      Along perform (fun manager step => Exact (manager.perform step).2 ∧ OwnOnly manager step) { started } steps) ∧
    (after perform { started := true } (joins 0 ++ [.complete 0 (.header 134217729)])).sessions (.v4 7, 1) = some 0 ∧
    ((after perform { started := true } (joins 0 ++ [.complete 0 (.header 134217729)])).connections[0]?.map (·.closing)) = some true ∧
    (after perform { started := true } (lateFailure.dropLast)).sessions (.v4 7, 1) = some 1 ∧
    (after perform { started := true } lateFailure).sessions (.v4 7, 1) = none ∧
    ((after perform { started := true } lateFailure).connections[1]?.map fun session => (session.doneHandshake, session.closing)) =
      some (true, false) := by
  refine ⟨fun always => ?_, by decide, by decide, by decide, by decide, by decide⟩
  obtain ⟨_, _, _, ⟨exact_, _⟩, _⟩ := always true (joins 0 ++ [.complete 0 (.header 134217729)])
  have listed := (exact_ (.v4 7, 1) 0).mp (by decide)
  obtain ⟨session, here, _, closing, _⟩ := listed
  cases here
  cases closing

end OrbiterSDK.Proofs.SessionTable
