import OrbiterSDK.P2P.Gossip
import OrbiterSDK.Proofs.ChainRuns
import OrbiterSDK.Proofs.Conservation
import OrbiterSDK.Proofs.PeerMessages
import OrbiterSDK.Proofs.SessionTable
import OrbiterSDK.Proofs.SessionWrites

/-! What nodes pass on: every broadcast that the state accepts, to each session once, and nothing else. A block that is
announced once more is the exception. -/

namespace OrbiterSDK.Proofs.Forwarding
open Lib P2P ManagerBase Peer
open SessionTable (Shaking completed_cases update_getElem? found_or_last register_cases introduced finishHandshake_refused finishHandshake_registered)

def writtenTo (manager : ManagerBase) (s : Nat) : List Message := ((manager.connections[s]?).map (·.outbound.written)).getD []

/-- What is listed under an id is a session with that id that is done with its handshake. -/
structure Placed (manager : ManagerBase) : Prop where
  listed : ∀ nodeId s, manager.sessions nodeId = some s →
    ∃ session, manager.connections[s]? = some session ∧ session.nodeId = nodeId ∧ session.doneHandshake = true
  shaking : ∀ (s : Nat) (session : Session), manager.connections[s]? = some session → Shaking session.pending →
    session.doneHandshake = false

/-- No broadcast is written. -/
structure Quiet (before after : ManagerBase) : Prop where
  started : after.started = before.started
  written : ∀ s message, IsBroadcast message → (writtenTo after s).count message = (writtenTo before s).count message
  placed : Placed before → Placed after

theorem Quiet.refl (manager : ManagerBase) : Quiet manager manager := ⟨rfl, fun _ _ _ => rfl, id⟩

theorem Quiet.trans {first second third : ManagerBase} (early : Quiet first second) (late : Quiet second third) : Quiet first third where
  started := late.started.trans early.started
  written s message kind := (late.written s message kind).trans (early.written s message kind)
  placed start := late.placed (early.placed start)

section Moves
variable {manager : ManagerBase} {s : Nat} {change : Session → Session} {session : Session} {nodeId : NodeID}

theorem writtenTo_update (t : Nat) : writtenTo (manager.update s change) t =
    if s = t then ((manager.connections[t]?).map fun session => (change session).outbound.written).getD [] else writtenTo manager t := by
  unfold writtenTo
  rw [update_getElem?]
  split
  · rw [Option.map_map]
    rfl
  · rfl

/-- A change of a session that does not concern its place. -/
structure Minor (manager : ManagerBase) (s : Nat) (change : Session → Session) : Prop where
  same : ∀ session, (change session).nodeId = session.nodeId ∧ (change session).doneHandshake = session.doneHandshake
  written : ∀ session, manager.connections[s]? = some session → ∀ message, IsBroadcast message →
    (change session).outbound.written.count message = session.outbound.written.count message
  shaking : Placed manager → ∀ session, manager.connections[s]? = some session → Shaking (change session).pending →
    session.doneHandshake = false

theorem Placed.update (placed : Placed manager) (same : ∀ session, (change session).nodeId = session.nodeId ∧
    (change session).doneHandshake = session.doneHandshake)
    (shaking : ∀ session, manager.connections[s]? = some session → Shaking (change session).pending → session.doneHandshake = false) :
    Placed (manager.update s change) where
  listed nodeId t listed := by
    obtain ⟨session, here, id, done⟩ := placed.listed nodeId t listed
    rw [update_getElem?]
    split
    · refine ⟨change session, by rw [here]; rfl, ?_, ?_⟩
      · exact (same session).1.trans id
      · exact (same session).2.trans done
    · exact ⟨session, here, id, done⟩
  shaking t session found shakes := by
    rw [update_getElem?] at found
    split at found
    case isTrue equal =>
      obtain ⟨before, here, rfl⟩ := Option.map_eq_some_iff.mp found
      exact (same before).2.trans (shaking before (equal ▸ here) shakes)
    case isFalse => exact placed.shaking t session found shakes

theorem Minor.quiet (minor : Minor manager s change) : Quiet manager (manager.update s change) where
  started := rfl
  written t message kind := by
    rw [writtenTo_update]
    split
    case isTrue equal =>
      unfold writtenTo
      cases here : manager.connections[t]? with
      | none => rfl
      | some session => exact minor.written session (equal ▸ here) message kind
    case isFalse => rfl
  placed placed := placed.update minor.same (minor.shaking placed)

theorem Quiet.unlist {sessions : NodeID → Option Nat} (fewer : ∀ nodeId s, sessions nodeId = some s → manager.sessions nodeId = some s) :
    Quiet manager { manager with sessions } where
  started := rfl
  written _ _ _ := rfl
  placed placed := ⟨fun nodeId s listed => placed.listed nodeId s (fewer nodeId s listed), placed.shaking⟩

theorem erased_fewer {nodeId' : NodeID} {t : Nat} (listed : Function.update manager.sessions nodeId none nodeId' = some t) :
    manager.sessions nodeId' = some t := by
  by_cases same : nodeId' = nodeId
  · rw [same, Function.update_self] at listed
    cases listed
  · rwa [Function.update_of_ne same] at listed

private theorem quiet_unregister (manager : ManagerBase) (nodeId : NodeID) : Quiet manager (manager.unregisterSessionInternal nodeId) := by
  unfold unregisterSessionInternal
  split
  · exact Quiet.unlist fun _ _ => erased_fewer
  · exact Quiet.refl manager

theorem quiet_close (manager : ManagerBase) (s : Nat) : Quiet manager (manager.close s) :=
  Minor.quiet ⟨fun _ => ⟨rfl, rfl⟩, fun _ _ _ _ => rfl, fun placed session here => placed.shaking s session here⟩

theorem quiet_disconnect (manager : ManagerBase) (nodeId : NodeID) : Quiet manager (manager.disconnectSessionInternal nodeId) := by
  unfold disconnectSessionInternal
  split
  · exact Quiet.refl manager
  · split
    · exact Quiet.refl manager
    · exact (quiet_close manager _).trans (Quiet.unlist fun _ _ => erased_fewer)

theorem quiet_handleError (manager : ManagerBase) (s : Nat) (session : Session) (ec : ErrorCode) :
    Quiet manager (manager.handleError s session ec) := by
  cases ec with
  | operationCanceled => exact Quiet.refl manager
  | other value =>
    unfold handleError
    apply Quiet.trans ?_ (quiet_close _ s)
    split
    · exact quiet_unregister manager _
    · exact Quiet.refl manager

theorem quiet_await {pending : Pending} (shaking : Placed manager → ∀ session, manager.connections[s]? = some session →
    Shaking (some pending) → session.doneHandshake = false) : Quiet manager (manager.await s pending) :=
  Minor.quiet ⟨fun _ => ⟨rfl, rfl⟩, fun _ _ _ _ => rfl, shaking⟩

theorem quiet_introduced {flag high low : UInt8} (settled : ∀ session, manager.connections[s]? = some session → ¬ Shaking session.pending)
    (unlisted : Placed manager → ∀ nodeId, manager.sessions nodeId ≠ some s) : Quiet manager (manager.update s (introduced session flag high low)) where
  started := rfl
  written t message _ := by
    rw [writtenTo_update]
    split <;> rfl
  placed placed := by
    refine ⟨fun nodeId t listed => ?_, fun t session found shakes => ?_⟩
    · rw [update_getElem?, if_neg]
      · exact placed.listed nodeId t listed
      · rintro rfl
        exact unlisted placed nodeId listed
    · rw [update_getElem?] at found
      split at found
      case isTrue equal =>
        obtain ⟨before, here, rfl⟩ := Option.map_eq_some_iff.mp found
        exact absurd shakes (settled before (equal ▸ here))
      case isFalse => exact placed.shaking t session found shakes

theorem quiet_list (here : manager.connections[s]? = some session) (id : session.nodeId = nodeId) (done : session.doneHandshake = true) :
    Quiet manager { manager with sessions := Function.update manager.sessions nodeId (some s) } where
  started := rfl
  written _ _ _ := rfl
  placed placed := by
    refine ⟨fun nodeId' t listed => ?_, placed.shaking⟩
    change Function.update manager.sessions nodeId (some s) nodeId' = some t at listed
    by_cases same : nodeId' = nodeId
    · rw [same, Function.update_self] at listed
      obtain rfl := Option.some.inj listed
      exact ⟨session, here, id.trans same.symm, done⟩
    · rw [Function.update_of_ne same] at listed
      exact placed.listed nodeId' t listed

theorem quiet_finishHandshake {now : Session} {flag high low : UInt8} (here : manager.connections[s]? = some now)
    (settled : ¬ Shaking now.pending) (fresh : Placed manager → now.doneHandshake = false) :
    Quiet manager (manager.finishHandshake s session flag high low) := by
  have named : Quiet manager (manager.update s (introduced session flag high low)) := by
    refine quiet_introduced (fun found same => ?_) fun placed nodeId listed => ?_
    · obtain rfl := Option.some.inj (here.symm.trans same)
      exact settled
    · obtain ⟨found, same, _, done⟩ := placed.listed nodeId s listed
      obtain rfl := Option.some.inj (here.symm.trans same)
      rw [fresh placed] at done
      cases done
  have here' : (manager.update s (introduced session flag high low)).connections[s]? = some (introduced session flag high low now) := by
    rw [update_getElem?, if_pos rfl, here, Option.map_some]
  apply named.trans
  obtain no | ⟨yes, _⟩ := register_cases (manager.update s (introduced session flag high low))
    (session.address, UInt16.ofNat (Utils.bytesToUint [high, low])) s
  · rw [finishHandshake_refused no]
    exact quiet_close _ s
  · rw [finishHandshake_registered yes]
    exact (quiet_list here' rfl rfl).trans (quiet_await fun _ _ _ shakes => shakes.elim)

private theorem quiet_onReadHeader {messageSize : UInt64} (manager : ManagerBase) (s : Nat) : Quiet manager (manager.onReadHeader s messageSize) := by
  unfold ManagerBase.onReadHeader
  split
  · exact quiet_close manager s
  · exact quiet_await fun _ _ _ shakes => shakes.elim

theorem quiet_completed {pending : Pending} {completion : Completion} {out : List (NodeID × Message)} {after : ManagerBase}
    (placed : Placed manager) (here : manager.connections[s]? = some session) (asked : session.pending = some pending)
    (does : (manager.update s fun session => { session with pending := none }).completed s session pending completion = some (out, after)) :
    Quiet manager after := by
  have idle : Quiet manager (manager.update s fun session => { session with pending := none }) :=
    Minor.quiet ⟨fun _ => ⟨rfl, rfl⟩, fun _ _ _ _ => rfl, fun _ _ _ shakes => shakes.elim⟩
  have here' : (manager.update s fun session => { session with pending := none }).connections[s]? =
      some { session with pending := none } := by
    rw [update_getElem?, if_pos rfl, here, Option.map_some]
  have fresh (shakes : Shaking (some pending)) : ∀ now, (manager.update s fun session => { session with pending := none }).connections[s]? =
      some now → now.doneHandshake = false := by
    intro now found
    obtain rfl := Option.some.inj (here'.symm.trans found)
    exact placed.shaking s session here (asked ▸ shakes)
  apply idle.trans
  obtain ⟨ec, _, rfl⟩ | ⟨next, shakes, rfl⟩ | ⟨flag, high, low, shakes, rfl⟩ | ⟨messageSize, _, _, rfl⟩ := completed_cases does
  · exact quiet_handleError _ s session ec
  · exact quiet_await fun _ now found shaking => fresh (shakes shaking) now found
  · exact quiet_finishHandshake here' id fun _ => fresh shakes _ here'
  · exact quiet_onReadHeader _ s

theorem proceed_written {outbound after : Outbound} {turn : Outbound.Turn} (does : outbound.proceed turn = some after) :
    after.written = outbound.written := by
  cases turn with
  | write message => cases does
  | run =>
    obtain ⟨task, _, ran⟩ := Option.bind_eq_some_iff.mp does
    cases task with
    | doWriteHeader | startHeader => exact (Option.some.inj ran) ▸ rfl
    | setHeader | onWriteHeader =>
      obtain ⟨message, _, rfl⟩ := Option.map_eq_some_iff.mp ran
      rfl
    | onWriteMessage =>
      obtain rfl := Option.some.inj ran
      unfold Outbound.onWriteMessage
      split <;> rfl
  | start index =>
    have performed : outbound.perform (.start index) = some after := does
    exact (SessionWrites.queue_kept (by nofun) (by nofun) performed).2
  | transfer index count =>
    have performed : outbound.perform (.transfer index count) = some after := does
    exact (SessionWrites.queue_kept (by nofun) (by nofun) performed).2
  | complete index =>
    have performed : outbound.perform (.complete index) = some after := does
    exact (SessionWrites.queue_kept (by nofun) (by nofun) performed).2

theorem write_written (outbound : Outbound) (message : Message) : (outbound.write message).written = outbound.written ++ [message] := by
  obtain ⟨outboundMessage⟩ := outbound
  cases outboundMessage <;> rfl

theorem written_make {last : Session} (fresh : last.outbound = {}) (t : Nat) :
    writtenTo { manager with connections := manager.connections ++ [last] } t = writtenTo manager t := by
  unfold writtenTo
  change ((manager.connections ++ [last])[t]?.map _).getD [] = _
  rw [List.getElem?_append]
  split
  · rfl
  case isFalse outside =>
    rw [List.getElem?_eq_none (Nat.le_of_not_lt outside)]
    cases here : [last][t - manager.connections.length]? with
    | none => rfl
    | some session =>
      obtain rfl := List.mem_singleton.mp (List.mem_of_getElem? here)
      rw [Option.map_some, fresh]
      rfl

theorem quiet_make {address : IpAddress} {port : UInt16} {connectionType : ConnectionType} :
    Quiet manager { manager with connections := manager.connections ++ [Session.run { address, port, connectionType }] } where
  started := rfl
  written t message _ := by rw [written_make rfl]
  placed placed := by
    refine ⟨fun nodeId t listed => ?_, fun t session found shakes => ?_⟩
    · obtain ⟨session, here, rest⟩ := placed.listed nodeId t listed
      exact ⟨session, List.getElem?_append_left (List.getElem?_eq_some_iff.mp here).1 ▸ here, rest⟩
    · cases found_or_last found with
      | inl old => exact placed.shaking t session old shakes
      | inr new => exact new ▸ rfl

theorem quiet_write {message : Message} (kind : ¬ IsBroadcast message) :
    Quiet manager (manager.update s fun session => { session with outbound := session.outbound.write message }) := by
  refine Minor.quiet ⟨fun _ => ⟨rfl, rfl⟩, fun session _ other isBroadcast => ?_, fun placed session here => placed.shaking s session here⟩
  have different : message ≠ other := by
    rintro rfl
    exact kind isBroadcast
  rw [write_written, List.count_append, List.count_singleton, if_neg (by simpa using different), Nat.add_zero]

theorem quiet_happen {step : ManagerBase.Step} {out : List (NodeID × Message)} {after : ManagerBase} (placed : Placed manager)
    (ordinary : Ordinary step) (does : manager.happen step = some (out, after)) : Quiet manager after := by
  cases step with
  | make address port connectionType =>
    cases does
    exact quiet_make
  | complete s completion =>
    obtain ⟨session, here, does⟩ := Option.bind_eq_some_iff.mp does
    obtain ⟨pending, asked, does⟩ := Option.bind_eq_some_iff.mp does
    exact quiet_completed placed here asked does
  | write nodeId message =>
    obtain ⟨s, listed, does⟩ := Option.bind_eq_some_iff.mp does
    cases does
    exact quiet_write ordinary
  | writing s turn =>
    obtain ⟨session, here, does⟩ := Option.bind_eq_some_iff.mp does
    obtain ⟨outbound, wrote, does⟩ := Option.bind_eq_some_iff.mp does
    cases does
    refine Minor.quiet ⟨fun _ => ⟨rfl, rfl⟩, fun found same message _ => ?_, fun placed session here => placed.shaking s session here⟩
    obtain rfl := Option.some.inj (here.symm.trans same)
    exact congrArg (List.count message) (proceed_written wrote)
  | failWrite s index ec =>
    obtain ⟨session, here, does⟩ := Option.bind_eq_some_iff.mp does
    obtain ⟨transfer, flying, does⟩ := Option.bind_eq_some_iff.mp does
    cases does
    apply Quiet.trans ?_ (quiet_handleError _ s session ec)
    exact Minor.quiet ⟨fun _ => ⟨rfl, rfl⟩, fun _ _ _ _ => rfl, fun placed session here => placed.shaking s session here⟩
  | disconnect nodeId =>
    cases does
    exact quiet_disconnect manager nodeId
  | doClose s closed =>
    obtain ⟨session, here, does⟩ := Option.bind_eq_some_iff.mp does
    obtain ⟨_, does⟩ := Option.ite_none_right_eq_some.mp does
    cases does
    exact Minor.quiet ⟨fun _ => ⟨rfl, rfl⟩, fun _ _ _ _ => rfl, fun placed session here => placed.shaking s session here⟩

end Moves

section Messages
variable {World : Type} {setup : Setup World} {manager after : ManagerNormal World} {nodeId : NodeID} {message : Message}

theorem answer_type {id : RequestID} {command : CommandType} {data : Bytes} {answer : Message} (known : command ≠ .unnamed)
    (built : compose .answering id command data = .ok answer) : ¬ IsBroadcast answer := by
  obtain ⟨_, same, parts⟩ := PeerMessages.composed (show RequestType.answering ≠ .unnamed by nofun) known id data
  obtain rfl := Except.ok.inj (same.symm.trans built)
  intro broadcast
  cases parts.type.symm.trans broadcast

/-- No broadcast is counted or written. -/
structure Silent (before after : ManagerNormal World) : Prop where
  base : Placed before.base → Quiet before.base after.base
  counted : after.broadcastedMessages = before.broadcastedMessages

theorem silent_disconnect (manager : ManagerNormal World) (nodeId : NodeID) : Silent manager (manager.disconnectSession nodeId) :=
  ⟨fun _ => quiet_disconnect manager.base nodeId, rfl⟩

theorem silent_answer {answer : Message} (manager : ManagerNormal World) (nodeId : NodeID) (kind : ¬ IsBroadcast answer) :
    Silent manager (manager.answerSession nodeId answer) := by
  refine ⟨fun _ => ?_, rfl⟩
  show Quiet manager.base (manager.base.answerSession nodeId answer)
  unfold ManagerBase.answerSession
  split
  · exact Quiet.refl _
  · split
    · exact Quiet.refl _
    · exact quiet_write kind

private theorem reply_type {command : CommandType} {data : Bytes} {reply : Message}
    (built : (message.id >>= fun id => compose .answering id command data) = .ok reply) (known : command ≠ .unnamed) :
    ¬ IsBroadcast reply := by
  obtain ⟨id, _, built⟩ := bind_ok.mp built
  exact answer_type known built

theorem silent_bareRequest {decode : Message → Except Exception Bool} {answer : Message → Except Exception Message}
    (answers : ∀ reply, answer message = .ok reply → ¬ IsBroadcast reply)
    (does : manager.handleBareRequest decode answer nodeId message = .ok after) : Silent manager after := by
  obtain ⟨valid, _, does⟩ := bind_ok.mp does
  cases valid with
  | false =>
    obtain rfl := Except.ok.inj does
    exact silent_disconnect manager nodeId
  | true =>
    obtain ⟨reply, replied, does⟩ := bind_ok.mp does
    obtain rfl := Except.ok.inj does
    exact silent_answer manager nodeId (answers reply replied)

theorem silent_handleRequest {currentEpoch : UInt64} (does : manager.handleRequest setup currentEpoch nodeId message = .ok after) :
    Silent manager after := by
  obtain ⟨command, _, does⟩ := bind_ok.mp does
  cases command with
  | ping | requestNodes | requestValidatorTxs | requestTxs =>
    refine silent_bareRequest ?_ does
    exact fun reply built => reply_type built nofun
  | info =>
    obtain ⟨_, _, does⟩ := bind_ok.mp does
    obtain ⟨reply, replied, does⟩ := bind_ok.mp does
    obtain rfl := Except.ok.inj does
    exact silent_answer manager nodeId (reply_type replied nofun)
  | broadcastValidatorTx | broadcastTx | broadcastBlock | unnamed =>
    obtain rfl := Except.ok.inj does
    exact silent_disconnect manager nodeId

theorem silent_knownAnswer (does : manager.handleKnownAnswer nodeId message = .ok after) : Silent manager after := by
  obtain ⟨id, _, does⟩ := bind_ok.mp does
  cases known : manager.requests id with
  | none =>
    rw [known] at does
    obtain rfl := Except.ok.inj does
    exact silent_disconnect manager nodeId
  | some request =>
    rw [known] at does
    obtain ⟨request, _, does⟩ := bind_ok.mp does
    obtain rfl := Except.ok.inj does
    exact ⟨fun _ => Quiet.refl _, rfl⟩

theorem silent_handleAnswer (does : manager.handleAnswer nodeId message = .ok after) : Silent manager after := by
  obtain ⟨command, _, does⟩ := bind_ok.mp does
  cases command with
  | ping | info | requestNodes | requestValidatorTxs | requestTxs => exact silent_knownAnswer does
  | broadcastValidatorTx | broadcastTx | broadcastBlock | unnamed =>
    obtain rfl := Except.ok.inj does
    exact silent_disconnect manager nodeId

theorem mapError_ok {α : Type} {result : Except Exception α} {value : α} : result.mapError Stop.exception = .ok value ↔ result = .ok value := by
  cases result with
  | error what => exact ⟨nofun, nofun⟩
  | ok other => exact ⟨fun same => Except.ok.inj same ▸ rfl, fun same => Except.ok.inj same ▸ rfl⟩

theorem silent_handleMessage {currentEpoch : UInt64} (other : ¬ (manager.base.started ∧ IsBroadcast message))
    (does : manager.handleMessage setup currentEpoch nodeId message = .ok after) : Silent manager after := by
  unfold ManagerNormal.handleMessage at does
  split at does
  case isTrue =>
    obtain rfl := Except.ok.inj does
    exact ⟨fun _ => Quiet.refl _, rfl⟩
  case isFalse going =>
    obtain ⟨type, typed, does⟩ := bind_ok.mp does
    have typed := mapError_ok.mp typed
    cases type with
    | requesting => exact silent_handleRequest (mapError_ok.mp does)
    | answering => exact silent_handleAnswer (mapError_ok.mp does)
    | broadcasting => exact absurd ⟨by simpa using going, typed⟩ other
    | unnamed =>
      obtain rfl := Except.ok.inj does
      exact silent_disconnect manager nodeId

theorem caught_spec {stop : Stop} {verdict : ManagerNormal.Verdict} (does : manager.caught stop = .ok (verdict, after)) :
    verdict = .disconnect ∧ after = manager := by
  cases stop with
  | deadlock => cases does
  | exception what =>
    obtain ⟨rfl, rfl⟩ := Prod.mk.inj (Except.ok.inj does)
    exact ⟨rfl, rfl⟩

theorem caught_of_read {what : Exception} {decided : ManagerNormal.Verdict × ManagerNormal World}
    (does : manager.caughtRead what = .ok decided) : manager.caught (.exception what) = .ok decided := by
  unfold ManagerNormal.caughtRead at does
  split at does
  · cases does
  · exact does

/-- What a handler of a broadcast leaves, and when it passes the broadcast on. -/
structure Decides (setup : Setup World) (message : Message) (manager after : ManagerNormal World) (verdict : ManagerNormal.Verdict) : Prop where
  base : after.base = manager.base
  counted : after.broadcastedMessages = manager.broadcastedMessages
  accepts : verdict = .rebroadcast ↔ Accepted setup manager message

variable {verdict : ManagerNormal.Verdict}

theorem Decides.of_caught {stop : Stop} (state : State World) (does : { manager with state }.caught stop = .ok (verdict, after))
    (refuses : ¬ Accepted setup manager message) : Decides setup message manager after verdict := by
  obtain ⟨rfl, rfl⟩ := caught_spec does
  exact ⟨rfl, rfl, nofun, fun accepted => absurd accepted refuses⟩

theorem decides_txValidator (command : message.command = .ok .broadcastValidatorTx)
    (does : manager.handleTxValidatorBroadcast setup message = .ok (verdict, after)) : Decides setup message manager after verdict := by
  have only (accepted : Accepted setup manager message) : ∃ tx rdpos,
      BroadcastDecoder.broadcastValidatorTx setup.reader message = .ok tx ∧
      manager.rdpos.addValidatorTx manager.state.latest tx = .ok (true, rdpos) := by
    cases accepted with
    | txValidator _ decoded added => exact ⟨_, _, decoded, added⟩
    | tx other | block other => cases command.symm.trans other
  unfold ManagerNormal.handleTxValidatorBroadcast at does
  cases decoded : BroadcastDecoder.broadcastValidatorTx setup.reader message with
  | error what =>
    rw [decoded] at does only
    exact .of_caught manager.state (caught_of_read does) (by simpa using only)
  | ok tx =>
    rw [decoded] at does only
    cases answered : manager.rdpos.addValidatorTx manager.state.latest tx with
    | error what =>
      simp only [answered] at does
      exact .of_caught manager.state (caught_of_read does) (by simpa [answered] using only)
    | ok result =>
      obtain ⟨added, rdpos⟩ := result
      simp only [answered] at does
      obtain ⟨rfl, rfl⟩ := Prod.mk.inj (Except.ok.inj does)
      refine ⟨rfl, rfl, ?_⟩
      cases added with
      | true => exact iff_of_true rfl (.txValidator command decoded answered)
      | false => exact iff_of_false nofun (by simpa [answered] using only)

theorem decides_tx (command : message.command = .ok .broadcastTx)
    (does : manager.handleTxBroadcast setup message = .ok (verdict, after)) : Decides setup message manager after verdict := by
  have only (accepted : Accepted setup manager message) : ∃ tx state, BroadcastDecoder.broadcastTx setup.reader message = .ok tx ∧
      (State.addTx tx).eval manager.state = (.ok .notInvalid, state) := by
    cases accepted with
    | tx _ decoded added => exact ⟨_, _, decoded, added⟩
    | txValidator other | block other => cases command.symm.trans other
  unfold ManagerNormal.handleTxBroadcast at does
  cases decoded : BroadcastDecoder.broadcastTx setup.reader message with
  | error what =>
    rw [decoded] at does only
    exact .of_caught manager.state (caught_of_read does) (by simpa using only)
  | ok tx =>
    rw [decoded] at does only
    rcases answered : (State.addTx tx).eval manager.state with ⟨result, state⟩
    cases result with
    | error stop =>
      simp only [answered] at does
      exact .of_caught _ does (by simpa [answered] using only)
    | ok txInvalid =>
      simp only [answered] at does
      obtain ⟨rfl, rfl⟩ := Prod.mk.inj (Except.ok.inj does)
      refine ⟨rfl, rfl, ?_⟩
      by_cases valid : txInvalid = .notInvalid
      · subst valid
        exact iff_of_true rfl (.tx command decoded answered)
      · rw [if_neg valid]
        exact iff_of_false nofun (by simpa [answered, valid] using only)

theorem decides_block (command : message.command = .ok .broadcastBlock)
    (does : manager.handleBlockBroadcast setup message = .ok (verdict, after)) : Decides setup message manager after verdict := by
  have only (accepted : Accepted setup manager message) : ∃ block checked processed,
      BroadcastDecoder.broadcastBlock setup.reader message = .ok block ∧ ManagerNormal.blockExists manager.state block.hash = false ∧
      (State.validateNextBlock setup.env block).eval manager.state = (.ok true, checked) ∧
      (State.processNextBlock setup.env block).eval checked = (.ok (), processed) := by
    cases accepted with
    | block _ decoded unknown valid done => exact ⟨_, _, _, decoded, unknown, valid, done⟩
    | txValidator other | tx other => cases command.symm.trans other
  unfold ManagerNormal.handleBlockBroadcast at does
  cases decoded : BroadcastDecoder.broadcastBlock setup.reader message with
  | error what =>
    rw [decoded] at does only
    exact .of_caught manager.state (caught_of_read does) (by simpa using only)
  | ok block =>
    rw [decoded] at does only
    cases known : ManagerNormal.blockExists manager.state block.hash with
    | true =>
      simp only [known, if_true] at does
      obtain ⟨rfl, rfl⟩ := Prod.mk.inj (Except.ok.inj does)
      exact ⟨rfl, rfl, iff_of_false nofun (by simpa [known] using only)⟩
    | false =>
      simp only [known, Bool.false_eq_true, if_false] at does
      rcases checks : (State.validateNextBlock setup.env block).eval manager.state with ⟨result, checked⟩
      simp only [checks] at does
      match result with
      | .error stop => exact .of_caught _ does (by simpa [checks] using only)
      | .ok false =>
        obtain ⟨rfl, rfl⟩ := Prod.mk.inj (Except.ok.inj does)
        exact ⟨rfl, rfl, iff_of_false nofun (by simpa [checks] using only)⟩
      | .ok true =>
        rcases runs : (State.processNextBlock setup.env block).eval checked with ⟨result, processed⟩
        simp only [runs] at does
        cases result with
        | error stop => exact .of_caught _ does (by simpa [known, checks, runs] using only)
        | ok =>
          obtain ⟨rfl, rfl⟩ := Prod.mk.inj (Except.ok.inj does)
          exact ⟨rfl, rfl, iff_of_true rfl (.block command decoded known checks runs)⟩

theorem decides (does : manager.handleNewBroadcast setup message = .ok (verdict, after)) : Decides setup message manager after verdict := by
  unfold ManagerNormal.handleNewBroadcast at does
  cases command : message.command with
  | error what =>
    rw [command] at does
    cases does
  | ok type =>
    rw [command] at does
    cases type with
    | broadcastValidatorTx => exact decides_txValidator command does
    | broadcastTx => exact decides_tx command does
    | broadcastBlock => exact decides_block command does
    | ping | info | requestNodes | requestValidatorTxs | requestTxs | unnamed =>
      obtain ⟨rfl, rfl⟩ := Prod.mk.inj (Except.ok.inj does)
      refine ⟨rfl, rfl, iff_of_false nofun fun accepted => ?_⟩
      cases accepted with
      | txValidator other | tx other | block other => cases command.symm.trans other

end Messages

section Peers
variable {World : Type} {setup : Setup World} {peer after : Peer World} {message : Message}

/-- Under what a message is counted. -/
def key (message : Message) : Option UInt64 := message.id.toOption.map RequestID.toUint64

/-- What a node began itself or the state accepted. -/
def Licensed (setup : Setup World) (peer : Peer World) (message : Message) : Prop :=
  message ∈ peer.originated ∨ ∃ manager, (manager, message) ∈ peer.handled ∧ Accepted setup manager message

def Begun (peer : Peer World) (message : Message) : Prop := .writeAll message ∈ peer.jobs ∨ message ∈ peer.forwarded

def Fair (setup : Setup World) (peer : Peer World) : Job → Prop
  | .handleMessage _ _ => True
  | .handleNewBroadcast _ message => IsBroadcast message
  | .broadcastMessage message | .writeAll message => IsBroadcast message ∧ Licensed setup peer message

structure Sound (setup : Setup World) (peer : Peer World) : Prop where
  started : peer.manager.base.started = true
  placed : Placed peer.manager.base
  fair : ∀ job ∈ peer.jobs, Fair setup peer job
  unmarked : ∀ message id, IsBroadcast message → key message = some id → peer.manager.broadcastedMessages id = 0 →
    .writeAll message ∉ peer.jobs ∧ ∀ s, (writtenTo peer.manager.base s).count message = 0
  once : ∀ message, IsBroadcast message → ∀ s,
    (writtenTo peer.manager.base s).count message + peer.jobs.count (.writeAll message) ≤ 1
  licensed : ∀ message, IsBroadcast message → ∀ s, message ∈ writtenTo peer.manager.base s → Licensed setup peer message
  marked : ∀ id, 0 < peer.manager.broadcastedMessages id →
    ∃ message, key message = some id ∧ Licensed setup peer message ∧ Begun peer message
  passed : ∀ entry ∈ peer.handled, Accepted setup entry.1 entry.2 → .broadcastMessage entry.2 ∈ peer.jobs ∨
    ∃ message, key message = key entry.2 ∧ Licensed setup peer message ∧ Begun peer message

/-- What goes on without announcing and without writing a broadcast. -/
structure Undisturbed (setup : Setup World) (peer after : Peer World) : Prop where
  base : Quiet peer.manager.base after.manager.base
  marks : ∀ id, 0 < after.manager.broadcastedMessages id ↔ 0 < peer.manager.broadcastedMessages id
  forwarded : after.forwarded = peer.forwarded
  originated : ∀ message ∈ peer.originated, message ∈ after.originated
  handled : ∀ entry ∈ peer.handled, entry ∈ after.handled
  kept : ∀ message, .broadcastMessage message ∈ peer.jobs → .broadcastMessage message ∈ after.jobs
  writes : ∀ message, after.jobs.count (.writeAll message) = peer.jobs.count (.writeAll message)
  fair : ∀ job ∈ after.jobs, job ∈ peer.jobs ∨ Fair setup after job
  new : ∀ entry ∈ after.handled, entry ∈ peer.handled ∨ (Accepted setup entry.1 entry.2 → .broadcastMessage entry.2 ∈ after.jobs)

theorem Licensed.mono (licensed : Licensed setup peer message) (originated : ∀ message ∈ peer.originated, message ∈ after.originated)
    (handled : ∀ entry ∈ peer.handled, entry ∈ after.handled) : Licensed setup after message := by
  cases licensed with
  | inl own => exact .inl (originated _ own)
  | inr accepted =>
    obtain ⟨manager, member, accepts⟩ := accepted
    exact .inr ⟨manager, handled _ member, accepts⟩

theorem Fair.mono {job : Job} (fair : Fair setup peer job) (originated : ∀ message ∈ peer.originated, message ∈ after.originated)
    (handled : ∀ entry ∈ peer.handled, entry ∈ after.handled) : Fair setup after job := by
  cases job with
  | handleMessage | handleNewBroadcast => exact fair
  | broadcastMessage message | writeAll message => exact ⟨fair.1, fair.2.mono originated handled⟩

theorem Undisturbed.write_mem (undisturbed : Undisturbed setup peer after) : .writeAll message ∈ after.jobs ↔ .writeAll message ∈ peer.jobs := by
  rw [← List.count_pos_iff, undisturbed.writes, List.count_pos_iff]

theorem Undisturbed.begun (undisturbed : Undisturbed setup peer after) (begun : Begun peer message) : Begun after message := by
  cases begun with
  | inl pending => exact .inl (undisturbed.write_mem.mpr pending)
  | inr written => exact .inr (undisturbed.forwarded ▸ written)

theorem Sound.undisturbed (sound : Sound setup peer) (undisturbed : Undisturbed setup peer after) : Sound setup after where
  started := undisturbed.base.started.trans sound.started
  placed := undisturbed.base.placed sound.placed
  fair job member := by
    cases undisturbed.fair job member with
    | inl old => exact (sound.fair job old).mono undisturbed.originated undisturbed.handled
    | inr new => exact new
  unmarked message id kind named unmarked := by
    have unmarked : peer.manager.broadcastedMessages id = 0 := by
      by_contra marked
      exact absurd unmarked (Nat.pos_iff_ne_zero.mp ((undisturbed.marks id).mpr (Nat.pos_of_ne_zero marked)))
    obtain ⟨idle, none⟩ := sound.unmarked message id kind named unmarked
    refine ⟨fun pending => idle (undisturbed.write_mem.mp pending), fun s => ?_⟩
    rw [undisturbed.base.written s message kind, none s]
  once message kind s := by
    rw [undisturbed.base.written s message kind, undisturbed.writes]
    exact sound.once message kind s
  licensed message kind s member := by
    rw [← List.count_pos_iff, undisturbed.base.written s message kind, List.count_pos_iff] at member
    exact (sound.licensed message kind s member).mono undisturbed.originated undisturbed.handled
  marked id marked := by
    obtain ⟨message, named, licensed, begun⟩ := sound.marked id ((undisturbed.marks id).mp marked)
    exact ⟨message, named, licensed.mono undisturbed.originated undisturbed.handled, undisturbed.begun begun⟩
  passed entry member accepted := by
    cases undisturbed.new entry member with
    | inr pending => exact .inl (pending accepted)
    | inl old =>
      cases sound.passed entry old accepted with
      | inl pending => exact .inl (undisturbed.kept _ pending)
      | inr started =>
        obtain ⟨message, named, licensed, begun⟩ := started
        exact .inr ⟨message, named, licensed.mono undisturbed.originated undisturbed.handled, undisturbed.begun begun⟩

section Jobs
variable {index : Nat} {job : Job}

theorem taken {jobs : List Job} (found : jobs[index]? = some job) : jobs.Perm (job :: jobs.eraseIdx index) := by
  obtain ⟨inside, rfl⟩ := List.getElem?_eq_some_iff.mp found
  exact (List.getElem_cons_eraseIdx_perm inside).symm

theorem announce_ne_write (first second : Message) : Job.broadcastMessage first ≠ .writeAll second := nofun

theorem Sound.take (sound : Sound setup peer) (found : peer.jobs[index]? = some job) (announces : ∀ message, job ≠ .broadcastMessage message)
    (writes : ∀ message, job ≠ .writeAll message) : Sound setup { peer with jobs := peer.jobs.eraseIdx index } := by
  refine sound.undisturbed ⟨Quiet.refl _, fun _ => Iff.rfl, rfl, fun _ => id, fun _ => id, fun message pending => ?_, fun message => ?_, fun job member => ?_,
    fun _ member => .inl member⟩
  · cases List.mem_cons.mp ((taken found).mem_iff.mp pending) with
    | inl same => exact absurd same.symm (announces message)
    | inr rest => exact rest
  · rw [(taken found).count_eq, List.count_cons_of_ne (writes message)]
  · exact .inl (List.mem_of_mem_eraseIdx member)

theorem Sound.still {manager : ManagerNormal World} (sound : Sound setup peer) (base : Quiet peer.manager.base manager.base)
    (marks : ∀ key, 0 < manager.broadcastedMessages key ↔ 0 < peer.manager.broadcastedMessages key) :
    Sound setup { peer with manager } :=
  sound.undisturbed ⟨base, marks, rfl, fun _ => id, fun _ => id, fun _ => id, fun _ => rfl, fun _ member => .inl member,
    fun _ member => .inl member⟩

theorem Sound.more {jobs : List Job} (sound : Sound setup peer) (fair : ∀ job ∈ jobs, Fair setup peer job)
    (writes : ∀ message, .writeAll message ∉ jobs) : Sound setup { peer with jobs := peer.jobs ++ jobs } := by
  refine sound.undisturbed ⟨Quiet.refl _, fun _ => Iff.rfl, rfl, fun _ => id, fun _ => id, fun _ => List.mem_append_left _, fun message => ?_,
    fun job member => ?_, fun _ member => .inl member⟩
  · rw [List.count_append, List.count_eq_zero_of_not_mem (writes message), Nat.add_zero]
  · cases List.mem_append.mp member with
    | inl old => exact .inl old
    | inr new => exact .inr (fair job new)

theorem Sound.push (sound : Sound setup peer) (fair : Fair setup peer job) (writes : ∀ message, job ≠ .writeAll message) :
    Sound setup (peer.push job) := by
  apply sound.more
  · intro other member
    exact List.mem_singleton.mp member ▸ fair
  · intro message member
    exact writes message (List.mem_singleton.mp member).symm

theorem marks_countAgain (manager : ManagerNormal World) (again key : UInt64) :
    0 < (manager.countAgain again).broadcastedMessages key ↔ 0 < manager.broadcastedMessages key := by
  unfold ManagerNormal.countAgain
  split
  case isTrue one =>
    show 0 < Function.update manager.broadcastedMessages again 2 key ↔ _
    by_cases same : key = again
    · rw [same, Function.update_self, one]
      exact iff_of_true (by decide) (by decide)
    · rw [Function.update_of_ne same]
  case isFalse => exact Iff.rfl

private theorem base_countAgain (manager : ManagerNormal World) (again : UInt64) : (manager.countAgain again).base = manager.base := by
  unfold ManagerNormal.countAgain
  split <;> rfl

theorem Sound.handleMessage {currentEpoch : UInt64} {nodeId : NodeID} (sound : Sound setup peer)
    (does : peer.handleMessage setup currentEpoch nodeId message = some after) : Sound setup after := by
  unfold Peer.handleMessage at does
  split at does
  case isTrue heard =>
    obtain ⟨requestID, _, rfl⟩ := Option.map_eq_some_iff.mp does
    split
    case isTrue => exact sound.still (base_countAgain _ _ ▸ Quiet.refl _) (marks_countAgain _ _)
    case isFalse => exact sound.push heard.2 nofun
  case isFalse other =>
    obtain ⟨manager, done, rfl⟩ := Option.map_eq_some_iff.mp does
    cases result : peer.manager.handleMessage setup currentEpoch nodeId message with
    | error stop =>
      rw [result] at done
      cases done
    | ok manager' =>
      rw [result] at done
      obtain rfl := Option.some.inj done
      have silent := silent_handleMessage other result
      exact sound.still (silent.base sound.placed) fun key => by rw [silent.counted]

theorem Sound.handleNewBroadcast {nodeId : NodeID} (sound : Sound setup peer) (kind : IsBroadcast message)
    (does : peer.handleNewBroadcast setup nodeId message = some after) : Sound setup after := by
  obtain ⟨⟨verdict, manager⟩, done, rfl⟩ := Option.map_eq_some_iff.mp does
  cases result : peer.manager.handleNewBroadcast setup message with
  | error stop =>
    rw [result] at done
    cases done
  | ok decided =>
    rw [result] at done
    obtain rfl := Option.some.inj done
    obtain ⟨base, counted, accepts⟩ := decides result
    have handed (entry) (member : entry ∈ peer.handled ++ [(peer.manager, message)]) :
        entry ∈ peer.handled ∨ entry = (peer.manager, message) := by
      cases List.mem_append.mp member with
      | inl old => exact .inl old
      | inr new => exact .inr (List.mem_singleton.mp new)
    have quiet : Quiet peer.manager.base manager.base := base ▸ Quiet.refl _
    have marks (key) : 0 < manager.broadcastedMessages key ↔ 0 < peer.manager.broadcastedMessages key := by rw [counted]
    cases verdict with
    | rebroadcast =>
      refine sound.undisturbed ⟨quiet, marks, rfl, fun _ => id, fun _ => List.mem_append_left _, fun _ => List.mem_append_left _,
        fun other => ?_, fun job member => ?_, fun entry member => ?_⟩
      · show (peer.jobs ++ [Job.broadcastMessage message]).count _ = _
        rw [List.count_append, List.count_cons_of_ne (announce_ne_write message other), List.count_nil, Nat.add_zero]
      · cases List.mem_append.mp member with
        | inl old => exact .inl old
        | inr new =>
          obtain rfl := List.mem_singleton.mp new
          exact .inr ⟨kind, .inr ⟨peer.manager, List.mem_append_right _ List.mem_cons_self, accepts.mp rfl⟩⟩
      · cases handed entry member with
        | inl old => exact .inl old
        | inr new =>
          obtain rfl := new
          exact .inr fun _ => List.mem_append_right _ List.mem_cons_self
    | keep =>
      refine sound.undisturbed ⟨quiet, marks, rfl, fun _ => id, fun _ => List.mem_append_left _, fun _ => id, fun _ => rfl,
        fun _ member => .inl member, fun entry member => ?_⟩
      cases handed entry member with
      | inl old => exact .inl old
      | inr new =>
        obtain rfl := new
        exact .inr fun accepted => by cases accepts.mpr accepted
    | disconnect =>
      refine sound.undisturbed ⟨quiet.trans (quiet_disconnect _ nodeId), marks, rfl, fun _ => id, fun _ => List.mem_append_left _, fun _ => id,
        fun _ => rfl, fun _ member => .inl member, fun entry member => ?_⟩
      cases handed entry member with
      | inl old => exact .inl old
      | inr new =>
        obtain rfl := new
        exact .inr fun accepted => by cases accepts.mpr accepted

section Announcing
variable (sound : Sound setup peer) (found : peer.jobs[index]? = some (.broadcastMessage message)) {id : UInt64}
include found

theorem pending_iff : job ∈ peer.jobs ↔ job = .broadcastMessage message ∨ job ∈ peer.jobs.eraseIdx index :=
  (taken found).mem_iff.trans List.mem_cons

theorem write_count (other : Message) : (peer.jobs.eraseIdx index).count (.writeAll other) = peer.jobs.count (.writeAll other) := by
  rw [(taken found).count_eq, List.count_cons_of_ne (announce_ne_write message other)]

theorem begun_rest {other : Message} (begun : Begun peer other) : .writeAll other ∈ peer.jobs.eraseIdx index ∨ other ∈ peer.forwarded := by
  cases begun with
  | inr written => exact .inr written
  | inl writing =>
    cases (pending_iff found).mp writing with
    | inl same => exact absurd same.symm (announce_ne_write _ _)
    | inr rest => exact .inl rest

include sound

/-- When a broadcast was announced before, one with its id is or was being written. -/
theorem Sound.skip (named : key message = some id) (marked : 0 < peer.manager.broadcastedMessages id) :
    Sound setup { peer with jobs := peer.jobs.eraseIdx index } where
  started := sound.started
  placed := sound.placed
  fair job member := sound.fair job ((pending_iff found).mpr (.inr member))
  unmarked other id kind named unmarked := by
    obtain ⟨idle, none⟩ := sound.unmarked other id kind named unmarked
    exact ⟨fun member => idle ((pending_iff found).mpr (.inr member)), none⟩
  once other kind s := by
    rw [write_count found]
    exact sound.once other kind s
  licensed := sound.licensed
  marked id marked := by
    obtain ⟨other, named, licensed, begins⟩ := sound.marked id marked
    exact ⟨other, named, licensed, begun_rest found begins⟩
  passed entry member accepted := by
    cases sound.passed entry member accepted with
    | inr started =>
      obtain ⟨other, named, licensed, begins⟩ := started
      exact .inr ⟨other, named, licensed, begun_rest found begins⟩
    | inl waiting =>
      cases (pending_iff found).mp waiting with
      | inr rest => exact .inl rest
      | inl same =>
        obtain ⟨other, named', licensed, begins⟩ := sound.marked id marked
        obtain rfl := Job.broadcastMessage.inj same
        exact .inr ⟨other, named'.trans named.symm, licensed, begun_rest found begins⟩

theorem Sound.announce (named : key message = some id) (unmarked : peer.manager.broadcastedMessages id = 0) : Sound setup { peer with
    manager := { peer.manager with broadcastedMessages := Function.update peer.manager.broadcastedMessages id 1 }
    jobs := peer.jobs.eraseIdx index ++ [.writeAll message] } := by
  obtain ⟨kind, licensed⟩ := sound.fair _ ((pending_iff found).mpr (.inl rfl))
  obtain ⟨idle, none⟩ := sound.unmarked message id kind named unmarked
  have marks (key) : Function.update peer.manager.broadcastedMessages id 1 key =
      if key = id then 1 else peer.manager.broadcastedMessages key := Function.update_apply _ _ _ _
  have begun {other} (before : Begun peer other) : .writeAll other ∈ peer.jobs.eraseIdx index ++ [.writeAll message] ∨ other ∈ peer.forwarded := by
    cases begun_rest found before with
    | inl rest => exact .inl (List.mem_append_left _ rest)
    | inr written => exact .inr written
  refine ⟨sound.started, sound.placed, ?fair, ?unmarked, ?once, sound.licensed, ?marked, ?passed⟩
  case fair =>
    intro job member
    cases List.mem_append.mp member with
    | inl rest => exact sound.fair job ((pending_iff found).mpr (.inr rest))
    | inr new =>
      obtain rfl := List.mem_singleton.mp new
      exact ⟨kind, licensed⟩
  case unmarked =>
    intro other id' kind' named' fresh
    change Function.update _ _ _ id' = 0 at fresh
    rw [marks] at fresh
    split at fresh
    case isTrue => cases fresh
    case isFalse different =>
      obtain ⟨idle, none⟩ := sound.unmarked other id' kind' named' fresh
      refine ⟨fun member => ?_, none⟩
      cases List.mem_append.mp member with
      | inl rest => exact idle ((pending_iff found).mpr (.inr rest))
      | inr new =>
        obtain rfl := Job.writeAll.inj (List.mem_singleton.mp new)
        exact different (Option.some.inj (named'.symm.trans named))
  case once =>
    intro other kind' s
    show _ + (peer.jobs.eraseIdx index ++ [Job.writeAll message]).count _ ≤ 1
    rw [List.count_append, write_count found]
    by_cases same : message = other
    · subst same
      rw [none s, List.count_eq_zero_of_not_mem idle, List.count_singleton_self]
    · rw [List.count_cons_of_ne fun equal => same (Job.writeAll.inj equal)]
      exact sound.once other kind' s
  case marked =>
    intro id' marked
    change 0 < Function.update peer.manager.broadcastedMessages id 1 id' at marked
    rw [marks] at marked
    split at marked
    case isTrue same => exact ⟨message, same ▸ named, licensed, .inl (List.mem_append_right _ List.mem_cons_self)⟩
    case isFalse =>
      obtain ⟨other, named, licensed, begins⟩ := sound.marked id' marked
      exact ⟨other, named, licensed, begun begins⟩
  case passed =>
    intro entry member accepted
    cases sound.passed entry member accepted with
    | inr started =>
      obtain ⟨other, named, licensed, begins⟩ := started
      exact .inr ⟨other, named, licensed, begun begins⟩
    | inl waiting =>
      cases (pending_iff found).mp waiting with
      | inr rest => exact .inl (List.mem_append_left _ rest)
      | inl same =>
        obtain rfl := Job.broadcastMessage.inj same
        exact .inr ⟨_, rfl, licensed, .inl (List.mem_append_right _ List.mem_cons_self)⟩

theorem Sound.broadcastMessage (does : { peer with jobs := peer.jobs.eraseIdx index }.broadcastMessage message = some after) :
    Sound setup after := by
  obtain ⟨requestID, identified, rfl⟩ := Option.map_eq_some_iff.mp does
  have named : key message = some requestID.toUint64 := by rw [key, identified, Option.map_some]
  unfold ManagerNormal.announce
  rw [if_neg (by rw [sound.started]; decide)]
  by_cases marked : 0 < peer.manager.broadcastedMessages requestID.toUint64
  · rw [if_pos marked]
    exact sound.skip found named marked
  · rw [if_neg marked]
    exact sound.announce found named (Nat.eq_zero_of_not_pos marked)

end Announcing

theorem writeAll_connections (base : ManagerBase) (s : Nat) : (base.writeAll message).connections[s]? =
    (base.connections[s]?).map fun session => if base.sessions session.nodeId = some s ∧ session.type = .normalNode then
      { session with outbound := session.outbound.write message }
    else session := by
  unfold ManagerBase.writeAll
  rw [List.getElem?_mapIdx]

theorem writtenTo_writeAll (base : ManagerBase) (message : Message) (s : Nat) : writtenTo (base.writeAll message) s = writtenTo base s ∨
    writtenTo (base.writeAll message) s = writtenTo base s ++ [message] := by
  unfold writtenTo
  rw [writeAll_connections]
  cases base.connections[s]? with
  | none => exact .inl rfl
  | some session =>
    simp only [Option.map_some, Option.getD_some]
    split
    · exact .inr (write_written session.outbound message)
    · exact .inl rfl

theorem placed_writeAll {base : ManagerBase} (placed : Placed base) : Placed (base.writeAll message) where
  listed nodeId s listed := by
    obtain ⟨session, here, id, done⟩ := placed.listed nodeId s listed
    rw [writeAll_connections, here]
    refine ⟨_, rfl, ?_, ?_⟩
    all_goals
      dsimp only
      split
      all_goals assumption
  shaking s session found shakes := by
    rw [writeAll_connections] at found
    obtain ⟨before, here, rfl⟩ := Option.map_eq_some_iff.mp found
    split at shakes
    case isTrue both =>
      rw [if_pos both]
      exact placed.shaking s before here shakes
    case isFalse neither =>
      rw [if_neg neither]
      exact placed.shaking s before here shakes

theorem Sound.writeAll (sound : Sound setup peer) (found : peer.jobs[index]? = some (.writeAll message)) :
    Sound setup ({ peer with jobs := peer.jobs.eraseIdx index }.writeAll message) := by
  have pending (job) : job ∈ peer.jobs ↔ job = .writeAll message ∨ job ∈ peer.jobs.eraseIdx index :=
    (taken found).mem_iff.trans List.mem_cons
  obtain ⟨kind, licensed⟩ := sound.fair _ ((pending _).mpr (.inl rfl))
  have counted (other) : peer.jobs.count (.writeAll other) =
      (if message = other then 1 else 0) + (peer.jobs.eraseIdx index).count (.writeAll other) := by
    rw [(taken found).count_eq]
    by_cases same : message = other
    · rw [if_pos same, same, List.count_cons_self, Nat.add_comm]
    · rw [if_neg same, List.count_cons_of_ne fun equal => same (Job.writeAll.inj equal), Nat.zero_add]
  have written (s) (other) : (writtenTo (peer.manager.base.writeAll message) s).count other ≤
      (writtenTo peer.manager.base s).count other + if message = other then 1 else 0 := by
    obtain same | more := writtenTo_writeAll peer.manager.base message s
    · rw [same]
      exact Nat.le_add_right _ _
    · rw [more, List.count_append, List.count_singleton]
      by_cases equal : message = other <;> simp [equal]
  have begun {other} (before : Begun peer other) : .writeAll other ∈ peer.jobs.eraseIdx index ∨ other ∈ peer.forwarded ++ [message] := by
    cases before with
    | inr already => exact .inr (List.mem_append_left _ already)
    | inl waiting =>
      cases (pending _).mp waiting with
      | inr rest => exact .inl rest
      | inl same =>
        obtain rfl := Job.writeAll.inj same
        exact .inr (List.mem_append_right _ List.mem_cons_self)
  refine ⟨sound.started, placed_writeAll sound.placed, fun job member => sound.fair job ((pending job).mpr (.inr member)),
    ?unmarked, ?once, ?licensed, ?marked, ?passed⟩
  case unmarked =>
    intro other id kind' named unmarked
    obtain ⟨idle, none⟩ := sound.unmarked other id kind' named unmarked
    have different : message ≠ other := by
      rintro rfl
      exact idle ((pending _).mpr (.inl rfl))
    refine ⟨fun member => idle ((pending _).mpr (.inr member)), fun s => ?_⟩
    have bound := written s other
    rw [none s, if_neg different] at bound
    exact Nat.le_zero.mp bound
  case once =>
    intro other kind' s
    have bound := written s other
    have before := sound.once other kind' s
    rw [counted] at before
    show (writtenTo (peer.manager.base.writeAll message) s).count other + (peer.jobs.eraseIdx index).count (.writeAll other) ≤ 1
    omega
  case licensed =>
    intro other kind' s member
    change other ∈ writtenTo (peer.manager.base.writeAll message) s at member
    obtain same | more := writtenTo_writeAll peer.manager.base message s
    · exact sound.licensed other kind' s (same ▸ member)
    · rw [more] at member
      cases List.mem_append.mp member with
      | inl old => exact sound.licensed other kind' s old
      | inr new => exact List.mem_singleton.mp new ▸ licensed
  case marked =>
    intro id marked
    obtain ⟨other, named, licensed, begins⟩ := sound.marked id marked
    exact ⟨other, named, licensed, begun begins⟩
  case passed =>
    intro entry member accepted
    cases sound.passed entry member accepted with
    | inr started =>
      obtain ⟨other, named, licensed, begins⟩ := started
      exact .inr ⟨other, named, licensed, begun begins⟩
    | inl waiting =>
      cases (pending _).mp waiting with
      | inr rest => exact .inl rest
      | inl same => cases same

theorem Sound.runJob {currentEpoch : UInt64} (sound : Sound setup peer) (found : peer.jobs[index]? = some job)
    (does : { peer with jobs := peer.jobs.eraseIdx index }.runJob setup currentEpoch job = some after) : Sound setup after := by
  cases job with
  | handleMessage nodeId message => exact (sound.take found nofun nofun).handleMessage does
  | handleNewBroadcast nodeId message =>
    have kind : IsBroadcast message := sound.fair _ ((taken found).mem_iff.mpr List.mem_cons_self)
    exact (sound.take found nofun nofun).handleNewBroadcast kind does
  | broadcastMessage message => exact sound.broadcastMessage found does
  | writeAll message =>
    obtain rfl := Option.some.inj does
    exact sound.writeAll found

end Jobs

theorem Sound.perform {step : Peer.Step World} (sound : Sound setup peer) (does : peer.perform setup step = some after) :
    Sound setup after := by
  cases step with
  | session step =>
    obtain ⟨ordinary, does⟩ := Option.ite_none_right_eq_some.mp does
    obtain ⟨⟨messages, base⟩, happens, rfl⟩ := Option.map_eq_some_iff.mp does
    have quiet := quiet_happen sound.placed ordinary happens
    have next : Sound setup { peer with manager := { peer.manager with base } } := sound.still quiet fun _ => Iff.rfl
    apply next.more
    · intro job member
      obtain ⟨_, _, rfl⟩ := List.mem_map.mp member
      trivial
    · intro message member
      obtain ⟨_, _, same⟩ := List.mem_map.mp member
      cases same
  | originate message =>
    obtain ⟨kind, does⟩ := Option.ite_none_right_eq_some.mp does
    obtain rfl := Option.some.inj does
    have next : Sound setup { peer with originated := peer.originated ++ [message] } :=
      sound.undisturbed ⟨Quiet.refl _, fun _ => Iff.rfl, rfl, fun _ => List.mem_append_left _, fun _ => id, fun _ => id, fun _ => rfl,
        fun _ member => .inl member, fun _ member => .inl member⟩
    exact next.push ⟨kind, .inl (List.mem_append_right _ List.mem_cons_self)⟩ nofun
  | run index currentEpoch =>
    obtain ⟨job, found, does⟩ := Option.bind_eq_some_iff.mp does
    exact sound.runJob found does
  | elsewhere state rdpos requests =>
    obtain rfl := Option.some.inj does
    exact sound.still (Quiet.refl _) fun _ => Iff.rfl

theorem writtenTo_started (state : State World) (rdpos : RdPoS) (s : Nat) :
    writtenTo (Peer.started state rdpos).manager.base s = [] := by
  unfold writtenTo
  rw [show (Peer.started state rdpos).manager.base.connections = [] from rfl, List.getElem?_nil]
  rfl

theorem sound_started (state : State World) (rdpos : RdPoS) : Sound setup (.started state rdpos) where
  started := rfl
  placed := ⟨nofun, fun s session found => by
    rw [show (Peer.started state rdpos).manager.base.connections = [] from rfl, List.getElem?_nil] at found
    cases found⟩
  fair _ member := absurd member List.not_mem_nil
  unmarked _ _ _ _ _ := ⟨List.not_mem_nil, fun s => by rw [writtenTo_started, List.count_nil]⟩
  once _ _ s := by
    rw [writtenTo_started, List.count_nil]
    exact Nat.zero_le 1
  licensed _ _ s member := by
    rw [writtenTo_started] at member
    cases member
  marked _ marked := absurd marked (Nat.lt_irrefl 0)
  passed _ member := absurd member List.not_mem_nil

/-- No block that is announced once more comes to be handled. -/
def Unannounced (setup : Setup World) (peer : Peer World) : Peer.Step World → Prop
  | .run index _ => ∀ nodeId message, peer.jobs[index]? = some (.handleNewBroadcast nodeId message) →
      announced setup peer.manager message = false
  | _ => True

theorem quiet_handled {step : Peer.Step World} (does : peer.perform setup step = some after) (fine : Unannounced setup peer step)
    (none : ∀ entry ∈ peer.handled, announced setup entry.1 entry.2 = false) : ∀ entry ∈ after.handled, announced setup entry.1 entry.2 = false := by
  cases step with
  | session step =>
    obtain ⟨_, does⟩ := Option.ite_none_right_eq_some.mp does
    obtain ⟨_, _, rfl⟩ := Option.map_eq_some_iff.mp does
    exact none
  | originate message =>
    obtain ⟨_, does⟩ := Option.ite_none_right_eq_some.mp does
    obtain rfl := Option.some.inj does
    exact none
  | elsewhere state rdpos requests =>
    obtain rfl := Option.some.inj does
    exact none
  | run index currentEpoch =>
    obtain ⟨job, found, does⟩ := Option.bind_eq_some_iff.mp does
    cases job with
    | handleMessage nodeId message =>
      change Peer.handleMessage setup _ currentEpoch nodeId message = some after at does
      unfold Peer.handleMessage at does
      split at does
      · obtain ⟨_, _, rfl⟩ := Option.map_eq_some_iff.mp does
        split <;> exact none
      · obtain ⟨_, _, rfl⟩ := Option.map_eq_some_iff.mp does
        exact none
    | handleNewBroadcast nodeId message =>
      obtain ⟨⟨verdict, manager⟩, _, rfl⟩ := Option.map_eq_some_iff.mp does
      have all : ∀ entry ∈ peer.handled ++ [(peer.manager, message)], announced setup entry.1 entry.2 = false := by
        intro entry member
        cases List.mem_append.mp member with
        | inl old => exact none entry old
        | inr new =>
          obtain rfl := List.mem_singleton.mp new
          exact fine nodeId message found
      cases verdict <;> exact all
    | broadcastMessage message =>
      obtain ⟨_, _, rfl⟩ := Option.map_eq_some_iff.mp does
      split <;> exact none
    | writeAll message =>
      obtain rfl := Option.some.inj does
      exact none

/-- The broadcasts of a node have different ids. -/
def Distinguished (setup : Setup World) (peer : Peer World) : Prop :=
  ∀ first second, Licensed setup peer first → Licensed setup peer second → key first = key second → first = second

/-- A node has written each broadcast to every session once at most, only what it began itself or the state accepted, and
whatever the state accepted or was announced is written or about to be written, which reaches every session that is listed
as that of a normal node. -/
structure Gossips (setup : Setup World) (peer : Peer World) : Prop where
  once : ∀ message, IsBroadcast message → ∀ s, (writtenTo peer.manager.base s).count message ≤ 1
  only : ∀ message, IsBroadcast message → ∀ s, message ∈ writtenTo peer.manager.base s → Licensed setup peer message
  every : Distinguished setup peer → ∀ manager message, (manager, message) ∈ peer.handled →
    Accepted setup manager message ∨ announced setup manager message = true →
    .broadcastMessage message ∈ peer.jobs ∨ .writeAll message ∈ peer.jobs ∨ message ∈ peer.forwarded
  reaches : ∀ message nodeId s session, peer.manager.base.sessions nodeId = some s →
    peer.manager.base.connections[s]? = some session → session.type = .normalNode →
    message ∈ writtenTo (peer.manager.base.writeAll message) s

theorem Sound.gossips (sound : Sound setup peer) (none : ∀ entry ∈ peer.handled, announced setup entry.1 entry.2 = false) :
    Gossips setup peer where
  once message kind s := le_trans (Nat.le_add_right _ _) (sound.once message kind s)
  only := sound.licensed
  every distinguished manager message member passes := by
    cases passes with
    | inr again =>
      rw [none _ member] at again
      cases again
    | inl accepted =>
      cases sound.passed _ member accepted with
      | inl waiting => exact .inl waiting
      | inr begun =>
        obtain ⟨other, named, licensed, begins⟩ := begun
        obtain rfl := distinguished other message licensed (.inr ⟨manager, member, accepted⟩) named
        exact .inr begins
  reaches message nodeId s session listed here normal := by
    obtain ⟨found, same, id, _⟩ := sound.placed.listed nodeId s listed
    obtain rfl := Option.some.inj (here.symm.trans same)
    have wanted : peer.manager.base.sessions session.nodeId = some s ∧ session.type = .normalNode := ⟨id ▸ listed, normal⟩
    unfold writtenTo
    rw [writeAll_connections, here, Option.map_some, if_pos wanted, Option.map_some, Option.getD_some, write_written]
    exact List.mem_append_right _ List.mem_cons_self

end Peers

section Networks
variable {World ι : Type} [DecidableEq ι] {setups : ι → Setup World} {network : ι → Peer World}

theorem networked_sound {allowed : Setup World → Peer World → Peer.Step World → Prop} (reached : Networked setups allowed network) (i : ι) :
    Sound (setups i) (network i) := by
  induction reached with
  | start states consensus => exact sound_started _ _
  | @step network j step after _ _ done ih =>
    by_cases same : i = j
    · subst same
      rw [Function.update_self]
      exact ih.perform done
    · rw [Function.update_of_ne same]
      exact ih

/-- In every run in which no block is announced once more, every node gossips. -/
theorem network_gossips (reached : Networked setups Unannounced network) (i : ι) : Gossips (setups i) (network i) := by
  refine (networked_sound reached i).gossips ?_
  induction reached with
  | start states consensus => exact fun _ member => absurd member List.not_mem_nil
  | @step network j step after _ fine done ih =>
    by_cases same : i = j
    · subst same
      rw [Function.update_self]
      exact quiet_handled done fine ih
    · rw [Function.update_of_ne same]
      exact ih

end Networks

variable {World : Type} {setup : Setup World} {allowed : Setup World → Peer World → Peer.Step World → Prop}
  {check : Peer World → Peer.Step World → Bool} {peer after : Peer World}

def runs (setup : Setup World) (check : Peer World → Peer.Step World → Bool) : List (Peer.Step World) → Peer World → Option (Peer World)
  | [], peer => some peer
  | step :: rest, peer => if check peer step then (peer.perform setup step).bind (runs setup check rest) else none

theorem runs_networked (checked : ∀ peer step, check peer step = true → allowed setup peer step) :
    ∀ (steps : List (Peer.Step World)) {peer : Peer World}, runs setup check steps peer = some after →
    Networked (fun _ : Unit => setup) allowed (fun _ => peer) → Networked (fun _ : Unit => setup) allowed fun _ => after := by
  intro steps
  induction steps with
  | nil =>
    intro peer ran reached
    exact Option.some.inj ran ▸ reached
  | cons step rest ih =>
    intro peer ran reached
    obtain ⟨fine, ran⟩ := Option.ite_none_right_eq_some.mp ran
    obtain ⟨next, done, ran⟩ := Option.bind_eq_some_iff.mp ran
    apply ih ran
    have only : Function.update (fun _ : Unit => peer) () next = fun _ => next := funext fun _ => Function.update_self ..
    exact only ▸ .step reached (checked peer step fine) done

/-- Whether no broadcast of a block comes to be handled. -/
def noBlocks (setup : Setup World) (peer : Peer World) : Peer.Step World → Bool
  | .run index _ => peer.jobs[index]?.all fun
    | .handleNewBroadcast _ message => !(BroadcastDecoder.broadcastBlock setup.reader message).isOk
    | _ => true
  | _ => true

theorem noBlocks_unannounced {step : Peer.Step World} (checked : noBlocks setup peer step = true) : Unannounced setup peer step := by
  cases step with
  | session | originate | elsewhere => trivial
  | run index currentEpoch =>
    intro nodeId message found
    have undecoded : (!(BroadcastDecoder.broadcastBlock setup.reader message).isOk) = true := by
      change Option.all _ peer.jobs[index]? = true at checked
      rw [found] at checked
      exact checked
    unfold announced
    cases decoded : BroadcastDecoder.broadcastBlock setup.reader message with
    | error what => rfl
    | ok block =>
      rw [decoded] at undecoded
      cases undecoded

def plainSetup : Setup Unit := ⟨Conservation.bareEnv fun _ _ => .done .success 0 [], PeerMessages.oneKeyReader [], 0⟩

def noConsensus : RdPoS := { minValidators := 0, validators := .empty, randomList := [], randomGen := 0, bestRandomSeed := 0 }

/-- A peer with a server at a port. -/
def joinsAt (s : Nat) (port : UInt8) : List (Peer.Step Unit) :=
  [.session (.make (.v4 7) 50000 .inbound), .session (.complete s .done), .session (.complete s (.handshake 0 0 port))]

def sends (s : Nat) (message : Message) : List (Peer.Step Unit) :=
  [.session (.complete s (.header (UInt64.ofNat message.size))), .session (.complete s (.message message.rawMessage))]

/-- A node with two neighbours gets a transfer from one of them. -/
def transferRun (message : Message) : List (Peer.Step Unit) :=
  joinsAt 0 1 ++ joinsAt 1 2 ++ sends 0 message ++ [.run 0 0, .run 0 0, .run 0 0, .run 0 0]

def richState : State Unit := State.construct { nativeAccounts := [(TxRoundTrip.oneKeyAddress, 1000000, 0)] } () [] 0 ⟨[], ChainRuns.origin⟩

theorem transfer_is_forwarded : ∃ message peer, runs plainSetup (noBlocks plainSetup) (transferRun message) (.started richState noConsensus) = some peer ∧
    peer.forwarded = [message] ∧ (writtenTo peer.manager.base 0) = [message] ∧ (writtenTo peer.manager.base 1) = [message] ∧
    Gossips plainSetup peer := by
  have done : ((TxRoundTrip.signedTransfer (List.replicate 56 0)).toOption.any fun tx => (BroadcastEncoder.broadcastTx tx).toOption.any fun message =>
      (runs plainSetup (noBlocks plainSetup) (transferRun message) (.started richState noConsensus)).any fun peer =>
        peer.forwarded = [message] ∧ (writtenTo peer.manager.base 0) = [message] ∧ (writtenTo peer.manager.base 1) = [message]) = true := by
    decide +kernel
  obtain ⟨tx, _, done⟩ := (Option.any_eq_true _ _).mp done
  obtain ⟨message, _, done⟩ := (Option.any_eq_true _ _).mp done
  obtain ⟨peer, ran, done⟩ := (Option.any_eq_true _ _).mp done
  obtain ⟨forwarded, first, second⟩ := of_decide_eq_true done
  have reached := runs_networked (fun _ _ => noBlocks_unannounced) _ ran (.start (fun _ => richState) fun _ => noConsensus)
  exact ⟨message, peer, ran, forwarded, first, second, network_gossips reached ()⟩

/-- The node holds the block that is announced, and one behind it. It has announced neither, as after a restart. -/
def behind : State Unit := State.construct {} () [] 0 ⟨[ChainRuns.origin], ChainRuns.child⟩

def announcement (message : Message) : List (Peer.Step Unit) := joinsAt 0 1 ++ joinsAt 1 2 ++ sends 0 message ++ [.run 0 0, .run 0 0]

theorem announced_block_is_not_forwarded : ¬ ∀ network : Unit → Peer Unit,
    Networked (fun _ => plainSetup) (fun _ _ _ => True) network → Gossips plainSetup (network ()) := by
  intro always
  have done : ((BroadcastEncoder.broadcastBlock ChainRuns.origin).toOption.any fun message =>
      (runs plainSetup (fun _ _ => true) (announcement message) (.started behind noConsensus)).any fun peer =>
        peer.jobs = [] ∧ peer.forwarded = [] ∧ peer.originated = [] ∧ peer.handled.map Prod.snd = [message] ∧
          peer.handled.all (fun entry => announced plainSetup entry.1 entry.2) = true) = true := by
    decide +kernel
  obtain ⟨message, _, done⟩ := (Option.any_eq_true _ _).mp done
  obtain ⟨peer, ran, done⟩ := (Option.any_eq_true _ _).mp done
  obtain ⟨jobs, forwarded, originated, handled, all⟩ := of_decide_eq_true done
  have gossips := always _ (runs_networked (fun _ _ _ => trivial) _ ran (.start (fun _ => behind) fun _ => noConsensus))
  have only {other} (licensed : Licensed plainSetup peer other) : other = message := by
    cases licensed with
    | inl own =>
      rw [originated] at own
      cases own
    | inr accepted =>
      obtain ⟨manager, member, _⟩ := accepted
      have member := List.mem_map_of_mem (f := Prod.snd) member
      rw [handled] at member
      exact List.mem_singleton.mp member
  have distinguished : Distinguished plainSetup peer := fun first second one two _ => (only one).trans (only two).symm
  obtain ⟨entry, member, same⟩ := List.mem_map.mp (handled ▸ List.mem_cons_self : message ∈ peer.handled.map Prod.snd)
  have again := List.all_eq_true.mp all entry member
  have passes := gossips.every distinguished entry.1 entry.2 member (.inr again)
  rw [jobs, forwarded] at passes
  rcases passes with waiting | writing | written
  · cases waiting
  · cases writing
  · cases written

end OrbiterSDK.Proofs.Forwarding
