import Mathlib.Logic.Function.Basic
import OrbiterSDK.P2P.Session

/-! The sessions of a manager and the table in which they are registered under the address and port of their peers.
A session is known by a number, in the order in which they were made. -/

namespace OrbiterSDK.P2P

inductive ConnectionType where
  | inbound | outbound
  deriving DecidableEq

/-- What is asked of the socket and not completed, apart from the writes of messages. -/
inductive Pending where
  | connect | writeHandshake | readHandshake | readHeader
  | readMessage (messageSize : UInt64)
  deriving DecidableEq

/-- How an operation of a socket fails. One that is cancelled belongs to a session that is being closed. -/
inductive ErrorCode where
  | operationCanceled
  | other (value : Nat)
  deriving DecidableEq

structure Session where
  address : IpAddress
  port : UInt16
  connectionType : ConnectionType
  nodeId : NodeID := (.v4 0, 0)
  type : NodeType := .normalNode
  doneHandshake : Bool := false
  pending : Option Pending := none
  outbound : Outbound := {}
  /-- Whether `close` has been called. -/
  closing : Bool := false
  /-- Whether the socket is open. -/
  connected : Bool := true

/-- What the strand and the socket do. The calls of `write` come through the table. -/
def Outbound.proceed (session : Outbound) : Outbound.Turn → Option Outbound
  | .write _ => none
  | turn => session.perform turn

/-- A server begins with the handshake, a client connects first. -/
def Session.run (session : Session) : Session := { session with
  pending := match session.connectionType with
    | .inbound => some .writeHandshake
    | .outbound => some .connect }

/-- 128 MB. -/
def maxMessageSize : Nat := 1024 * 1024 * 128

structure ManagerBase where
  started : Bool
  connections : List Session := []
  sessions : NodeID → Option Nat := fun _ => none

namespace ManagerBase
variable (manager : ManagerBase)

def update (s : Nat) (change : Session → Session) : ManagerBase :=
  { manager with connections := manager.connections.modify s change }

/-- Registration under the lock of the table. -/
def registerSessionInternal (nodeId : NodeID) (s : Nat) : Bool × ManagerBase :=
  if !manager.started then (false, manager)
  else if (manager.sessions nodeId).isSome then (false, manager)
  else (true, { manager with sessions := Function.update manager.sessions nodeId (some s) })

/-- What is erased is the entry under the id of the session. -/
def unregisterSessionInternal (nodeId : NodeID) : ManagerBase :=
  if manager.started then { manager with sessions := Function.update manager.sessions nodeId none } else manager

/-- The closing of the socket is posted. -/
def close (s : Nat) : ManagerBase := manager.update s fun session => { session with closing := true }

def disconnectSessionInternal (nodeId : NodeID) : ManagerBase :=
  if !manager.started then manager
  else match manager.sessions nodeId with
    | none => manager
    | some s => { manager.close s with sessions := Function.update manager.sessions nodeId none }

def handleError (s : Nat) (session : Session) : ErrorCode → ManagerBase
  | .operationCanceled => manager
  | .other _ => ((if session.doneHandshake then manager.unregisterSessionInternal session.nodeId else manager)).close s

/-- The next operation of a session. -/
def await (s : Nat) (pending : Pending) : ManagerBase := manager.update s fun session => { session with pending := some pending }

/-- The second and third byte of the handshake are the port of the peer's server. -/
def finishHandshake (s : Nat) (session : Session) (flag high low : UInt8) : ManagerBase :=
  let nodeId := (session.address, UInt16.ofNat (Utils.bytesToUint [high, low]))
  let manager := manager.update s fun session => { session with
    type := if flag = 0 then .normalNode else .discoveryNode
    doneHandshake := true
    nodeId }
  match manager.registerSessionInternal nodeId s with
  | (true, manager) => manager.await s .readHeader
  | (false, manager) => manager.close s

def onReadHeader (s : Nat) (messageSize : UInt64) : ManagerBase :=
  if maxMessageSize < messageSize.toNat then manager.close s else manager.await s (.readMessage messageSize)

/-- What the socket completes. -/
inductive Completion where
  | done
  | handshake (flag high low : UInt8)
  | header (messageSize : UInt64)
  | message (raw : Bytes)
  | failed (ec : ErrorCode)

/-- The handler of an operation that is completed. What is given to the threads of the manager comes with it. -/
def completed (s : Nat) (session : Session) : Pending → Completion → Option (List (NodeID × Message) × ManagerBase)
  | _, .failed ec => some ([], manager.handleError s session ec)
  | .connect, .done => some ([], manager.await s .writeHandshake)
  | .writeHandshake, .done => some ([], manager.await s .readHandshake)
  | .readHandshake, .handshake flag high low => some ([], manager.finishHandshake s session flag high low)
  | .readHeader, .header messageSize => some ([], manager.onReadHeader s messageSize)
  | .readMessage messageSize, .message raw =>
    if raw.length = messageSize.toNat then some ([(session.nodeId, ⟨raw⟩)], manager.await s .readHeader) else none
  | _, _ => none

inductive Step where
  | make (address : IpAddress) (port : UInt16) (connectionType : ConnectionType)
  | complete (s : Nat) (completion : Completion)
  | write (nodeId : NodeID) (message : Message)
  | writing (s : Nat) (turn : Outbound.Turn)
  | failWrite (s : Nat) (index : Nat) (ec : ErrorCode)
  | disconnect (nodeId : NodeID)
  | doClose (s : Nat) (closed : Bool)

/-- What a step does, if it can happen. -/
def happen : Step → Option (List (NodeID × Message) × ManagerBase)
  | .make address port connectionType =>
    some ([], { manager with connections := manager.connections ++ [Session.run { address, port, connectionType }] })
  | .complete s completion => do
    let session ← manager.connections[s]?
    let pending ← session.pending
    (manager.update s fun session => { session with pending := none }).completed s session pending completion
  | .write nodeId message => do
    let s ← manager.sessions nodeId
    pure ([], manager.update s fun session => { session with outbound := session.outbound.write message })
  | .writing s turn => do
    let session ← manager.connections[s]?
    let outbound ← session.outbound.proceed turn
    pure ([], manager.update s fun session => { session with outbound })
  | .failWrite s index ec => do
    let session ← manager.connections[s]?
    let _ ← session.outbound.inFlight[index]?
    let manager := manager.update s fun session => { session with
      outbound := { session.outbound with inFlight := session.outbound.inFlight.eraseIdx index } }
    pure ([], manager.handleError s session ec)
  | .disconnect nodeId => some ([], manager.disconnectSessionInternal nodeId)
  | .doClose s closed => do
    let session ← manager.connections[s]?
    if session.closing then pure ([], manager.update s fun session => { session with connected := session.connected && !closed })
    else none

/-- What cannot happen changes nothing. -/
def perform (step : Step) : List (NodeID × Message) × ManagerBase := (manager.happen step).getD ([], manager)

end ManagerBase
end OrbiterSDK.P2P
