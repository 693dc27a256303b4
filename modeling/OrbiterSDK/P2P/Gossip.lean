import OrbiterSDK.P2P.ManagerNormal

/-! Nodes that pass on what they accept. The threads of a node handle messages at the same time, and what its sockets
read is arbitrary: it may come from another one of the nodes or from anyone else. -/

namespace OrbiterSDK.P2P
open Lib

/-- What a thread of the pool has before it. A broadcast is handled in four sections, and other threads run in between. -/
inductive Job where
  | handleMessage (nodeId : NodeID) (message : Message)
  | handleNewBroadcast (nodeId : NodeID) (message : Message)
  | broadcastMessage (message : Message)
  | writeAll (message : Message)
  deriving DecidableEq

structure Peer (World : Type) where
  manager : ManagerNormal World
  jobs : List Job := []
  /-- The broadcasts that the node has begun itself. -/
  originated : List Message := []
  /-- The broadcasts of others that were given to the state, with the manager before. -/
  handled : List (ManagerNormal World × Message) := []
  /-- The broadcasts that were written to the sessions. -/
  forwarded : List Message := []

namespace Peer
variable {World : Type} (setup : Setup World) (peer : Peer World)

def IsBroadcast (message : Message) : Prop := message.type = .ok .broadcasting

instance (message : Message) : Decidable (IsBroadcast message) := inferInstanceAs (Decidable (_ = _))

def push (job : Job) : Peer World := { peer with jobs := peer.jobs ++ [job] }

/-- The beginning of `handleMessage`, for a broadcast up to the end of the section under the lock of the counters. -/
def handleMessage (currentEpoch : UInt64) (nodeId : NodeID) (message : Message) : Option (Peer World) :=
  if peer.manager.base.started ∧ IsBroadcast message then
    message.id.toOption.map fun id =>
      if 0 < peer.manager.broadcastedMessages id.toUint64 then { peer with manager := peer.manager.countAgain id.toUint64 }
      else peer.push (.handleNewBroadcast nodeId message)
  else (peer.manager.handleMessage setup currentEpoch nodeId message).toOption.map fun manager => { peer with manager }

def handleNewBroadcast (nodeId : NodeID) (message : Message) : Option (Peer World) :=
  (peer.manager.handleNewBroadcast setup message).toOption.map fun (verdict, manager) =>
    let peer := { peer with handled := peer.handled ++ [(peer.manager, message)] }
    match verdict with
    | .rebroadcast => { peer with manager }.push (.broadcastMessage message)
    | .keep => { peer with manager }
    | .disconnect => { peer with manager := manager.disconnectSession nodeId }

def broadcastMessage (message : Message) : Option (Peer World) :=
  message.id.toOption.map fun id =>
    match peer.manager.announce id.toUint64 with
    | none => peer
    | some manager => { peer with manager }.push (.writeAll message)

def writeAll (message : Message) : Peer World := { peer with
  manager := { peer.manager with base := peer.manager.base.writeAll message }
  forwarded := peer.forwarded ++ [message] }

def runJob (currentEpoch : UInt64) : Job → Option (Peer World)
  | .handleMessage nodeId message => peer.handleMessage setup currentEpoch nodeId message
  | .handleNewBroadcast nodeId message => peer.handleNewBroadcast setup nodeId message
  | .broadcastMessage message => peer.broadcastMessage message
  | .writeAll message => some (peer.writeAll message)

inductive Step (World : Type) where
  /-- A step of the sessions. Requests and answers are written this way as well. -/
  | session (step : ManagerBase.Step)
  | originate (message : Message)
  | run (index : Nat) (currentEpoch : UInt64)
  /-- What the other components do to what is not the manager's own. -/
  | elsewhere (state : State World) (rdpos : RdPoS) (requests : RequestID → Option Request)

/-- Only the manager writes broadcasts. -/
def Ordinary : ManagerBase.Step → Prop
  | .write _ message => ¬ IsBroadcast message
  | _ => True

instance : (step : ManagerBase.Step) → Decidable (Ordinary step)
  | .write _ message => inferInstanceAs (Decidable (¬ IsBroadcast message))
  | .make _ _ _ | .complete _ _ | .writing _ _ | .failWrite _ _ _ | .disconnect _ | .doClose _ _ => isTrue trivial

/-- What happens next, if it can. Nothing follows what ends the program. -/
def perform : Step World → Option (Peer World)
  | .session step =>
    if Ordinary step then
      (peer.manager.base.happen step).map fun (messages, base) => { peer with
        manager := { peer.manager with base }
        jobs := peer.jobs ++ messages.map fun entry => .handleMessage entry.1 entry.2 }
    else none
  | .originate message =>
    if IsBroadcast message then some ({ peer with originated := peer.originated ++ [message] }.push (.broadcastMessage message)) else none
  | .run index currentEpoch =>
    peer.jobs[index]?.bind ({ peer with jobs := peer.jobs.eraseIdx index }.runJob setup currentEpoch)
  | .elsewhere state rdpos requests => some { peer with manager := { peer.manager with state, rdpos, requests } }

/-- A manager that was started. -/
def started (state : State World) (rdpos : RdPoS) : Peer World where
  manager := { base := { started := true }, state, rdpos }

/-- A transaction or a block in a broadcast that the state accepts. -/
inductive Accepted (manager : ManagerNormal World) (message : Message) : Prop where
  | txValidator {tx : TxValidator} {rdpos : RdPoS} (command : message.command = .ok .broadcastValidatorTx)
      (decoded : BroadcastDecoder.broadcastValidatorTx setup.reader message = .ok tx)
      (added : manager.rdpos.addValidatorTx manager.state.latest tx = .ok (true, rdpos))
  | tx {tx : TxBlock} {state : State World} (command : message.command = .ok .broadcastTx)
      (decoded : BroadcastDecoder.broadcastTx setup.reader message = .ok tx)
      (added : (State.addTx tx).eval manager.state = (.ok .notInvalid, state))
  | block {block : Block} {checked processed : State World} (command : message.command = .ok .broadcastBlock)
      (decoded : BroadcastDecoder.broadcastBlock setup.reader message = .ok block)
      (unknown : ManagerNormal.blockExists manager.state block.hash = false)
      (valid : (State.validateNextBlock setup.env block).eval manager.state = (.ok true, checked))
      (done : (State.processNextBlock setup.env block).eval checked = (.ok (), processed))

/-- Whether a block is known already and comes before the latest one. -/
def announced (manager : ManagerNormal World) (message : Message) : Bool :=
  match BroadcastDecoder.broadcastBlock setup.reader message with
  | .ok block => ManagerNormal.blockExists manager.state block.hash && manager.state.latest.nHeight - 1 = block.nHeight
  | .error _ => false

end Peer

/-- Any number of nodes, of which one takes a step at a time, where it may. -/
inductive Networked {World ι : Type} [DecidableEq ι] (setups : ι → Setup World)
    (allowed : Setup World → Peer World → Peer.Step World → Prop) : (ι → Peer World) → Prop where
  | start (states : ι → State World) (consensus : ι → RdPoS) : Networked setups allowed fun i => .started (states i) (consensus i)
  | step {network : ι → Peer World} {i : ι} {step : Peer.Step World} {after : Peer World} (before : Networked setups allowed network)
      (fine : allowed (setups i) (network i) step) (done : (network i).perform (setups i) step = some after) :
      Networked setups allowed (Function.update network i after)

end OrbiterSDK.P2P
