import OrbiterSDK.P2P.ManagerBase
import OrbiterSDK.RdPoS

/-! The manager of a normal node: what it answers to requests, which answers it takes, and what of the broadcasts of
others it gives to the state and passes on. -/

namespace OrbiterSDK.P2P
open Tx (pastEnd)

/-- The promise can be kept once. -/
structure Request where
  command : CommandType
  id : RequestID
  nodeId : NodeID
  answer : Option Message := none
  message : Message
  isAnswered : Bool := false

def Request.setAnswer (request : Request) (answer : Message) : Except Exception Request :=
  match request.answer with
  | some _ => .error "std::future_error: Promise already satisfied"
  | none => .ok { request with
      answer := some answer
      isAnswered := true }

/-- What a manager uses beside its members. -/
structure Setup (World : Type) where
  env : Env World
  reader : BlockReader
  version : UInt64

structure ManagerNormal (World : Type) where
  base : ManagerBase
  state : State World
  rdpos : RdPoS
  broadcastedMessages : UInt64 → Nat := fun _ => 0
  requests : RequestID → Option Request := fun _ => none

namespace ManagerBase
variable (manager : ManagerBase)

/-- The loop over the table. -/
def writeAll (message : Message) : ManagerBase := { manager with
  connections := manager.connections.mapIdx fun s session =>
    if manager.sessions session.nodeId = some s ∧ session.type = .normalNode then
      { session with outbound := session.outbound.write message }
    else session }

def answerSession (nodeId : NodeID) (message : Message) : ManagerBase :=
  if !manager.started then manager
  else match manager.sessions nodeId with
    | none => manager
    | some s => manager.update s fun session => { session with outbound := session.outbound.write message }

/-- The map of the nodes that are connected. -/
def nodes : List (NodeID × NodeType) :=
  (manager.connections.zipIdx.filter fun entry => manager.sessions entry.1.nodeId = some entry.2).map fun entry =>
    (entry.1.nodeId, entry.1.type)

end ManagerBase

namespace ManagerNormal
variable {World : Type} (setup : Setup World) (manager : ManagerNormal World)

def disconnectSession (nodeId : NodeID) : ManagerNormal World :=
  { manager with base := manager.base.disconnectSessionInternal nodeId }

def answerSession (nodeId : NodeID) (message : Message) : ManagerNormal World :=
  { manager with base := manager.base.answerSession nodeId message }

/-! Requests. -/

/-- A request without data is answered, or the session is disconnected. -/
def handleBareRequest (decode : Message → Except Exception Bool) (answer : Message → Except Exception Message) (nodeId : NodeID)
    (message : Message) : Except Exception (ManagerNormal World) := do
  if ← decode message then return manager.answerSession nodeId (← answer message) else return manager.disconnectSession nodeId

def handlePingRequest : NodeID → Message → Except Exception (ManagerNormal World) :=
  manager.handleBareRequest RequestDecoder.ping AnswerEncoder.ping

/-- What is decoded is not used. -/
def handleInfoRequest (currentEpoch : UInt64) (nodeId : NodeID) (message : Message) : Except Exception (ManagerNormal World) := do
  let _ ← RequestDecoder.info message
  return manager.answerSession nodeId (← AnswerEncoder.info message manager.state.latest setup.version currentEpoch)

def handleRequestNodesRequest : NodeID → Message → Except Exception (ManagerNormal World) :=
  manager.handleBareRequest RequestDecoder.requestNodes (AnswerEncoder.requestNodes · manager.base.nodes)

def handleTxValidatorRequest : NodeID → Message → Except Exception (ManagerNormal World) :=
  manager.handleBareRequest RequestDecoder.requestValidatorTxs (AnswerEncoder.requestValidatorTxs · manager.rdpos.validatorMempool)

def handleTxRequest : NodeID → Message → Except Exception (ManagerNormal World) :=
  manager.handleBareRequest RequestDecoder.requestTxs (AnswerEncoder.requestTxs · manager.state.mempool)

def handleRequest (currentEpoch : UInt64) (nodeId : NodeID) (message : Message) : Except Exception (ManagerNormal World) := do
  match ← message.command with
  | .ping => manager.handlePingRequest nodeId message
  | .info => manager.handleInfoRequest setup currentEpoch nodeId message
  | .requestNodes => manager.handleRequestNodesRequest nodeId message
  | .requestValidatorTxs => manager.handleTxValidatorRequest nodeId message
  | .requestTxs => manager.handleTxRequest nodeId message
  | _ => return manager.disconnectSession nodeId

/-! Answers. The five handlers are the same. -/

def handleKnownAnswer (nodeId : NodeID) (message : Message) : Except Exception (ManagerNormal World) := do
  let id ← message.id
  match manager.requests id with
  | none => return manager.disconnectSession nodeId
  | some request =>
    let request ← request.setAnswer message
    return { manager with requests := Function.update manager.requests id (some request) }

def handlePingAnswer : NodeID → Message → Except Exception (ManagerNormal World) := manager.handleKnownAnswer

def handleInfoAnswer : NodeID → Message → Except Exception (ManagerNormal World) := manager.handleKnownAnswer

def handleRequestNodesAnswer : NodeID → Message → Except Exception (ManagerNormal World) := manager.handleKnownAnswer

def handleTxValidatorAnswer : NodeID → Message → Except Exception (ManagerNormal World) := manager.handleKnownAnswer

def handleTxAnswer : NodeID → Message → Except Exception (ManagerNormal World) := manager.handleKnownAnswer

def handleAnswer (nodeId : NodeID) (message : Message) : Except Exception (ManagerNormal World) := do
  match ← message.command with
  | .ping => manager.handlePingAnswer nodeId message
  | .info => manager.handleInfoAnswer nodeId message
  | .requestNodes => manager.handleRequestNodesAnswer nodeId message
  | .requestValidatorTxs => manager.handleTxValidatorAnswer nodeId message
  | .requestTxs => manager.handleTxAnswer nodeId message
  | _ => return manager.disconnectSession nodeId

/-! Broadcasts. -/

/-- What a handler of a broadcast does at its end. -/
inductive Verdict where
  | rebroadcast | keep | disconnect
  deriving DecidableEq

/-- `catch (std::exception &e)`. A thread that waits for itself throws nothing. -/
def caught : Stop → Except Stop (Verdict × ManagerNormal World)
  | .exception _ => .ok (.disconnect, manager)
  | .deadlock => .error .deadlock

/-- What is undefined is not caught. -/
def caughtRead (what : Exception) : Except Stop (Verdict × ManagerNormal World) :=
  if what = pastEnd then .error (.exception what) else manager.caught (.exception what)

def handleTxValidatorBroadcast (message : Message) : Except Stop (Verdict × ManagerNormal World) :=
  match BroadcastDecoder.broadcastValidatorTx setup.reader message with
  | .error what => manager.caughtRead what
  | .ok tx =>
    match manager.rdpos.addValidatorTx manager.state.latest tx with
    | .error what => manager.caughtRead what
    | .ok (added, rdpos) => .ok (if added then .rebroadcast else .keep, { manager with rdpos })

def handleTxBroadcast (message : Message) : Except Stop (Verdict × ManagerNormal World) :=
  match BroadcastDecoder.broadcastTx setup.reader message with
  | .error what => manager.caughtRead what
  | .ok tx =>
    match (State.addTx tx).eval manager.state with
    | (.error stop, state) => { manager with state }.caught stop
    | (.ok txInvalid, state) => .ok (if txInvalid = .notInvalid then .rebroadcast else .keep, { manager with state })

def blockExists (state : State World) (hash : Hash) : Bool := (state.storage.older ++ [state.storage.latest]).any (·.hash = hash)

/-- Once the state has processed a block, the consensus has as well. -/
def handleBlockBroadcast (message : Message) : Except Stop (Verdict × ManagerNormal World) :=
  match BroadcastDecoder.broadcastBlock setup.reader message with
  | .error what => manager.caughtRead what
  | .ok block =>
    -- rebroadcast is set here for the block before the latest one, and then the function returns
    if blockExists manager.state block.hash then .ok (.keep, manager)
    else
      match (State.validateNextBlock setup.env block).eval manager.state with
      | (.error stop, state) => { manager with state }.caught stop
      | (.ok false, state) => .ok (.keep, { manager with state })
      | (.ok true, state) =>
        match (State.processNextBlock setup.env block).eval state with
        | (.error stop, state) => { manager with state }.caught stop
        | (.ok _, state) => .ok (.rebroadcast, { manager with
            state
            rdpos := (manager.rdpos.processBlock setup.reader.sha3 block).toOption.getD manager.rdpos })

/-- The switch over the command of a broadcast. -/
def handleNewBroadcast (message : Message) : Except Stop (Verdict × ManagerNormal World) :=
  match message.command with
  | .error what => .error (.exception what)
  | .ok .broadcastValidatorTx => manager.handleTxValidatorBroadcast setup message
  | .ok .broadcastTx => manager.handleTxBroadcast setup message
  | .ok .broadcastBlock => manager.handleBlockBroadcast setup message
  | .ok _ => .ok (.disconnect, manager)

/-- The section of `broadcastMessage` under the lock of the counters. -/
def announce (id : UInt64) : Option (ManagerNormal World) :=
  if !manager.base.started then none
  else if 0 < manager.broadcastedMessages id then none
  else some { manager with broadcastedMessages := Function.update manager.broadcastedMessages id 1 }

def broadcastMessage (id : UInt64) (message : Message) : ManagerNormal World :=
  match manager.announce id with
  | none => manager
  | some manager => { manager with base := manager.base.writeAll message }

/-- A broadcast that was made before is only counted, once. -/
def countAgain (id : UInt64) : ManagerNormal World :=
  if manager.broadcastedMessages id = 1 then
    { manager with broadcastedMessages := Function.update manager.broadcastedMessages id 2 }
  else manager

def handleBroadcast (nodeId : NodeID) (message : Message) : Except Stop (ManagerNormal World) := do
  if !manager.base.started then return manager
  else
    let id ← message.id.mapError .exception
    if 0 < manager.broadcastedMessages id.toUint64 then return manager.countAgain id.toUint64
    else
      match ← manager.handleNewBroadcast setup message with
      | (.rebroadcast, manager) => return manager.broadcastMessage id.toUint64 message
      | (.keep, manager) => return manager
      | (.disconnect, manager) => return manager.disconnectSession nodeId

/-- The call that a thread of the pool makes. What it throws ends the program. -/
def handleMessage (currentEpoch : UInt64) (nodeId : NodeID) (message : Message) : Except Stop (ManagerNormal World) := do
  if !manager.base.started then return manager
  else
    match ← message.type.mapError .exception with
    | .requesting => (manager.handleRequest setup currentEpoch nodeId message).mapError .exception
    | .answering => (manager.handleAnswer nodeId message).mapError .exception
    | .broadcasting => manager.handleBroadcast setup nodeId message
    | .unnamed => return manager.disconnectSession nodeId

end ManagerNormal
end OrbiterSDK.P2P
