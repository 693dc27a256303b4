import OrbiterSDK.P2P.Encoding

/-! How a session writes. Any thread may call `write`; everything else runs in handlers on the write strand, of which
one runs at a time, and is completed by the socket, which may take the bytes of a buffer in several parts. -/

namespace OrbiterSDK.P2P

/-- Where the strand stands. The three statements of `do_write_header` run without the lock, and any number of
writes may come between them. -/
inductive Task where
  | doWriteHeader
  | setHeader
  | startHeader
  | onWriteHeader
  | onWriteMessage
  deriving DecidableEq

/-- What an asynchronous write reads: the array of the session, or the bytes of a message. -/
inductive Buffer where
  | header
  | body (message : Message)
  deriving DecidableEq

/-- An asynchronous write with the number of bytes that the socket has taken. -/
structure Transfer where
  buffer : Buffer
  taken : Nat
  deriving DecidableEq

/-- The members of a session that its writes use. -/
structure Outbound where
  outboundMessage : Option Message := none
  outboundMessages : List Message := []
  outboundHeader : Bytes := List.replicate 8 0
  /-- What was posted to the strand and has not begun. -/
  posted : List Task := []
  running : Option Task := none
  inFlight : List Transfer := []
  /-- What has been written to the socket. -/
  socket : Bytes := []
  /-- The messages in the order in which the calls of `write` took the lock. -/
  written : List Message := []

namespace Outbound
variable (session : Outbound)

/-- The section under the lock is one step. -/
def write (message : Message) : Outbound :=
  let session := { session with written := session.written ++ [message] }
  match session.outboundMessage with
  | none => { session with
      outboundMessage := some message
      posted := session.posted ++ [.doWriteHeader] }
  | some _ => { session with outboundMessages := session.outboundMessages ++ [message] }

def asyncWrite (buffer : Buffer) : Outbound := { session with inFlight := session.inFlight ++ [⟨buffer, 0⟩] }

def goto (task : Option Task) : Outbound := { session with running := task }

/-- The section of `on_write_message` under the lock. It ends with a call of `do_write_header`. -/
def onWriteMessage : Outbound :=
  match session.outboundMessages with
  | [] => { session with outboundMessage := none }.goto none
  | message :: rest => { session with
      outboundMessage := some message
      outboundMessages := rest }.goto (some .doWriteHeader)

/-- The next statement of a handler. It cannot be executed without the message that it reads. -/
def runTask : Task → Option Outbound
  | .doWriteHeader => some (session.goto (if session.outboundMessage = none then none else some .setHeader))
  | .setHeader => session.outboundMessage.map fun message =>
      { session with outboundHeader := Utils.uintToBytes 8 message.size }.goto (some .startHeader)
  | .startHeader => some ((session.asyncWrite .header).goto none)
  | .onWriteHeader => session.outboundMessage.map fun message => (session.asyncWrite (.body message)).goto none
  | .onWriteMessage => some session.onWriteMessage

def content : Buffer → Bytes
  | .header => session.outboundHeader
  | .body message => message.rawMessage

/-- The handler that is called when all bytes have been taken. -/
def handler : Buffer → Task
  | .header => .onWriteHeader
  | .body _ => .onWriteMessage

inductive Turn where
  | write (message : Message)
  | start (index : Nat)
  | run
  | transfer (index count : Nat)
  | complete (index : Nat)

/-- What happens next, if it can. -/
def perform : Turn → Option Outbound
  | .write message => some (session.write message)
  | .start index =>
    if session.running = none then session.posted[index]?.map fun task => { session with
        running := some task
        posted := session.posted.eraseIdx index }
    else none
  | .run => session.running.bind session.runTask
  | .transfer index count =>
    session.inFlight[index]?.bind fun ⟨buffer, taken⟩ =>
      if 0 < count ∧ taken + count ≤ (session.content buffer).length then some { session with
        socket := session.socket ++ ((session.content buffer).drop taken).take count
        inFlight := session.inFlight.set index ⟨buffer, taken + count⟩ }
      else none
  | .complete index =>
    session.inFlight[index]?.bind fun ⟨buffer, taken⟩ =>
      if (session.content buffer).length ≤ taken then some { session with
        inFlight := session.inFlight.eraseIdx index
        posted := session.posted ++ [handler buffer] }
      else none

/-- Every order of writes, handlers and completions of a new session. -/
inductive Reached : List Turn → Outbound → Prop where
  | new : Reached [] {}
  | step {turns : List Turn} {session after : Outbound} (before : Reached turns session) (turn : Turn)
      (done : session.perform turn = some after) : Reached (turns ++ [turn]) after

/-- The messages of the calls of `write`, in the order in which they took the lock. -/
def requested (turns : List Turn) : List Message :=
  turns.filterMap fun turn =>
    match turn with
    | .write message => some message
    | _ => none

end Outbound
end OrbiterSDK.P2P
