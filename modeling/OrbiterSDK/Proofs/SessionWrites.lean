import OrbiterSDK.P2P.Session

/-! The messages of a session reach the socket one after another. At any time one message is at some stage of being
written, or there is none and nothing is left to do. -/

namespace OrbiterSDK.Proofs.SessionWrites
open Utils P2P Outbound

def header (message : Message) : Bytes := uintToBytes 8 message.size

/-- A message as the peer receives it. -/
def frame (message : Message) : Bytes := header message ++ message.rawMessage

def frames (messages : List Message) : Bytes := (messages.map frame).flatten

theorem frames_append (first second : List Message) : frames (first ++ second) = frames first ++ frames second := by
  rw [frames, List.map_append, List.flatten_append]
  rfl

/-- How far a message has come. -/
inductive Stage where
  | called | entered | checked | headed
  | header (taken : Nat)
  | headerTaken | headerDone
  | body (taken : Nat)
  | bodyTaken | bodyDone

namespace Stage

def posted : Stage → List Task
  | called => [.doWriteHeader]
  | headerTaken => [.onWriteHeader]
  | bodyTaken => [.onWriteMessage]
  | _ => []

def running : Stage → Option Task
  | entered => some .doWriteHeader
  | checked => some .setHeader
  | headed => some .startHeader
  | headerDone => some .onWriteHeader
  | bodyDone => some .onWriteMessage
  | _ => none

def inFlight (message : Message) : Stage → List P2P.Transfer
  | header taken => [⟨.header, taken⟩]
  | body taken => [⟨.body message, taken⟩]
  | _ => []

/-- The bytes that the socket has not taken. -/
def left (message : Message) : Stage → Bytes
  | called | entered | checked | headed => frame message
  | header taken => (SessionWrites.header message).drop taken ++ message.rawMessage
  | headerTaken | headerDone => message.rawMessage
  | body taken => message.rawMessage.drop taken
  | bodyTaken | bodyDone => []

/-- What is known of the array for the header and of the number of bytes that have been taken. -/
def Fine (message : Message) (outboundHeader : Bytes) : Stage → Prop
  | headed => outboundHeader = SessionWrites.header message
  | header taken => outboundHeader = SessionWrites.header message ∧ taken ≤ 8
  | body taken => taken ≤ message.size
  | _ => True

/-- An upper bound for the steps that the message still takes. -/
def rank (message : Message) : Stage → Nat
  | called => message.size + 18
  | entered => message.size + 17
  | checked => message.size + 16
  | headed => message.size + 15
  | header taken => message.size + 6 + (8 - taken)
  | headerTaken => message.size + 5
  | headerDone => message.size + 4
  | body taken => 3 + (message.size - taken)
  | bodyTaken => 2
  | bodyDone => 1

end Stage

/-- All messages are sent and nothing is left to do. -/
structure Idle (session : Outbound) (sent : List Message) : Prop where
  slot : session.outboundMessage = none
  queue : session.outboundMessages = []
  posted : session.posted = []
  running : session.running = none
  inFlight : session.inFlight = []
  socket : session.socket = frames sent

/-- A message is being written. -/
structure Busy (session : Outbound) (sent : List Message) (message : Message) (stage : Stage) : Prop where
  slot : session.outboundMessage = some message
  posted : session.posted = stage.posted
  running : session.running = stage.running
  inFlight : session.inFlight = stage.inFlight message
  fine : stage.Fine message session.outboundHeader
  socket : session.socket ++ (stage.left message ++ frames session.outboundMessages) = frames sent

def Orderly (session : Outbound) (sent : List Message) : Prop := Idle session sent ∨ ∃ message stage, Busy session sent message stage

theorem Idle.write {session : Outbound} {sent : List Message} (idle : Idle session sent) (message : Message) :
    Busy (session.write message) (sent ++ [message]) message .called := by
  have shape : session.write message = { session with
      outboundMessage := some message
      posted := session.posted ++ [.doWriteHeader]
      written := session.written ++ [message] } := by
    simp only [Outbound.write, idle.slot]
  rw [shape]
  constructor
  · rfl
  · exact congrArg (· ++ _) idle.posted
  · exact idle.running
  · exact idle.inFlight
  · trivial
  · show session.socket ++ (frame message ++ frames session.outboundMessages) = frames (sent ++ [message])
    rw [idle.queue, idle.socket, frames_append]
    rfl

theorem Busy.write {session : Outbound} {sent : List Message} {current : Message} {stage : Stage} (busy : Busy session sent current stage)
    (message : Message) : Busy (session.write message) (sent ++ [message]) current stage := by
  have shape : session.write message = { session with
      outboundMessages := session.outboundMessages ++ [message]
      written := session.written ++ [message] } := by
    simp only [Outbound.write, busy.slot]
  rw [shape]
  refine { busy with socket := ?_ }
  show session.socket ++ (stage.left current ++ frames (session.outboundMessages ++ [message])) = frames (sent ++ [message])
  rw [frames_append, frames_append, ← busy.socket, List.append_assoc, List.append_assoc]

variable {session after : Outbound} {sent : List Message} {message : Message} {stage : Stage}

theorem start_iff {index : Nat} : session.perform (.start index) = some after ↔ session.running = none ∧ ∃ task,
    session.posted[index]? = some task ∧ after = { session with
      running := some task
      posted := session.posted.eraseIdx index } := by
  unfold perform
  by_cases quiet : session.running = none
  · simp only [quiet, if_true, Option.map_eq_some_iff, true_and]
    exact exists_congr fun task => and_congr_right fun _ => eq_comm
  · simp only [quiet, if_false, reduceCtorEq, false_and]

theorem transfer_iff {index count : Nat} : session.perform (.transfer index count) = some after ↔ ∃ buffer taken,
    session.inFlight[index]? = some ⟨buffer, taken⟩ ∧ 0 < count ∧ taken + count ≤ (session.content buffer).length ∧
    after = { session with
      socket := session.socket ++ ((session.content buffer).drop taken).take count
      inFlight := session.inFlight.set index ⟨buffer, taken + count⟩ } := by
  simp only [perform, Option.bind_eq_some_iff]
  constructor
  · rintro ⟨⟨buffer, taken⟩, found, done⟩
    split at done
    case isTrue some => exact ⟨buffer, taken, found, some.1, some.2, (Option.some.inj done).symm⟩
    case isFalse => cases done
  · rintro ⟨buffer, taken, found, positive, inside, rfl⟩
    exact ⟨⟨buffer, taken⟩, found, if_pos ⟨positive, inside⟩⟩

theorem complete_iff {index : Nat} : session.perform (.complete index) = some after ↔ ∃ buffer taken,
    session.inFlight[index]? = some ⟨buffer, taken⟩ ∧ (session.content buffer).length ≤ taken ∧
    after = { session with
      inFlight := session.inFlight.eraseIdx index
      posted := session.posted ++ [handler buffer] } := by
  simp only [perform, Option.bind_eq_some_iff]
  constructor
  · rintro ⟨⟨buffer, taken⟩, found, done⟩
    split at done
    case isTrue all => exact ⟨buffer, taken, found, all, (Option.some.inj done).symm⟩
    case isFalse => cases done
  · rintro ⟨buffer, taken, found, all, rfl⟩
    exact ⟨⟨buffer, taken⟩, found, if_pos all⟩

theorem singleton_getElem? {α : Type} {single value : α} {index : Nat} (found : [single][index]? = some value) :
    value = single ∧ index = 0 := by
  cases index with
  | zero => exact ⟨(Option.some.inj found).symm, rfl⟩
  | succ index => cases found

theorem Busy.start {index : Nat} (busy : Busy session sent message stage) (done : session.perform (.start index) = some after) :
    ∃ next, Busy after sent message next ∧ next.rank message < stage.rank message := by
  obtain ⟨quiet, task, found, rfl⟩ := start_iff.mp done
  have running := busy.running
  have posted := busy.posted
  rw [posted] at found
  rw [quiet] at running
  cases stage with
  | called =>
    obtain ⟨rfl, rfl⟩ := singleton_getElem? found
    refine ⟨.entered, ⟨busy.slot, ?_, rfl, busy.inFlight, trivial, busy.socket⟩, Nat.lt_succ_self _⟩
    rw [posted]
    rfl
  | headerTaken =>
    obtain ⟨rfl, rfl⟩ := singleton_getElem? found
    refine ⟨.headerDone, ⟨busy.slot, ?_, rfl, busy.inFlight, trivial, busy.socket⟩, Nat.lt_succ_self _⟩
    rw [posted]
    rfl
  | bodyTaken =>
    obtain ⟨rfl, rfl⟩ := singleton_getElem? found
    refine ⟨.bodyDone, ⟨busy.slot, ?_, rfl, busy.inFlight, trivial, busy.socket⟩, Nat.lt_succ_self _⟩
    rw [posted]
    rfl
  | header taken => cases found
  | body taken => cases found
  | _ => cases running

/-- A handler goes on by a statement. The last one takes the next message out of the queue. -/
theorem Busy.run (busy : Busy session sent message stage) (done : session.perform .run = some after) :
    (∃ next, Busy after sent message next ∧ next.rank message < stage.rank message ∧
      after.outboundMessages = session.outboundMessages) ∨
    stage = .bodyDone ∧ (session.outboundMessages = [] ∧ Idle after sent ∨
      ∃ upcoming, session.outboundMessages = upcoming :: after.outboundMessages ∧ Busy after sent upcoming .entered) := by
  have running := busy.running
  have done : session.running.bind session.runTask = some after := done
  rw [running] at done
  cases stage with
  | entered =>
    have shape : session.goto (some .setHeader) = after := by
      simpa only [Stage.running, Option.bind_some, runTask, busy.slot, reduceCtorEq, if_false, Option.some.injEq] using done
    subst shape
    exact .inl ⟨.checked, ⟨busy.slot, busy.posted, rfl, busy.inFlight, trivial, busy.socket⟩, Nat.lt_succ_self _, rfl⟩
  | checked =>
    have shape : { session with outboundHeader := uintToBytes 8 message.size }.goto (some .startHeader) = after := by
      simpa only [Stage.running, Option.bind_some, runTask, busy.slot, Option.map_some, Option.some.injEq] using done
    subst shape
    exact .inl ⟨.headed, ⟨busy.slot, busy.posted, rfl, busy.inFlight, rfl, busy.socket⟩, Nat.lt_succ_self _, rfl⟩
  | headed =>
    obtain rfl : (session.asyncWrite .header).goto none = after := Option.some.inj done
    refine .inl ⟨.header 0, ⟨busy.slot, busy.posted, rfl, ?_, ⟨busy.fine, Nat.zero_le 8⟩, busy.socket⟩, ?_, rfl⟩
    · exact congrArg (· ++ _) busy.inFlight
    · exact Nat.lt_succ_self (message.size + 14)
  | headerDone =>
    have shape : (session.asyncWrite (.body message)).goto none = after := by
      simpa only [Stage.running, Option.bind_some, runTask, busy.slot, Option.map_some, Option.some.injEq] using done
    subst shape
    refine .inl ⟨.body 0, ⟨busy.slot, busy.posted, rfl, ?_, Nat.zero_le _, busy.socket⟩, ?_, rfl⟩
    · exact congrArg (· ++ _) busy.inFlight
    · show 3 + (message.size - 0) < message.size + 4
      omega
  | bodyDone =>
    obtain rfl : session.onWriteMessage = after := Option.some.inj done
    refine .inr ⟨rfl, ?_⟩
    unfold onWriteMessage
    have socket := busy.socket
    cases queue : session.outboundMessages with
    | nil =>
      rw [queue] at socket
      exact .inl ⟨rfl, rfl, rfl, busy.posted, rfl, busy.inFlight, (List.append_nil _).symm.trans socket⟩
    | cons upcoming rest =>
      rw [queue] at socket
      exact .inr ⟨upcoming, rfl, rfl, busy.posted, rfl, busy.inFlight, trivial, socket⟩
  | _ => cases done

private theorem moved (before part after : Bytes) (count : Nat) :
    (before ++ part.take count) ++ (part.drop count ++ after) = before ++ (part ++ after) := by
  rw [List.append_assoc, ← List.append_assoc (part.take count), List.take_append_drop]

/-- What a buffer holds of the message while it is read. -/
theorem Busy.content_header {taken : Nat} (busy : Busy session sent message (.header taken)) :
    session.content .header = header message ∧ (header message).length = 8 :=
  ⟨busy.fine.1, uintToBytes_length 8 _⟩

theorem Busy.transfer {index count : Nat} (busy : Busy session sent message stage)
    (done : session.perform (.transfer index count) = some after) :
    ∃ next, Busy after sent message next ∧ next.rank message < stage.rank message := by
  obtain ⟨buffer, taken, found, positive, inside, rfl⟩ := transfer_iff.mp done
  have inFlight := busy.inFlight
  have socket := busy.socket
  rw [inFlight] at found
  cases stage with
  | header already =>
    obtain ⟨same, rfl⟩ := singleton_getElem? found
    cases same
    obtain ⟨content, eight⟩ := busy.content_header
    rw [content, eight] at inside
    refine ⟨.header (taken + count), ⟨busy.slot, busy.posted, busy.running, ?_, ⟨busy.fine.1, inside⟩, ?_⟩, ?_⟩
    · rw [inFlight]
      rfl
    · show (session.socket ++ ((session.content .header).drop taken).take count) ++
        (((header message).drop (taken + count) ++ message.rawMessage) ++ frames session.outboundMessages) = _
      rw [content, ← List.drop_drop, ← socket, List.append_assoc (List.drop count _), moved, Stage.left, List.append_assoc]
    · show message.size + 6 + (8 - (taken + count)) < message.size + 6 + (8 - taken)
      omega
  | body already =>
    obtain ⟨same, rfl⟩ := singleton_getElem? found
    cases same
    have inside : taken + count ≤ message.size := inside
    refine ⟨.body (taken + count), ⟨busy.slot, busy.posted, busy.running, ?_, inside, ?_⟩, ?_⟩
    · rw [inFlight]
      rfl
    · show (session.socket ++ (message.rawMessage.drop taken).take count) ++
        (message.rawMessage.drop (taken + count) ++ frames session.outboundMessages) = _
      rw [← List.drop_drop, ← socket, moved, Stage.left]
    · show 3 + (message.size - (taken + count)) < 3 + (message.size - taken)
      omega
  | _ => cases found

theorem Busy.complete {index : Nat} (busy : Busy session sent message stage) (done : session.perform (.complete index) = some after) :
    ∃ next, Busy after sent message next ∧ next.rank message < stage.rank message := by
  obtain ⟨buffer, taken, found, all, rfl⟩ := complete_iff.mp done
  have inFlight := busy.inFlight
  have socket := busy.socket
  have posted := busy.posted
  rw [inFlight] at found
  cases stage with
  | header already =>
    obtain ⟨same, rfl⟩ := singleton_getElem? found
    cases same
    obtain ⟨content, eight⟩ := busy.content_header
    rw [content] at all
    refine ⟨.headerTaken, ⟨busy.slot, ?_, busy.running, ?_, trivial, ?_⟩, ?_⟩
    · exact congrArg (· ++ _) posted
    · exact congrArg (List.eraseIdx · 0) inFlight
    · rw [← socket]
      show _ = session.socket ++ (((header message).drop taken ++ message.rawMessage) ++ frames session.outboundMessages)
      rw [List.drop_eq_nil_of_le all]
      rfl
    · show message.size + 5 < message.size + 6 + (8 - taken)
      omega
  | body already =>
    obtain ⟨same, rfl⟩ := singleton_getElem? found
    cases same
    have all : message.rawMessage.length ≤ taken := all
    refine ⟨.bodyTaken, ⟨busy.slot, ?_, busy.running, ?_, trivial, ?_⟩, ?_⟩
    · exact congrArg (· ++ _) posted
    · exact congrArg (List.eraseIdx · 0) inFlight
    · rw [← socket]
      show _ = session.socket ++ (message.rawMessage.drop taken ++ frames session.outboundMessages)
      rw [List.drop_eq_nil_of_le all]
      rfl
    · show 2 < 3 + (message.size - taken)
      omega
  | _ => cases found

variable {turn : Turn}

/-- Without a message there is nothing to do but to write one. -/
theorem Idle.still (idle : Idle session sent) (done : session.perform turn = some after) : ∃ message, turn = .write message := by
  cases turn with
  | write message => exact ⟨message, rfl⟩
  | start index =>
    obtain ⟨_, _, found, _⟩ := start_iff.mp done
    rw [idle.posted] at found
    cases found
  | run =>
    have done : session.running.bind session.runTask = some after := done
    rw [idle.running] at done
    cases done
  | transfer index count =>
    obtain ⟨_, _, found, _⟩ := transfer_iff.mp done
    rw [idle.inFlight] at found
    cases found
  | complete index =>
    obtain ⟨_, _, found, _⟩ := complete_iff.mp done
    rw [idle.inFlight] at found
    cases found

theorem queue_kept (other : turn ≠ .run) (strange : ∀ message, turn ≠ .write message) (done : session.perform turn = some after) :
    after.outboundMessages = session.outboundMessages ∧ after.written = session.written := by
  cases turn with
  | write message => exact absurd rfl (strange message)
  | start index =>
    obtain ⟨_, _, _, rfl⟩ := start_iff.mp done
    exact ⟨rfl, rfl⟩
  | run => exact absurd rfl other
  | transfer index count =>
    obtain ⟨_, _, _, _, _, rfl⟩ := transfer_iff.mp done
    exact ⟨rfl, rfl⟩
  | complete index =>
    obtain ⟨_, _, _, _, rfl⟩ := complete_iff.mp done
    exact ⟨rfl, rfl⟩

def queueRank (messages : List Message) : Nat := (messages.map fun message => message.size + 17).sum

/-- An upper bound for the steps until nothing is left to do. -/
inductive Work (session : Outbound) (sent : List Message) : Nat → Prop where
  | idle (idle : Idle session sent) : Work session sent 0
  | busy (message : Message) (stage : Stage) (busy : Busy session sent message stage) :
      Work session sent (stage.rank message + queueRank session.outboundMessages)

/-- Every step that is not a write takes the messages further. -/
theorem Work.step {bound : Nat} (work : Work session sent bound) (strange : ∀ message, turn ≠ .write message)
    (done : session.perform turn = some after) : ∃ less, less < bound ∧ Work after sent less := by
  cases work with
  | idle idle =>
    obtain ⟨message, rfl⟩ := idle.still done
    exact absurd rfl (strange message)
  | busy message stage busy =>
    have forward : turn ≠ .run → (∃ next, Busy after sent message next ∧ next.rank message < stage.rank message) →
        ∃ less, less < stage.rank message + queueRank session.outboundMessages ∧ Work after sent less := by
      rintro other ⟨next, busy, fewer⟩
      refine ⟨_, ?_, .busy message next busy⟩
      rw [(queue_kept other strange done).1]
      omega
    cases turn with
    | write message => exact absurd rfl (strange message)
    | start index => exact forward (by simp) (busy.start done)
    | transfer index count => exact forward (by simp) (busy.transfer done)
    | complete index => exact forward (by simp) (busy.complete done)
    | run =>
      rcases busy.run done with ⟨next, busy, fewer, queue⟩ | ⟨rfl, ⟨_, idle⟩ | ⟨upcoming, queue, busy⟩⟩
      · refine ⟨_, ?_, .busy message next busy⟩
        rw [queue]
        omega
      · exact ⟨0, Nat.add_pos_left Nat.one_pos _, .idle idle⟩
      · refine ⟨_, ?_, .busy upcoming .entered busy⟩
        rw [queue]
        show upcoming.size + 17 + queueRank after.outboundMessages < 1 + (upcoming.size + 17 + queueRank after.outboundMessages)
        omega

theorem Work.orderly {bound : Nat} (work : Work session sent bound) : Orderly session sent := by
  cases work with
  | idle idle => exact .inl idle
  | busy message stage busy => exact .inr ⟨message, stage, busy⟩

theorem Orderly.work (orderly : Orderly session sent) : ∃ bound, Work session sent bound := by
  rcases orderly with idle | ⟨message, stage, busy⟩
  · exact ⟨0, .idle idle⟩
  · exact ⟨_, .busy message stage busy⟩

theorem Orderly.write (orderly : Orderly session sent) (message : Message) : Orderly (session.write message) (sent ++ [message]) := by
  rcases orderly with idle | ⟨current, stage, busy⟩
  · exact .inr ⟨message, .called, idle.write message⟩
  · exact .inr ⟨current, stage, busy.write message⟩

theorem requested_other (turns : List Turn) (strange : ∀ message, turn ≠ .write message) : requested (turns ++ [turn]) = requested turns := by
  rw [requested, List.filterMap_append]
  cases turn with
  | write message => exact absurd rfl (strange message)
  | _ => exact List.append_nil _

theorem reached_orderly {turns : List Turn} (reached : Reached turns session) : Orderly session (requested turns) := by
  induction reached with
  | new => exact .inl ⟨rfl, rfl, rfl, rfl, rfl, rfl⟩
  | @step turns _ _ before turn done ih =>
    by_cases writes : ∃ message, turn = .write message
    · obtain ⟨message, rfl⟩ := writes
      obtain rfl := Option.some.inj done
      rw [requested, List.filterMap_append]
      exact ih.write message
    · have strange : ∀ message, turn ≠ .write message := fun message same => writes ⟨message, same⟩
      obtain ⟨bound, work⟩ := ih.work
      obtain ⟨less, _, later⟩ := work.step strange done
      rw [requested_other turns strange]
      exact later.orderly

theorem Busy.moves (busy : Busy session sent message stage) : ∃ turn after, session.perform turn = some after ∧
    ∀ message, turn ≠ .write message := by
  have slot := busy.slot
  have posted := busy.posted
  have running := busy.running
  have inFlight := busy.inFlight
  have begins {task : Task} (waiting : session.posted = [task]) (quiet : session.running = none) :
      ∃ turn after, session.perform turn = some after ∧ ∀ message, turn ≠ .write message :=
    ⟨.start 0, _, start_iff.mpr ⟨quiet, task, by rw [waiting]; rfl, rfl⟩, fun _ => nofun⟩
  have goes {task : Task} (runs : session.running = some task) (next : ∃ after, session.runTask task = some after) :
      ∃ turn after, session.perform turn = some after ∧ ∀ message, turn ≠ .write message := by
    obtain ⟨after, done⟩ := next
    have performed : session.running.bind session.runTask = some after := by rw [runs, Option.bind_some, done]
    exact ⟨.run, after, performed, fun _ => nofun⟩
  have takes {buffer : Buffer} {taken : Nat} (written : session.inFlight = [⟨buffer, taken⟩]) :
      ∃ turn after, session.perform turn = some after ∧ ∀ message, turn ≠ .write message := by
    have first : session.inFlight[0]? = some ⟨buffer, taken⟩ := by rw [written]; rfl
    by_cases all : (session.content buffer).length ≤ taken
    · exact ⟨.complete 0, _, complete_iff.mpr ⟨buffer, taken, first, all, rfl⟩, fun _ => nofun⟩
    · exact ⟨.transfer 0 1, _, transfer_iff.mpr ⟨buffer, taken, first, Nat.one_pos, by omega, rfl⟩, fun _ => nofun⟩
  cases stage with
  | called => exact begins posted running
  | headerTaken => exact begins posted running
  | bodyTaken => exact begins posted running
  | header taken => exact takes inFlight
  | body taken => exact takes inFlight
  | entered => exact goes running ⟨_, rfl⟩
  | checked => exact goes running ⟨_, by rw [runTask, slot]; rfl⟩
  | headed => exact goes running ⟨_, rfl⟩
  | headerDone => exact goes running ⟨_, by rw [runTask, slot]; rfl⟩
  | bodyDone => exact goes running ⟨_, rfl⟩

/-- Steps of the strand and the socket. -/
inductive Finishing : Nat → Outbound → Outbound → Prop where
  | here {session : Outbound} : Finishing 0 session session
  | step {session middle after : Outbound} {count : Nat} (turn : Turn) (strange : ∀ message, turn ≠ .write message)
      (done : session.perform turn = some middle) (rest : Finishing count middle after) : Finishing (count + 1) session after

theorem Work.finishing {count bound : Nat} (work : Work session sent bound) (finishing : Finishing count session after) :
    count ≤ bound ∧ Orderly after sent := by
  induction finishing generalizing bound with
  | here => exact ⟨Nat.zero_le _, work.orderly⟩
  | step turn strange done rest ih =>
    obtain ⟨less, fewer, later⟩ := work.step strange done
    obtain ⟨most, orderly⟩ := ih later
    exact ⟨by omega, orderly⟩

theorem Orderly.socket_prefix (orderly : Orderly session sent) : session.socket <+: frames sent := by
  rcases orderly with idle | ⟨message, stage, busy⟩
  · rw [idle.socket]
  · exact ⟨_, busy.socket⟩

theorem Orderly.inFlight_le (orderly : Orderly session sent) : session.inFlight.length ≤ 1 := by
  rcases orderly with idle | ⟨message, stage, busy⟩
  · rw [idle.inFlight]
    exact Nat.zero_le 1
  · rw [busy.inFlight]
    cases stage with
    | header taken => exact le_rfl
    | body taken => exact le_rfl
    | _ => exact Nat.zero_le 1

theorem Orderly.ended (orderly : Orderly session sent)
    (still : ∀ turn after, session.perform turn = some after → ∃ message, turn = .write message) : Idle session sent := by
  rcases orderly with idle | ⟨message, stage, busy⟩
  · exact idle
  · obtain ⟨turn, after, done, strange⟩ := busy.moves
    obtain ⟨message, same⟩ := still turn after done
    exact absurd same (strange message)

theorem Busy.occupied (busy : Busy session sent message stage) : session.posted ≠ [] ∨ session.running ≠ none ∨ session.inFlight ≠ [] := by
  rw [busy.posted, busy.running, busy.inFlight]
  cases stage with
  | called => exact .inl nofun
  | headerTaken => exact .inl nofun
  | bodyTaken => exact .inl nofun
  | header taken => exact .inr (.inr nofun)
  | body taken => exact .inr (.inr nofun)
  | _ => exact .inr (.inl nofun)

/-- The socket gets the messages in the order in which they were written, each behind its length and once, with at most
one asynchronous write at a time. While neither a handler is waiting or running nor a write is in flight, no message is
queued and all have been sent; and without further writes that comes about after finitely many steps. -/
theorem writes_in_order {turns : List Turn} (reached : Reached turns session) :
    session.socket <+: frames (requested turns) ∧
    session.inFlight.length ≤ 1 ∧
    (session.posted = [] → session.running = none → session.inFlight = [] →
      session.outboundMessage = none ∧ session.outboundMessages = [] ∧ session.socket = frames (requested turns)) ∧
    ∃ bound, ∀ count after, Finishing count session after → count ≤ bound ∧
      ((∀ turn later, after.perform turn = some later → ∃ message, turn = .write message) →
        after.outboundMessages = [] ∧ after.socket = frames (requested turns)) := by
  have orderly := reached_orderly reached
  refine ⟨orderly.socket_prefix, orderly.inFlight_le, fun posted running inFlight => ?_, ?_⟩
  · rcases orderly with idle | ⟨message, stage, busy⟩
    · exact ⟨idle.slot, idle.queue, idle.socket⟩
    · rcases busy.occupied with some | some | some
      · exact absurd posted some
      · exact absurd running some
      · exact absurd inFlight some
  · obtain ⟨bound, work⟩ := orderly.work
    refine ⟨bound, fun count after finishing => ?_⟩
    obtain ⟨most, later⟩ := work.finishing finishing
    exact ⟨most, fun still => ⟨(later.ended still).queue, (later.ended still).socket⟩⟩

/-- Two messages, the second written while the first is in flight. -/
def twoWrites : List Turn := [.write ⟨[7]⟩, .start 0, .run, .run, .run, .transfer 0 3, .write ⟨[8, 9]⟩]

theorem two_writes_in_order : ∃ session, twoWrites.foldlM Outbound.perform {} = some session ∧
    session.socket <+: frames [⟨[7]⟩, ⟨[8, 9]⟩] ∧
    session.inFlight.length ≤ 1 ∧
    (session.posted = [] → session.running = none → session.inFlight = [] →
      session.outboundMessage = none ∧ session.outboundMessages = [] ∧ session.socket = frames [⟨[7]⟩, ⟨[8, 9]⟩]) ∧
    ∃ bound, ∀ count after, Finishing count session after → count ≤ bound ∧
      ((∀ turn later, after.perform turn = some later → ∃ message, turn = .write message) →
        after.outboundMessages = [] ∧ after.socket = frames [⟨[7]⟩, ⟨[8, 9]⟩]) := by
  refine ⟨_, rfl, @writes_in_order _ twoWrites ?_⟩
  exact .step (.step (.step (.step (.step (.step (.step .new (.write ⟨[7]⟩) rfl) (.start 0) rfl) .run rfl) .run rfl) .run rfl)
    (.transfer 0 3) rfl) (.write ⟨[8, 9]⟩) rfl

end OrbiterSDK.Proofs.SessionWrites
