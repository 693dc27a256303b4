import OrbiterSDK.Proofs.BlockBounds
import OrbiterSDK.Proofs.Forwarding
import OrbiterSDK.Proofs.Interleavings

/-! Which messages are handled and which end the program. Only the handlers of new broadcasts catch what is thrown, and
nothing at all catches what is undefined. -/

namespace OrbiterSDK.Proofs.MessageHandling
open Lib P2P Tx Utils TxBounds BlockBounds PeerMessages Forwarding

def typeOf (message : Message) : Nat := bytesToUint (message.rawMessage.take 1)

def idOf (message : Message) : RequestID := .ofBytes ((message.rawMessage.drop 1).take 8)

def commandOf (message : Message) : Nat := bytesToUint ((message.rawMessage.drop 9).take 2)

def dataOf (message : Message) : Bytes := message.rawMessage.drop 11

section Parts
variable {message : Message}

theorem type_eq (some : 0 < message.size) : message.type = if typeOf message ≤ 3 then .ok (.cast (typeOf message)) else .error "Invalid request type." := by
  have inside : Storage.span message.rawMessage 0 1 = .ok (message.rawMessage.take 1) := if_pos some
  have one : (message.rawMessage.take 1).length = 1 := List.length_take_of_le some
  unfold Message.type
  rw [inside]
  change getRequestType (message.rawMessage.take 1) = _
  rw [getRequestType, if_neg (not_not.mpr one)]
  by_cases known : typeOf message ≤ 3
  · rw [if_pos known]
    exact if_neg (Nat.not_lt.mpr known)
  · rw [if_neg known]
    exact if_pos (Nat.lt_of_not_le known)

theorem type_empty (empty : ¬ 0 < message.size) : message.type = .error pastEnd := by
  have outside : Storage.span message.rawMessage 0 1 = .error pastEnd := if_neg empty
  unfold Message.type
  rw [outside]
  rfl

theorem id_eq : message.id = if 9 ≤ message.size then .ok (idOf message) else .error pastEnd := by
  unfold Message.id Storage.span
  by_cases inside : 9 ≤ message.size
  · rw [if_pos (show 1 + 8 ≤ message.rawMessage.length from inside), if_pos inside]
    rfl
  · rw [if_neg (show ¬ 1 + 8 ≤ message.rawMessage.length from inside), if_neg inside]
    rfl

theorem command_eq (long : 11 ≤ message.size) :
    message.command = if commandOf message ≤ 8 then .ok (.cast (commandOf message)) else .error "Invalid command type." := by
  have inside : Storage.span message.rawMessage 9 2 = .ok ((message.rawMessage.drop 9).take 2) := if_pos long
  have two : ((message.rawMessage.drop 9).take 2).length = 2 := by
    rw [List.length_take, List.length_drop]
    have length : 11 ≤ message.rawMessage.length := long
    omega
  unfold Message.command
  rw [inside]
  change getCommandType ((message.rawMessage.drop 9).take 2) = _
  rw [getCommandType, if_neg (not_not.mpr two)]
  by_cases known : commandOf message ≤ 8
  · rw [if_pos known]
    exact if_neg (Nat.not_lt.mpr known)
  · rw [if_neg known]
    exact if_pos (Nat.lt_of_not_le known)

theorem command_short (short : ¬ 11 ≤ message.size) : message.command = .error pastEnd := by
  have outside : Storage.span message.rawMessage 9 2 = .error pastEnd := if_neg short
  unfold Message.command
  rw [outside]
  rfl

theorem data_eq (long : 11 ≤ message.size) : message.message = .ok (dataOf message) := if_pos long

end Parts

/-- Code that returns. -/
def Returns {ε α : Type} (result : Except ε α) : Prop := ∃ value, result = .ok value

section Returning
variable {ε ε' α β : Type} {first : Except ε α} {next : α → Except ε β}

theorem returns_ok (value : α) : Returns (.ok value : Except ε α) := ⟨value, rfl⟩

theorem not_returns_error (what : ε) : ¬ Returns (.error what : Except ε α) := nofun

private theorem returns_of_isOk (ok : first.isOk = true) : Returns first := by
  cases first with
  | ok value => exact returns_ok value
  | error what => cases ok

theorem returns_bind : Returns (first >>= next) ↔ ∃ value, first = .ok value ∧ Returns (next value) := by
  constructor
  · rintro ⟨value, done⟩
    obtain ⟨early, here, done⟩ := bind_ok.mp done
    exact ⟨early, here, value, done⟩
  · rintro ⟨early, here, value, done⟩
    exact ⟨value, bind_ok.mpr ⟨early, here, done⟩⟩

theorem returns_bind_of (always : ∀ value, Returns (next value)) : Returns (first >>= next) ↔ Returns first := by
  apply returns_bind.trans
  constructor
  · rintro ⟨value, done, _⟩
    exact ⟨value, done⟩
  · rintro ⟨value, done⟩
    exact ⟨value, done, always value⟩

theorem returns_mapError {convert : ε → ε'} : Returns (first.mapError convert) ↔ Returns first := by
  cases first with
  | ok value => exact iff_of_true (returns_ok value) (returns_ok value)
  | error what => exact iff_of_false (not_returns_error _) (not_returns_error what)

end Returning

theorem cast_commands {command : Nat} (known : command ≤ 8) :
    (CommandType.cast command = .info ↔ command = 1) ∧
      ((CommandType.cast command ∈ [CommandType.ping, .info, .requestNodes, .requestValidatorTxs, .requestTxs]) ↔ command ≤ 3 ∨ command = 7) := by
  interval_cases command <;> decide

/-- A request whose size is checked is one whose header is there, with a known command. -/
def RequestHandled (message : Message) : Prop :=
  11 ≤ message.size ∧ commandOf message ≤ 8 ∧ (commandOf message = 1 → message.size = 67)

section Requests
variable {World : Type} {setup : Setup World} {manager : ManagerNormal World} {nodeId : NodeID} {message : Message} {epoch : UInt64}

variable {command : CommandType}

/-- Whatever a handler reads of a message with a header is there. -/
theorem command_ok (commanded : message.command = .ok command) :
    11 ≤ message.size ∧ commandOf message ≤ 8 ∧ command = .cast (commandOf message) := by
  by_cases long : 11 ≤ message.size
  · rw [command_eq long] at commanded
    split at commanded
    case isTrue known => exact ⟨long, known, (Except.ok.inj commanded).symm⟩
    case isFalse => cases commanded
  · rw [command_short long] at commanded
    cases commanded

theorem reply_returns {data : Bytes} (long : 11 ≤ message.size) (known : command ≠ .unnamed) :
    Returns (do compose .answering (← message.id) command data) := by
  obtain ⟨reply, built, _⟩ := composed (show RequestType.answering ≠ .unnamed from nofun) known (idOf message) data
  have read : message.id = .ok (idOf message) := id_eq.trans (if_pos (by omega))
  exact ⟨reply, bind_ok.mpr ⟨idOf message, read, built⟩⟩

theorem returns_bare {decode : Message → Except Exception Bool} {answer : Message → Except Exception Message}
    (decodes : Returns (decode message)) (answers : Returns (answer message)) :
    Returns (manager.handleBareRequest decode answer nodeId message) := by
  obtain ⟨right, decoded⟩ := decodes
  obtain ⟨reply, answered⟩ := answers
  unfold ManagerNormal.handleBareRequest
  rw [decoded, answered]
  cases right <;> exact ⟨_, rfl⟩

theorem bare_returns (commanded : Returns message.command) : Returns (RequestDecoder.bare command message) := by
  obtain ⟨found, commanded⟩ := commanded
  unfold RequestDecoder.bare
  rw [commanded]
  split <;> exact ⟨_, rfl⟩

theorem readInfo_returns (size : message.size = 67) : Returns (readInfo message) := by
  have length : (dataOf message).length = 56 := by
    have whole : message.rawMessage.length = 67 := size
    rw [dataOf, List.length_drop, whole]
  unfold readInfo
  rw [data_eq (by omega)]
  simp only [Storage.span, length, bind, Except.bind]
  exact ⟨_, rfl⟩

theorem info_returns (commanded : message.command = .ok .info) : Returns (RequestDecoder.info message) ↔ message.size = 67 := by
  unfold RequestDecoder.info
  by_cases size : message.size = 67
  · rw [if_neg (not_not.mpr size), commanded]
    exact iff_of_true (readInfo_returns size) size
  · rw [if_pos size]
    exact iff_of_false (not_returns_error _) size

theorem request_returns_iff : Returns (manager.handleRequest setup epoch nodeId message) ↔ RequestHandled message := by
  unfold ManagerNormal.handleRequest
  rw [returns_bind]
  constructor
  · rintro ⟨command, commanded, returns⟩
    obtain ⟨long, known, cast⟩ := command_ok commanded
    refine ⟨long, known, fun info => ?_⟩
    have isInfo : command = .info := cast.trans ((cast_commands known).1.mpr info)
    subst isInfo
    obtain ⟨decoded, done, _⟩ := returns_bind.mp returns
    exact (info_returns commanded).mp ⟨decoded, done⟩
  · rintro ⟨long, known, sized⟩
    have commanded : message.command = .ok (.cast (commandOf message)) := (command_eq long).trans (if_pos known)
    refine ⟨_, commanded, ?_⟩
    have reads : Returns message.command := ⟨_, commanded⟩
    have infoSize : CommandType.cast (commandOf message) = .info → message.size = 67 := fun info => sized ((cast_commands known).1.mp info)
    generalize CommandType.cast (commandOf message) = command at commanded infoSize
    cases command with
    | ping => exact returns_bare (bare_returns reads) (reply_returns long nofun)
    | info =>
      obtain ⟨decoded, done⟩ := (info_returns commanded).mpr (infoSize rfl)
      obtain ⟨reply, answered⟩ := @reply_returns message .info (infoBytes setup.version epoch manager.state.latest) long nofun
      refine returns_bind.mpr ⟨decoded, done, returns_bind.mpr ⟨reply, answered, returns_ok _⟩⟩
    | requestNodes => exact returns_bare (bare_returns reads) (reply_returns long nofun)
    | requestValidatorTxs => exact returns_bare (bare_returns reads) (reply_returns long nofun)
    | requestTxs => exact returns_bare (bare_returns reads) (reply_returns long nofun)
    | broadcastValidatorTx | broadcastTx | broadcastBlock | unnamed => exact returns_ok _

end Requests

/-- An answer with a known command, and if the command is one that is asked with, to a request that has no answer yet. -/
def AnswerHandled {World : Type} (manager : ManagerNormal World) (message : Message) : Prop :=
  11 ≤ message.size ∧ commandOf message ≤ 8 ∧ (commandOf message ≤ 3 ∨ commandOf message = 7 →
    ∀ request, manager.requests (idOf message) = some request → request.answer = none)

section Answers
variable {World : Type} {manager : ManagerNormal World} {nodeId : NodeID} {message : Message}

theorem setAnswer_returns_iff {request : Request} : Returns (request.setAnswer message) ↔ request.answer = none := by
  unfold Request.setAnswer
  cases request.answer with
  | none => exact iff_of_true (returns_ok _) rfl
  | some answer => exact iff_of_false (not_returns_error _) (Option.some_ne_none _)

theorem knownAnswer_returns_iff (long : 9 ≤ message.size) : Returns (manager.handleKnownAnswer nodeId message) ↔
    ∀ request, manager.requests (idOf message) = some request → request.answer = none := by
  unfold ManagerNormal.handleKnownAnswer
  rw [id_eq, if_pos long, ok_bind]
  cases manager.requests (idOf message) with
  | none =>
    apply iff_of_true (returns_ok _)
    intro request same
    cases same
  | some request =>
    apply returns_bind.trans
    constructor
    · rintro ⟨_, set, _⟩ other same
      obtain rfl := Option.some.inj same
      exact setAnswer_returns_iff.mp ⟨_, set⟩
    · intro open_
      obtain ⟨answered, set⟩ := setAnswer_returns_iff.mpr (open_ request rfl)
      exact ⟨answered, set, returns_ok _⟩

theorem answer_returns_iff : Returns (manager.handleAnswer nodeId message) ↔ AnswerHandled manager message := by
  unfold ManagerNormal.handleAnswer
  by_cases long : 11 ≤ message.size
  case neg =>
    rw [command_short long]
    exact iff_of_false (not_returns_error _) fun handled => long handled.1
  by_cases known : commandOf message ≤ 8
  case neg =>
    rw [command_eq long, if_neg known]
    exact iff_of_false (not_returns_error _) fun handled => known handled.2.1
  rw [command_eq long, if_pos known]
  have asked := (cast_commands known).2
  have answered := @knownAnswer_returns_iff _ manager nodeId message (by omega)
  have shape : AnswerHandled manager message ↔ (commandOf message ≤ 3 ∨ commandOf message = 7 →
      ∀ request, manager.requests (idOf message) = some request → request.answer = none) :=
    ⟨fun handled => handled.2.2, fun fresh => ⟨long, known, fresh⟩⟩
  rw [shape, ← asked, ok_bind]
  generalize CommandType.cast (commandOf message) = command
  cases command with
  | ping | info | requestNodes | requestValidatorTxs | requestTxs =>
    exact answered.trans ⟨fun fresh _ => fresh, fun fresh => fresh (by decide)⟩
  | broadcastValidatorTx | broadcastTx | broadcastBlock | unnamed =>
    exact iff_of_true (returns_ok _) fun asks => absurd asks (by decide)

end Answers

/-- The consensus can tell whether it takes a transaction: the sender is among the validators that take part, or
there are enough of them, and a second transaction of the sender has a functor to compare, as has the first. -/
def Addable (rdpos : RdPoS) (latest : Block) (tx : TxValidator) : Prop :=
  (∀ entry ∈ rdpos.validatorMempool, entry.1 ≠ tx.hash) → tx.nHeight = latest.nHeight + 1 →
    let turns := (rdpos.minValidators + 1).toNat - 1
    (tx.from ∈ (rdpos.randomList.drop 1).take turns →
      ∀ present, ((rdpos.validatorMempool.map Prod.snd).filter fun value => value.from = tx.from) = [present] →
        4 ≤ present.data.length ∧ 4 ≤ tx.data.length) ∧
    (tx.from ∉ (rdpos.randomList.drop 1).take turns → turns ≤ rdpos.randomList.length - 1)

section Consensus
variable {rdpos : RdPoS} {latest : Block} {tx : TxValidator}

private theorem randomAt_none {i : Nat} (none : rdpos.randomList[i]? = .none) : rdpos.randomAt i = .error pastEnd := by
  simp only [RdPoS.randomAt, none]

private theorem randomAt_some {i : Nat} {validator : Address} (here : rdpos.randomList[i]? = some validator) :
    rdpos.randomAt i = .ok validator := by
  simp only [RdPoS.randomAt, here]

theorem participates_eq (sender : Address) (turns : Nat) : ∀ i, rdpos.participates sender turns i =
    if sender ∈ (rdpos.randomList.drop i).take turns then .ok true
    else if turns ≤ rdpos.randomList.length - i then .ok false
    else .error pastEnd := by
  induction turns with
  | zero => exact fun i => rfl
  | succ turns ih =>
    intro i
    rw [RdPoS.participates]
    cases here : rdpos.randomList[i]? with
    | none =>
      have ended := List.getElem?_eq_none_iff.mp here
      rw [randomAt_none here, List.drop_eq_nil_of_le ended, List.take_nil, if_neg List.not_mem_nil, if_neg (by omega)]
      rfl
    | some validator =>
      obtain ⟨inside, same⟩ := List.getElem?_eq_some_iff.mp here
      rw [randomAt_some here, List.drop_eq_getElem_cons inside, same, List.take_succ_cons]
      change (if sender = validator then pure true else rdpos.participates sender turns (i + 1)) = _
      by_cases found : sender = validator
      · rw [if_pos found, if_pos (found ▸ List.mem_cons_self)]
        rfl
      · have enough : turns + 1 ≤ rdpos.randomList.length - i ↔ turns ≤ rdpos.randomList.length - (i + 1) := by omega
        rw [if_neg found, ih (i + 1)]
        simp only [List.mem_cons, found, false_or, enough]

theorem getFunctor_eq (tx : TxValidator) :
    tx.getFunctor = if 4 ≤ tx.data.length then .ok (Functor.ofBytes (tx.data.take 4)) else .error pastEnd := rfl

theorem addable_iff : rdpos.addValidatorTx latest tx ≠ .error pastEnd ↔ Addable rdpos latest tx := by
  unfold RdPoS.addValidatorTx Addable
  by_cases known : (rdpos.validatorMempool.any fun entry => entry.1 = tx.hash) = true
  · rw [if_pos known]
    obtain ⟨entry, member, same⟩ := List.any_eq_true.mp known
    exact iff_of_true ok_ne_error fun fresh => absurd (of_decide_eq_true same) (fresh entry member)
  have fresh : ∀ entry ∈ rdpos.validatorMempool, entry.1 ≠ tx.hash := fun entry member same =>
    known (List.any_eq_true.mpr ⟨entry, member, decide_eq_true same⟩)
  rw [if_neg known]
  by_cases height : tx.nHeight = latest.nHeight + 1
  case neg =>
    rw [if_pos height]
    exact iff_of_true ok_ne_error fun _ same => absurd same height
  rw [if_neg (not_not.mpr height), participates_eq]
  rw [imp_iff_right fresh, imp_iff_right height]
  dsimp only
  by_cases takesPart : tx.from ∈ (rdpos.randomList.drop 1).take ((rdpos.minValidators + 1).toNat - 1)
  case neg =>
    rw [if_neg takesPart]
    by_cases enough : (rdpos.minValidators + 1).toNat - 1 ≤ rdpos.randomList.length - 1
    · rw [if_pos enough]
      exact iff_of_true ok_ne_error ⟨fun does => absurd does takesPart, fun _ => enough⟩
    · rw [if_neg enough]
      exact iff_of_false (fun inside => inside rfl) fun addable => enough (addable.2 takesPart)
  rw [if_pos takesPart, imp_iff_right takesPart, and_iff_left (absurd takesPart), ok_bind]
  cases (rdpos.validatorMempool.map Prod.snd).filter fun value => value.from = tx.from with
  | nil =>
    apply iff_of_true ok_ne_error
    intro present same
    cases same
  | cons present rest =>
    cases rest with
    | cons second rest =>
      apply iff_of_true ok_ne_error
      intro present same
      cases same
    | nil =>
      have both : (∀ other, [present] = [other] → 4 ≤ other.data.length ∧ 4 ≤ tx.data.length) ↔
          4 ≤ present.data.length ∧ 4 ≤ tx.data.length :=
        ⟨fun each => each present rfl, fun both other same => (List.cons.inj same).1 ▸ both⟩
      rw [both]
      simp only [getFunctor_eq]
      by_cases first : 4 ≤ present.data.length
      case neg =>
        rw [if_neg first]
        exact iff_of_false (fun inside => inside rfl) fun both => first both.1
      by_cases second : 4 ≤ tx.data.length
      case neg =>
        rw [if_pos first, if_neg second]
        exact iff_of_false (fun inside => inside rfl) fun both => second both.2
      rw [if_pos first, if_pos second]
      apply iff_of_true ?_ ⟨first, second⟩
      rw [ok_bind, ok_bind]
      by_cases same : Functor.ofBytes (present.data.take 4) = Functor.ofBytes (tx.data.take 4)
      · rw [if_pos same]
        exact ok_ne_error
      · rw [if_neg same]
        exact ok_ne_error

end Consensus

/-- The data of a broadcast that is new can be decoded without a look behind it. -/
def DataInside {World : Type} (setup : Setup World) (manager : ManagerNormal World) (data : Bytes) : CommandType → Prop
  | .broadcastValidatorTx => Complete (validatorRules data.length) data ∧
    ∀ tx, TxValidator.ofBytes setup.reader.lib setup.reader.sha3 data [] setup.reader.chainId = .ok tx →
      Addable manager.rdpos manager.state.latest tx
  | .broadcastTx => Complete (txRules data.length) data
  | .broadcastBlock => BlockInside setup.reader.lib setup.reader.sha3 setup.reader.chainId data []
  | _ => True

/-- A broadcast is counted already, or has a known command and, if its id is that of its data, data that can be decoded. -/
def BroadcastHandled {World : Type} (setup : Setup World) (manager : ManagerNormal World) (message : Message) : Prop :=
  9 ≤ message.size ∧ (manager.broadcastedMessages (idOf message).toUint64 = 0 →
    11 ≤ message.size ∧ commandOf message ≤ 8 ∧ ((idOf message).toUint64 = FNVHash (dataOf message) →
      DataInside setup manager (dataOf message) (.cast (commandOf message))))

section Broadcasts
variable {World : Type} {setup : Setup World} {manager : ManagerNormal World} {nodeId : NodeID} {message : Message}

theorem caught_returns {stop : Stop} (throws : stop ≠ .deadlock) : Returns (manager.caught stop) := by
  cases stop with
  | exception what => exact returns_ok _
  | deadlock => exact absurd rfl throws

theorem caughtRead_returns_iff {what : Exception} : Returns (manager.caughtRead what) ↔ what ≠ pastEnd := by
  unfold ManagerNormal.caughtRead
  by_cases undefined : what = pastEnd
  · rw [if_pos undefined]
    exact iff_of_false (not_returns_error _) fun other => other undefined
  · rw [if_neg undefined]
    exact iff_of_true (caught_returns nofun) undefined

theorem broadcastData_eq {wrongId : Exception} (typed : message.type = .ok .broadcasting) (long : 11 ≤ message.size)
    (commanded : message.command = .ok command) : BroadcastDecoder.broadcastData wrongId command message =
      if (idOf message).toUint64 = FNVHash (dataOf message) then .ok (dataOf message) else .error wrongId := by
  unfold BroadcastDecoder.broadcastData
  rw [typed, commanded, data_eq long, id_eq, if_pos (by omega)]
  simp only [bind, Except.bind, ne_eq, not_true, if_false]
  by_cases right : (idOf message).toUint64 = FNVHash (dataOf message)
  · rw [if_pos right, if_neg (not_not.mpr right)]
  · rw [if_neg right, if_pos right]
    rfl

/-- Under the right id the data is decoded. What is thrown instead of that is caught. -/
theorem decoding_returns_iff {α : Type} {wrongId : Exception} (construct : Bytes → Except Exception α)
    {result : Except Stop (ManagerNormal.Verdict × ManagerNormal World)} (typed : message.type = .ok .broadcasting) (long : 11 ≤ message.size)
    (commanded : message.command = .ok command) (other : wrongId ≠ pastEnd)
    (fails : ∀ what, BroadcastDecoder.broadcastData wrongId command message >>= construct = .error what → result = manager.caughtRead what) :
    Returns result ↔ ((idOf message).toUint64 = FNVHash (dataOf message) → construct (dataOf message) ≠ .error pastEnd ∧
      ∀ value, BroadcastDecoder.broadcastData wrongId command message >>= construct = .ok value → construct (dataOf message) = .ok value →
        Returns result) := by
  rw [broadcastData_eq typed long commanded] at fails ⊢
  by_cases right : (idOf message).toUint64 = FNVHash (dataOf message)
  case neg =>
    rw [if_neg right] at fails
    rw [fails wrongId rfl]
    exact iff_of_true (caughtRead_returns_iff.mpr other) fun same => absurd same right
  rw [if_pos right] at fails ⊢
  rw [imp_iff_right right]
  cases built : construct (dataOf message) with
  | error what =>
    rw [fails what built, caughtRead_returns_iff]
    exact ⟨fun other => ⟨fun same => other (Except.error.inj same), nofun⟩, fun inside same => inside.1 (congrArg _ same)⟩
  | ok value => exact ⟨fun returns => ⟨nofun, fun _ _ _ => returns⟩, fun inside => inside.2 value built rfl⟩

/-- A block that is validated leaves the state as it is. -/
theorem validateNextBlock_ends (env : Env World) {state : State World} (free : state.stateMutex = .free) (block : Block) :
    ∃ outcome, (State.validateNextBlock env block).eval state = (outcome, state) ∧ outcome ≠ .error .deadlock := by
  rw [BlockRun.eval_validateNextBlock free]
  split
  · cases state.validateTxs block.txs with
    | ok valid => exact ⟨_, rfl, nofun⟩
    | error what => exact ⟨_, rfl, nofun⟩
  · exact ⟨_, rfl, nofun⟩

/-- A block that is processed comes to an end without the lock. -/
theorem processNextBlock_ends (env : Env World) {state : State World} (free : state.stateMutex = .free) (block : Block) :
    ((State.processNextBlock env block).eval state).1 ≠ .error .deadlock ∧
      ((State.processNextBlock env block).eval state).2.stateMutex = .free := by
  have ends := (@Interleavings.ends_iff _ env state free (.operation (.processNextBlock block))).mpr id
  exact ⟨ends, Locks.releases_perform env (.processNextBlock block) free ends⟩

section Decoding
variable (typed : message.type = .ok .broadcasting) (long : 11 ≤ message.size) (edge : setup.reader.past = [])
include typed long edge

theorem validatorTx_returns_iff (commanded : message.command = .ok .broadcastValidatorTx) :
    Returns (manager.handleTxValidatorBroadcast setup message) ↔
      ((idOf message).toUint64 = FNVHash (dataOf message) → DataInside setup manager (dataOf message) .broadcastValidatorTx) := by
  let construct (data : Bytes) := TxValidator.ofBytes setup.reader.lib setup.reader.sha3 data setup.reader.past setup.reader.chainId
  have fails (what) (failed : BroadcastDecoder.broadcastData "Invalid message id." .broadcastValidatorTx message >>= construct = .error what) :
      manager.handleTxValidatorBroadcast setup message = manager.caughtRead what := by
    unfold ManagerNormal.handleTxValidatorBroadcast BroadcastDecoder.broadcastValidatorTx
    rw [failed]
  apply (decoding_returns_iff _ typed long commanded (by decide) fails).trans
  have inside := @validator_inside_iff setup.reader.lib setup.reader.sha3 setup.reader.chainId (dataOf message) []
  rw [List.append_nil] at inside
  apply imp_congr_right
  intro right
  have ends : construct (dataOf message) ≠ .error pastEnd ↔ Complete (validatorRules (dataOf message).length) (dataOf message) := by
    rw [← inside, ← edge]
  apply and_congr ends
  apply forall_congr'
  intro tx
  have added (decoded : BroadcastDecoder.broadcastData "Invalid message id." .broadcastValidatorTx message >>= construct = .ok tx) :
      Returns (manager.handleTxValidatorBroadcast setup message) ↔ Addable manager.rdpos manager.state.latest tx := by
    unfold ManagerNormal.handleTxValidatorBroadcast BroadcastDecoder.broadcastValidatorTx
    rw [decoded, ← addable_iff]
    dsimp only
    cases manager.rdpos.addValidatorTx manager.state.latest tx with
    | error what =>
      apply caughtRead_returns_iff.trans
      exact ⟨fun other same => other (Except.error.inj same), fun other same => other (congrArg _ same)⟩
    | ok answer => exact iff_of_true (returns_ok _) nofun
  have same : BroadcastDecoder.broadcastData "Invalid message id." .broadcastValidatorTx message >>= construct = construct (dataOf message) := by
    rw [broadcastData_eq typed long commanded, if_pos right]
    rfl
  have here : construct (dataOf message) = TxValidator.ofBytes setup.reader.lib setup.reader.sha3 (dataOf message) [] setup.reader.chainId := by
    rw [← edge]
  rw [← here, same]
  constructor
  · exact fun returns built => (added (same.trans built)).mp (returns built built)
  · exact fun addable built _ => (added (same.trans built)).mpr (addable built)

variable (free : manager.state.stateMutex = .free)
include free

theorem tx_returns_iff (commanded : message.command = .ok .broadcastTx) : Returns (manager.handleTxBroadcast setup message) ↔
    ((idOf message).toUint64 = FNVHash (dataOf message) → DataInside setup manager (dataOf message) .broadcastTx) := by
  let construct (data : Bytes) := setup.reader.tx data setup.reader.past
  have fails (what) (failed : BroadcastDecoder.broadcastData "Invalid message id." .broadcastTx message >>= construct = .error what) :
      manager.handleTxBroadcast setup message = manager.caughtRead what := by
    unfold ManagerNormal.handleTxBroadcast BroadcastDecoder.broadcastTx
    rw [failed]
  apply (decoding_returns_iff _ typed long commanded (by decide) fails).trans
  have inside := @tx_inside_iff setup.reader.lib setup.reader.sha3 setup.reader.chainId (dataOf message) []
  rw [List.append_nil] at inside
  apply imp_congr_right
  intro right
  have ends : construct (dataOf message) ≠ .error pastEnd ↔ Complete (txRules (dataOf message).length) (dataOf message) := by
    rw [← inside, ← edge]
    rfl
  apply (and_congr_left' ends).trans
  apply and_iff_left_of_imp
  intro _ tx decoded _
  unfold ManagerNormal.handleTxBroadcast BroadcastDecoder.broadcastTx
  rw [decoded]
  dsimp only
  rw [Locks.eval_addTx free]
  cases manager.state.validateTransactionInternal tx with
  | error what => exact caught_returns nofun
  | ok verdict => exact returns_ok _

theorem block_returns_iff (commanded : message.command = .ok .broadcastBlock) : Returns (manager.handleBlockBroadcast setup message) ↔
    ((idOf message).toUint64 = FNVHash (dataOf message) → DataInside setup manager (dataOf message) .broadcastBlock) := by
  have fails (what) (failed : BroadcastDecoder.broadcastData "Invalid message id. " .broadcastBlock message >>= setup.reader.block = .error what) :
      manager.handleBlockBroadcast setup message = manager.caughtRead what := by
    unfold ManagerNormal.handleBlockBroadcast BroadcastDecoder.broadcastBlock
    rw [failed]
  apply (decoding_returns_iff _ typed long commanded (by decide) fails).trans
  have inside := @block_inside_iff setup.reader.lib setup.reader.sha3 setup.reader.signer setup.reader.chainId (dataOf message) []
  apply imp_congr_right
  intro right
  have ends : setup.reader.block (dataOf message) ≠ .error pastEnd ↔ DataInside setup manager (dataOf message) .broadcastBlock := by
    apply Iff.trans ?_ inside
    rw [← edge]
    rfl
  apply (and_congr_left' ends).trans
  apply and_iff_left_of_imp
  intro _ block decoded _
  unfold ManagerNormal.handleBlockBroadcast BroadcastDecoder.broadcastBlock
  rw [decoded]
  dsimp only
  split
  · exact returns_ok _
  obtain ⟨outcome, checks, ends⟩ := validateNextBlock_ends setup.env free block
  rw [checks]
  rcases outcome with stop | (_ | _)
  · exact caught_returns fun same => ends (congrArg _ same)
  · exact returns_ok _
  · have ends := (processNextBlock_ends setup.env free block).1
    dsimp only
    rcases ran : (State.processNextBlock setup.env block).eval manager.state with ⟨stop | done, state⟩
    · rw [ran] at ends
      exact caught_returns fun same => ends (congrArg _ same)
    · exact returns_ok _

end Decoding

theorem broadcast_returns_iff (typed : message.type = .ok .broadcasting) (edge : setup.reader.past = [])
    (free : manager.state.stateMutex = .free) (started : manager.base.started = true) :
    Returns (manager.handleBroadcast setup nodeId message) ↔ BroadcastHandled setup manager message := by
  unfold ManagerNormal.handleBroadcast
  rw [started, id_eq]
  by_cases some : 9 ≤ message.size
  case neg =>
    rw [if_neg some]
    exact iff_of_false (not_returns_error _) fun handled => some handled.1
  rw [if_pos some]
  change Returns (if 0 < manager.broadcastedMessages (idOf message).toUint64 then
      pure (manager.countAgain (idOf message).toUint64) else manager.handleNewBroadcast setup message >>= _) ↔ _
  by_cases counted : 0 < manager.broadcastedMessages (idOf message).toUint64
  · rw [if_pos counted]
    exact iff_of_true (returns_ok _) ⟨some, fun none => absurd none (Nat.ne_of_gt counted)⟩
  have new : manager.broadcastedMessages (idOf message).toUint64 = 0 := Nat.eq_zero_of_not_pos counted
  have shape : BroadcastHandled setup manager message ↔ 11 ≤ message.size ∧ commandOf message ≤ 8 ∧
      ((idOf message).toUint64 = FNVHash (dataOf message) → DataInside setup manager (dataOf message) (.cast (commandOf message))) :=
    ⟨fun handled => handled.2 new, fun handled => ⟨some, fun _ => handled⟩⟩
  rw [if_neg counted, shape]
  refine (returns_bind_of ?_).trans ?_
  · rintro ⟨verdict, after⟩
    cases verdict <;> exact returns_ok _
  unfold ManagerNormal.handleNewBroadcast
  by_cases long : 11 ≤ message.size
  case neg =>
    rw [command_short long]
    exact iff_of_false (not_returns_error _) fun handled => long handled.1
  by_cases known : commandOf message ≤ 8
  case neg =>
    rw [command_eq long, if_neg known]
    exact iff_of_false (not_returns_error _) fun handled => known handled.2.1
  have commanded : message.command = .ok (.cast (commandOf message)) := (command_eq long).trans (if_pos known)
  rw [and_iff_right long, and_iff_right known, commanded]
  generalize CommandType.cast (commandOf message) = command at commanded
  cases command with
  | broadcastValidatorTx => exact validatorTx_returns_iff typed long edge commanded
  | broadcastTx => exact tx_returns_iff typed long edge free commanded
  | broadcastBlock => exact block_returns_iff typed long edge free commanded
  | ping | info | requestNodes | requestValidatorTxs | requestTxs | unnamed => exact iff_of_true (returns_ok _) fun _ => trivial

end Broadcasts

/-- The messages that a manager handles. While it is not started it looks at none. -/
def Handled {World : Type} (setup : Setup World) (manager : ManagerNormal World) (message : Message) : Prop :=
  manager.base.started = true → 0 < message.size ∧ typeOf message ≤ 3 ∧ (typeOf message = 0 → RequestHandled message) ∧
    (typeOf message = 1 → AnswerHandled manager message) ∧ (typeOf message = 2 → BroadcastHandled setup manager message)

section Messages
variable {World : Type} {setup : Setup World} {manager : ManagerNormal World} {nodeId : NodeID} {message : Message} {epoch : UInt64}

theorem message_returns_iff (edge : setup.reader.past = []) (free : manager.state.stateMutex = .free) :
    Returns (manager.handleMessage setup epoch nodeId message) ↔ Handled setup manager message := by
  unfold ManagerNormal.handleMessage Handled
  by_cases started : manager.base.started = true
  case neg =>
    rw [if_pos (by simpa using started)]
    exact iff_of_true (returns_ok _) fun same => absurd same started
  rw [if_neg (by simpa using started), imp_iff_right started]
  by_cases some : 0 < message.size
  case neg =>
    rw [type_empty some]
    exact iff_of_false (not_returns_error _) fun handled => some handled.1
  by_cases known : typeOf message ≤ 3
  case neg =>
    rw [type_eq some, if_neg known]
    exact iff_of_false (not_returns_error _) fun handled => known handled.2.1
  have typed : message.type = .ok (.cast (typeOf message)) := (type_eq some).trans (if_pos known)
  have broadcast := @broadcast_returns_iff _ setup manager nodeId message
  rw [and_iff_right some, and_iff_right known]
  rw [typed] at broadcast ⊢
  generalize typeOf message = type at known broadcast
  interval_cases type
  · apply (returns_mapError.trans request_returns_iff).trans
    exact ⟨fun handled => ⟨fun _ => handled, nofun, nofun⟩, fun handled => handled.1 rfl⟩
  · apply (returns_mapError.trans answer_returns_iff).trans
    exact ⟨fun handled => ⟨nofun, fun _ => handled, nofun⟩, fun handled => handled.2.1 rfl⟩
  · apply (broadcast rfl edge free started).trans
    exact ⟨fun handled => ⟨nofun, nofun, fun _ => handled⟩, fun handled => handled.2.2 rfl⟩
  · exact iff_of_true (returns_ok _) ⟨nofun, nofun, nofun⟩

end Messages

/-- A message that a thread of the pool gets from a session, at some epoch. -/
structure Delivery where
  currentEpoch : UInt64
  nodeId : NodeID
  message : Message

variable {World : Type} (setup : Setup World)

def deliver : List Delivery → ManagerNormal World → Except Stop (ManagerNormal World)
  | [], manager => .ok manager
  | delivery :: rest, manager => do
    let manager ← manager.handleMessage setup delivery.currentEpoch delivery.nodeId delivery.message
    deliver rest manager

/-- Every message is one that is handled by the manager that it comes to. -/
def AllHandled : List Delivery → ManagerNormal World → Prop
  | [], _ => True
  | delivery :: rest, manager => Handled setup manager delivery.message ∧
    ∀ after, manager.handleMessage setup delivery.currentEpoch delivery.nodeId delivery.message = .ok after → AllHandled rest after

variable {setup} {manager after : ManagerNormal World} {nodeId : NodeID} {message : Message} {epoch : UInt64}

theorem bare_state {decode : Message → Except Exception Bool} {answer : Message → Except Exception Message}
    (does : manager.handleBareRequest decode answer nodeId message = .ok after) : after.state = manager.state := by
  obtain ⟨right, _, does⟩ := bind_ok.mp does
  cases right with
  | false =>
    obtain rfl := Except.ok.inj does
    rfl
  | true =>
    obtain ⟨reply, _, does⟩ := bind_ok.mp does
    obtain rfl := Except.ok.inj does
    rfl

theorem request_state (does : manager.handleRequest setup epoch nodeId message = .ok after) : after.state = manager.state := by
  obtain ⟨command, _, does⟩ := bind_ok.mp does
  cases command with
  | ping | requestNodes | requestValidatorTxs | requestTxs => exact bare_state does
  | info =>
    obtain ⟨_, _, does⟩ := bind_ok.mp does
    obtain ⟨reply, _, does⟩ := bind_ok.mp does
    obtain rfl := Except.ok.inj does
    rfl
  | broadcastValidatorTx | broadcastTx | broadcastBlock | unnamed =>
    obtain rfl := Except.ok.inj does
    rfl

theorem knownAnswer_state (does : manager.handleKnownAnswer nodeId message = .ok after) : after.state = manager.state := by
  obtain ⟨id, _, does⟩ := bind_ok.mp does
  cases known : manager.requests id with
  | none =>
    rw [known] at does
    obtain rfl := Except.ok.inj does
    rfl
  | some request =>
    rw [known] at does
    obtain ⟨request, _, does⟩ := bind_ok.mp does
    obtain rfl := Except.ok.inj does
    rfl

theorem answer_state (does : manager.handleAnswer nodeId message = .ok after) : after.state = manager.state := by
  obtain ⟨command, _, does⟩ := bind_ok.mp does
  cases command with
  | ping | info | requestNodes | requestValidatorTxs | requestTxs => exact knownAnswer_state does
  | broadcastValidatorTx | broadcastTx | broadcastBlock | unnamed =>
    obtain rfl := Except.ok.inj does
    rfl

theorem broadcastMessage_state (id : UInt64) : (manager.broadcastMessage id message).state = manager.state := by
  unfold ManagerNormal.broadcastMessage ManagerNormal.announce
  split
  · rfl
  case _ announced =>
    split at announced
    · cases announced
    · split at announced
      · cases announced
      · obtain rfl := Option.some.inj announced
        rfl

private theorem countAgain_state (id : UInt64) : (manager.countAgain id).state = manager.state := by
  unfold ManagerNormal.countAgain
  split <;> rfl

section Lock
variable {verdict : ManagerNormal.Verdict}

theorem caught_free {state : State World} {stop : Stop} (free : state.stateMutex = .free)
    (does : { manager with state }.caught stop = .ok (verdict, after)) : after.state.stateMutex = .free := by
  obtain ⟨_, rfl⟩ := caught_spec does
  exact free

variable (free : manager.state.stateMutex = .free)
include free

theorem validatorTx_free (does : manager.handleTxValidatorBroadcast setup message = .ok (verdict, after)) : after.state.stateMutex = .free := by
  unfold ManagerNormal.handleTxValidatorBroadcast at does
  split at does
  · exact caught_free free (caught_of_read does)
  · split at does
    · exact caught_free free (caught_of_read does)
    · obtain ⟨_, rfl⟩ := Prod.mk.inj (Except.ok.inj does)
      exact free

theorem tx_free (does : manager.handleTxBroadcast setup message = .ok (verdict, after)) : after.state.stateMutex = .free := by
  unfold ManagerNormal.handleTxBroadcast at does
  split at does
  · exact caught_free free (caught_of_read does)
  case _ tx _ =>
    rw [Locks.eval_addTx free] at does
    cases validated : manager.state.validateTransactionInternal tx with
    | error what =>
      rw [validated] at does
      exact caught_free free does
    | ok valid =>
      rw [validated] at does
      obtain ⟨_, rfl⟩ := Prod.mk.inj (Except.ok.inj does)
      show (if valid = .notInvalid then _ else _ : State World).stateMutex = .free
      split <;> exact free

theorem block_free (does : manager.handleBlockBroadcast setup message = .ok (verdict, after)) : after.state.stateMutex = .free := by
  unfold ManagerNormal.handleBlockBroadcast at does
  split at does
  · exact caught_free free (caught_of_read does)
  case _ block _ =>
    split at does
    · obtain ⟨_, rfl⟩ := Prod.mk.inj (Except.ok.inj does)
      exact free
    obtain ⟨outcome, checks, _⟩ := validateNextBlock_ends setup.env free block
    rw [checks] at does
    match outcome with
    | .error stop => exact caught_free free does
    | .ok false =>
      obtain ⟨_, rfl⟩ := Prod.mk.inj (Except.ok.inj does)
      exact free
    | .ok true =>
      have released := (processNextBlock_ends setup.env free block).2
      dsimp only at does
      rcases ran : (State.processNextBlock setup.env block).eval manager.state with ⟨stop | done, state⟩
      · rw [ran] at does released
        exact caught_free released does
      · rw [ran] at does released
        obtain ⟨_, rfl⟩ := Prod.mk.inj (Except.ok.inj does)
        exact released

theorem broadcast_free (does : manager.handleBroadcast setup nodeId message = .ok after) : after.state.stateMutex = .free := by
  unfold ManagerNormal.handleBroadcast at does
  split at does
  case isTrue =>
    obtain rfl := Except.ok.inj does
    exact free
  case isFalse =>
    obtain ⟨id, _, does⟩ := bind_ok.mp does
    split at does
    case isTrue =>
      obtain rfl := Except.ok.inj does
      rw [countAgain_state]
      exact free
    case isFalse =>
      obtain ⟨⟨verdict, decided⟩, handled, does⟩ := bind_ok.mp does
      have kept : decided.state.stateMutex = .free := by
        unfold ManagerNormal.handleNewBroadcast at handled
        split at handled
        · cases handled
        · exact validatorTx_free free handled
        · exact tx_free free handled
        · exact block_free free handled
        · obtain ⟨_, rfl⟩ := Prod.mk.inj (Except.ok.inj handled)
          exact free
      cases verdict with
      | rebroadcast =>
        obtain rfl := Except.ok.inj does
        rw [broadcastMessage_state]
        exact kept
      | keep | disconnect =>
        obtain rfl := Except.ok.inj does
        exact kept

theorem message_free (does : manager.handleMessage setup epoch nodeId message = .ok after) : after.state.stateMutex = .free := by
  unfold ManagerNormal.handleMessage at does
  split at does
  case isTrue =>
    obtain rfl := Except.ok.inj does
    exact free
  case isFalse =>
    obtain ⟨type, _, does⟩ := bind_ok.mp does
    cases type with
    | requesting =>
      rw [request_state (mapError_ok.mp does)]
      exact free
    | answering =>
      rw [answer_state (mapError_ok.mp does)]
      exact free
    | broadcasting => exact broadcast_free free does
    | unnamed =>
      obtain rfl := Except.ok.inj does
      exact free

end Lock

/-- A run of messages comes to its end exactly if each of them is handled. Nothing is readable behind a message, and
no thread is inside of the state. -/
theorem messages_return_iff (edge : setup.reader.past = []) (deliveries : List Delivery) (free : manager.state.stateMutex = .free) :
    Returns (deliver setup deliveries manager) ↔ AllHandled setup deliveries manager := by
  induction deliveries generalizing manager with
  | nil => exact iff_of_true (returns_ok _) trivial
  | cons delivery rest ih =>
    have handles := @message_returns_iff _ setup manager delivery.nodeId delivery.message delivery.currentEpoch edge free
    apply returns_bind.trans
    constructor
    · rintro ⟨after, does, returns⟩
      refine ⟨handles.mp ⟨after, does⟩, fun other same => ?_⟩
      obtain rfl := Except.ok.inj (does.symm.trans same)
      exact (ih (message_free free does)).mp returns
    · rintro ⟨handled, later⟩
      obtain ⟨after, does⟩ := handles.mpr handled
      exact ⟨after, does, (ih (message_free free does)).mpr (later after does)⟩

def startedNode : ManagerNormal Unit := { base := { started := true }, state := richState, rdpos := noConsensus }

def sent (rawMessage : Bytes) : Delivery := ⟨0, (.v4 7, 50000), ⟨rawMessage⟩⟩

/-- The rest of a header with a command. -/
def header (command : UInt8) : Bytes := [0, 0, 0, 0, 0, 0, 0, 0, 0, command]

/-- A request of each kind that needs no data, an answer that was not asked for, the number after the last type, a
broadcast under a wrong id, and then again. -/
def strayMessages : List Delivery :=
  [sent (0 :: header 0), sent (0 :: header 2), sent (0 :: header 7), sent (0 :: header 6), sent (1 :: header 0), sent [3],
    sent (2 :: header 5), sent (2 :: header 5)]

theorem stray_messages_are_handled : Returns (deliver plainSetup strayMessages startedNode) ∧
    AllHandled plainSetup strayMessages startedNode := by
  have returns : Returns (deliver plainSetup strayMessages startedNode) := returns_of_isOk (by decide)
  exact ⟨returns, (messages_return_iff rfl strayMessages rfl).mp returns⟩

/-- Without data a request for information is refused by an exception that nothing catches. -/
theorem info_request_without_data_escapes : ¬ ∀ (manager : ManagerNormal Unit) (deliveries : List Delivery), manager.state.stateMutex = .free →
    Returns (deliver plainSetup deliveries manager) := by
  intro always
  obtain ⟨after, returns⟩ := always startedNode [sent (0 :: header 1)] rfl
  cases returns

end OrbiterSDK.Proofs.MessageHandling
