import OrbiterSDK.Proofs.MessageHandling

/-! How far the decoders of answers read. It is the whole data that is compared with the size of a record, so the
last one can be cut off. -/

namespace OrbiterSDK.Proofs.AnswerBounds
open Lib P2P Tx Utils TxBounds BlockBounds MessageHandling

/-- The byte that tells how long an address is. -/
def ipVersionOf (data : Bytes) (index : Nat) : Nat := bytesToUint ((data.drop (index + 1)).take 1)

/-- Every node that is read lies in the data. There are no more of them than bytes. -/
def NodesInside (data : Bytes) : Nat → Nat → Prop
  | 0, _ => True
  | fuel + 1, index => index < data.length → 8 ≤ data.length →
      index + 2 ≤ data.length ∧
      (ipVersionOf data index = 0 → index + 8 ≤ data.length ∧ NodesInside data fuel (index + 8)) ∧
      (ipVersionOf data index = 1 → index + 20 ≤ data.length ∧ NodesInside data fuel (index + 20))

/-- Every transaction that is read lies in the data, and its items do. -/
def TxsInside (data : Bytes) (rules : Nat → List (Rule UInt8)) (accepts : Bytes → Bytes → Bool) : Nat → Nat → Prop
  | 0, _ => True
  | fuel + 1, index => index < data.length → 4 ≤ data.length →
      index + 4 ≤ data.length ∧ (sizeOf data index ≤ data.length →
        let size := sizeOf data index
        let start := index + 4
        start + size ≤ data.length ∧ Complete (rules size) (data.drop start) ∧
        (accepts ((data.drop start).take size) (data.drop (start + size)) = true →
          TxsInside data rules accepts fuel (start + size)))

section Records
variable {data : Bytes} {index : Nat}

theorem span_inside {size : Nat} (inside : index + size ≤ data.length) :
    Storage.span data index size = .ok ((data.drop index).take size) := if_pos inside

theorem span_outside {size : Nat} (outside : ¬ index + size ≤ data.length) : Storage.span data index size = .error pastEnd :=
  if_neg outside

theorem address_inside_iff {α : Type} {width : Nat} {next : Bytes → Bytes → Except Exception α} {later : Prop}
    (ends : ∀ address port, next address port ≠ .error pastEnd ↔ later) :
    (do
      let address ← Storage.span data index width
      let port ← Storage.span data (index + width) 2
      next address port) ≠ .error pastEnd ↔ index + width + 2 ≤ data.length ∧ later := by
  by_cases whole : index + width + 2 ≤ data.length
  · rw [span_inside (by omega), span_inside whole]
    exact (ends _ _).trans (and_iff_right whole).symm
  · refine iff_of_false (fun inside => inside ?_) fun inside => whole inside.1
    by_cases address : index + width ≤ data.length
    · rw [span_inside address, span_outside whole]
      rfl
    · rw [span_outside address]
      rfl

theorem readNodes_inside_iff : ∀ {fuel index : Nat} {nodes : List (NodeID × NodeType)}, data.length ≤ index + fuel →
    (AnswerDecoder.readNodes data index nodes ≠ .error pastEnd ↔ NodesInside data fuel index) := by
  intro fuel
  induction fuel with
  | zero =>
    intro index nodes ended
    rw [AnswerDecoder.readNodes, if_neg (by omega)]
    exact iff_of_true ok_ne_error trivial
  | succ fuel ih =>
    intro index nodes left
    rw [AnswerDecoder.readNodes, NodesInside]
    by_cases more : index < data.length
    case neg =>
      rw [if_neg more]
      exact iff_of_true ok_ne_error fun inside => absurd inside more
    by_cases enough : 8 ≤ data.length
    case neg =>
      rw [if_pos more, if_pos (by omega)]
      refine iff_of_true ?_ fun _ inside => absurd inside enough
      exact fun same => absurd (Except.error.inj same) (by decide)
    rw [if_pos more, if_neg (by omega)]
    simp only [more, enough, true_implies]
    by_cases header : index + 2 ≤ data.length
    case neg =>
      rw [span_inside (by omega), span_outside (by omega)]
      exact iff_of_false (fun inside => inside rfl) fun inside => header inside.1
    rw [span_inside (by omega), span_inside (by omega)]
    simp only [header, true_and]
    change (if ipVersionOf data index = 0 then _ else if ipVersionOf data index = 1 then _ else _) ≠ _ ↔ _
    by_cases fourth : ipVersionOf data index = 0
    · simp only [fourth, if_true, true_implies, Nat.zero_ne_one, false_implies, and_true]
      exact address_inside_iff fun _ _ => ih (by omega)
    by_cases sixth : ipVersionOf data index = 1
    · simp only [sixth, if_true, if_false, true_implies, Nat.one_ne_zero, false_implies, true_and]
      exact address_inside_iff fun _ _ => ih (by omega)
    rw [if_neg fourth, if_neg sixth]
    refine iff_of_true ?_ ⟨fun same => absurd same fourth, fun same => absurd same sixth⟩
    exact fun same => absurd (Except.error.inj same) (by decide)

variable {α : Type} {construct : Bytes → Bytes → Except Exception α} {rules : Nat → List (Rule UInt8)}

theorem readTxs_inside_iff (confined : ∀ span behind, construct span behind ≠ .error pastEnd ↔ Complete (rules span.length) (span ++ behind)) :
    ∀ {fuel index : Nat}, data.length ≤ index + fuel →
      (AnswerDecoder.readTxs construct data index ≠ .error pastEnd ↔
        TxsInside data rules (fun span behind => (construct span behind).isOk) fuel index) := by
  intro fuel
  induction fuel with
  | zero =>
    intro index ended
    rw [AnswerDecoder.readTxs, if_neg (by omega)]
    exact iff_of_true ok_ne_error trivial
  | succ fuel ih =>
    intro index left
    have refused {β : Type} : (.error "Invalid data size." : Except Exception β) ≠ .error pastEnd :=
      fun same => absurd (Except.error.inj same) (by decide)
    rw [AnswerDecoder.readTxs, TxsInside]
    by_cases more : index < data.length
    case neg =>
      rw [if_neg more]
      exact iff_of_true ok_ne_error fun inside => absurd inside more
    by_cases enough : 4 ≤ data.length
    case neg =>
      rw [if_pos more, if_pos (by omega)]
      exact iff_of_true refused fun _ inside => absurd inside enough
    rw [if_pos more, if_neg (by omega)]
    simp only [more, enough, true_implies]
    by_cases sized : index + 4 ≤ data.length
    case neg =>
      rw [sizeAt_outside (Nat.lt_of_not_le sized)]
      exact iff_of_false (fun inside => inside rfl) fun inside => sized inside.1
    rw [sizeAt_inside sized, and_iff_right sized]
    generalize sizeOf data index = size
    change (if data.length < size then _ else _) ≠ _ ↔ _
    by_cases small : size ≤ data.length
    case neg =>
      rw [if_pos (by omega)]
      exact iff_of_true refused fun inside => absurd inside small
    rw [if_neg (by omega)]
    simp only [small, true_implies]
    by_cases spans : index + 4 + size ≤ data.length
    case neg =>
      have outside : Block.constructAt data construct (index + 4) size = .error pastEnd := if_neg spans
      rw [outside]
      exact iff_of_false (fun inside => inside rfl) fun inside => spans inside.1
    have length : ((data.drop (index + 4)).take size).length = size := by
      rw [List.length_take, List.length_drop]
      omega
    have whole : (data.drop (index + 4)).take size ++ data.drop (index + 4 + size) = data.drop (index + 4) := by
      rw [← @List.drop_drop _ size (index + 4), List.take_append_drop]
    have inside := confined ((data.drop (index + 4)).take size) (data.drop (index + 4 + size))
    rw [length, whole] at inside
    rw [constructAt_inside spans, ← inside, and_iff_right spans]
    cases built : construct ((data.drop (index + 4)).take size) (data.drop (index + 4 + size)) with
    | error what =>
      constructor
      · exact fun inside => ⟨fun same => inside (congrArg _ (Except.error.inj same)), fun accepted => absurd accepted Bool.false_ne_true⟩
      · exact fun inside same => inside.1 (congrArg _ (Except.error.inj same))
    | ok value =>
      have later := @ih (index + 4 + size) (by omega)
      have shape : (AnswerDecoder.readTxs construct data (index + 4 + size) >>= fun values => pure (value :: values)) ≠ .error pastEnd ↔
          AnswerDecoder.readTxs construct data (index + 4 + size) ≠ .error pastEnd := by
        cases AnswerDecoder.readTxs construct data (index + 4 + size) with
        | error what => exact ⟨fun other same => other (congrArg _ (Except.error.inj same)), fun other same => other (congrArg _ (Except.error.inj same))⟩
        | ok values => exact iff_of_true ok_ne_error ok_ne_error
      refine shape.trans (later.trans ?_)
      exact ⟨fun inside => ⟨ok_ne_error, fun _ => inside⟩, fun inside => inside.2 rfl⟩

end Records

/-- An answer to a command, by its number. -/
def Answers (command : Nat) (message : Message) : Prop := typeOf message = 1 ∧ commandOf message = command

variable {message : Message} {reader : BlockReader}

private theorem cast_answering (type : Nat) : RequestType.cast type = .answering ↔ type = 1 := by
  rcases type with _ | _ | _ | type <;> simp [RequestType.cast]

private theorem ctorIdx_lt {command : CommandType} (known : command ≠ .unnamed) : command.ctorIdx < 8 := by
  cases command with
  | unnamed => exact absurd rfl known
  | _ => decide

private theorem cast_command {command : CommandType} (known : command ≠ .unnamed) {number : Nat} (named : number ≤ 8) :
    CommandType.cast number = command ↔ number = command.ctorIdx := by
  cases command with
  | unnamed => exact absurd rfl known
  | _ => interval_cases number <;> decide

/-- The header is there, so what is refused is refused by what it says. -/
theorem answerData_eq (long : 11 ≤ message.size) (command : CommandType) (known : command ≠ .unnamed) :
    Answers command.ctorIdx message ∧ AnswerDecoder.answerData command message = .ok (dataOf message) ∨
      ¬ Answers command.ctorIdx message ∧
        ∃ what, AnswerDecoder.answerData command message = .error what ∧ what ≠ pastEnd := by
  unfold AnswerDecoder.answerData Answers
  rw [type_eq (by omega), command_eq long, data_eq long]
  by_cases typed : typeOf message ≤ 3
  case neg =>
    rw [if_neg typed]
    exact .inr ⟨by omega, _, rfl, by decide⟩
  rw [if_pos typed]
  by_cases answering : typeOf message = 1
  case neg =>
    have cast := mt (cast_answering (typeOf message)).mp answering
    refine .inr ⟨fun answers => answering answers.1, "Invalid message type.", ?_, by decide⟩
    change (if RequestType.cast (typeOf message) ≠ .answering then _ else _) = _
    rw [if_pos cast]
    rfl
  have cast := (cast_answering (typeOf message)).mpr answering
  change _ ∧ (if RequestType.cast (typeOf message) ≠ .answering then _ else _) = _ ∨
    _ ∧ ∃ what, (if RequestType.cast (typeOf message) ≠ .answering then _ else _) = _ ∧ _
  rw [if_neg (not_not.mpr cast)]
  by_cases named : commandOf message ≤ 8
  case neg =>
    rw [if_neg named]
    refine .inr ⟨fun answers => ?_, _, rfl, by decide⟩
    have := ctorIdx_lt known
    have := answers.2
    omega
  rw [if_pos named]
  have same := cast_command known named
  change _ ∧ (if CommandType.cast (commandOf message) ≠ command then _ else _) = _ ∨
    _ ∧ ∃ what, (if CommandType.cast (commandOf message) ≠ command then _ else _) = _ ∧ _
  by_cases asked : commandOf message = command.ctorIdx
  · rw [if_neg (not_not.mpr (same.mpr asked))]
    exact .inl ⟨⟨answering, asked⟩, rfl⟩
  · rw [if_pos (mt same.mp asked)]
    exact .inr ⟨fun answers => asked answers.2, _, rfl, by decide⟩

/-- A decoder of an answer reads inside exactly if it does so on the data of one. -/
theorem decoder_inside_iff {α : Type} {decode : Bytes → Except Exception α} {inside : Prop} (long : 11 ≤ message.size)
    (command : CommandType) (known : command ≠ .unnamed) (decodes : decode (dataOf message) ≠ .error pastEnd ↔ inside) :
    (AnswerDecoder.answerData command message >>= decode) ≠ .error pastEnd ↔ (Answers command.ctorIdx message → inside) := by
  rcases answerData_eq long command known with ⟨answers, read⟩ | ⟨other, what, refused, inner⟩
  · rw [read, forall_prop_of_true answers]
    exact decodes
  · rw [refused]
    exact iff_of_true (fun same => inner (Except.error.inj same)) fun answers => absurd answers other

theorem readInfo_inside_iff (long : 11 ≤ message.size) : readInfo message ≠ .error pastEnd ↔ 67 ≤ message.size := by
  have length : (dataOf message).length = message.size - 11 := List.length_drop
  unfold readInfo
  rw [data_eq long]
  by_cases whole : 67 ≤ message.size
  · refine iff_of_true ?_ whole
    have first : Storage.span (dataOf message) 0 8 = .ok _ := span_inside (by omega)
    have second : Storage.span (dataOf message) 8 8 = .ok _ := span_inside (by omega)
    have third : Storage.span (dataOf message) 16 8 = .ok _ := span_inside (by omega)
    have fourth : Storage.span (dataOf message) 24 32 = .ok _ := span_inside (by omega)
    simp [first, second, third, fourth, bind, Except.bind, pure, Except.pure]
  · refine iff_of_false (fun inside => inside ?_) whole
    have last : Storage.span (dataOf message) 24 32 = .error pastEnd := span_outside (by omega)
    have either : ∀ start, Storage.span (dataOf message) start 8 = .error pastEnd ∨ ∃ part, Storage.span (dataOf message) start 8 = .ok part := by
      intro start
      by_cases inside : start + 8 ≤ (dataOf message).length
      · exact .inr ⟨_, span_inside inside⟩
      · exact .inl (span_outside inside)
    rcases either 0 with first | ⟨_, first⟩
    · simp [first, bind, Except.bind]
    rcases either 8 with second | ⟨_, second⟩
    · simp [first, second, bind, Except.bind]
    rcases either 16 with third | ⟨_, third⟩
    · simp [first, second, third, bind, Except.bind]
    simp [first, second, third, last, bind, Except.bind]

/-- Every decoder of an answer, on every message that there can be. -/
theorem answer_decoders_inside_iff (built : Message.ofRaw message.rawMessage = .ok message) (edge : reader.past = []) :
    (AnswerDecoder.info message ≠ .error pastEnd ↔ (Answers 1 message → 67 ≤ message.size)) ∧
    (AnswerDecoder.requestNodes message ≠ .error pastEnd ↔
      (Answers 2 message → NodesInside (dataOf message) (dataOf message).length 0)) ∧
    (AnswerDecoder.requestValidatorTxs reader message ≠ .error pastEnd ↔
      (Answers 3 message → TxsInside (dataOf message) validatorRules
        (fun span behind => (TxValidator.ofBytes reader.lib reader.sha3 span behind reader.chainId).isOk) (dataOf message).length 0)) ∧
    (AnswerDecoder.requestTxs reader message ≠ .error pastEnd ↔
      (Answers 7 message → TxsInside (dataOf message) txRules
        (fun span behind => (TxBlock.ofBytes reader.lib reader.sha3 span behind reader.chainId).isOk) (dataOf message).length 0)) := by
  have long : 11 ≤ message.size := by
    by_contra short
    have refused : Message.ofRaw message.rawMessage = .error "Invalid message size." := if_pos (Nat.lt_of_not_le short)
    cases refused.symm.trans built
  refine ⟨?_, ?_, ?_, ?_⟩
  · exact decoder_inside_iff long .info (by decide) (readInfo_inside_iff long)
  · exact decoder_inside_iff long .requestNodes (by decide) (readNodes_inside_iff (by omega))
  · apply decoder_inside_iff long .requestValidatorTxs (by decide)
    simp only [edge, List.append_nil]
    exact readTxs_inside_iff (fun _ _ => validator_inside_iff) (by omega)
  · apply decoder_inside_iff long .requestTxs (by decide)
    simp only [edge, List.append_nil]
    exact readTxs_inside_iff (fun _ _ => tx_inside_iff) (by omega)

/-- An answer with a node at an IPv4 address and one at an IPv6 address. -/
def twoNodes : Message := ⟨[1, 0, 0, 0, 0, 0, 0, 0, 0, 0, 2,
  0, 0, 127, 0, 0, 1, 0, 80,
  1, 1, 0, 0, 0, 0, 0, 0, 0, 0, 0, 0, 0, 0, 0, 0, 0, 1, 0, 81]⟩

theorem two_nodes_are_read_inside : AnswerDecoder.requestNodes twoNodes ≠ .error pastEnd := by
  refine (@answer_decoders_inside_iff twoNodes (PeerMessages.oneKeyReader []) rfl rfl).2.1.mpr fun _ _ _ => ⟨by decide, fun _ => ⟨by decide, ?_⟩, ?_⟩
  · -- the second record begins where the first ends
    intro _ _
    refine ⟨by decide, fun other => absurd other (by decide), fun _ => ⟨by decide, ?_⟩⟩
    exact fun more => absurd more (by decide)
  · exact fun other => absurd other (by decide)

/-- A node and one byte of another. -/
theorem cut_off_node_is_read_past : ¬ ∀ (message : Message) (reader : BlockReader), Message.ofRaw message.rawMessage = .ok message →
    reader.past = [] → AnswerDecoder.info message ≠ .error pastEnd ∧ AnswerDecoder.requestNodes message ≠ .error pastEnd ∧
      AnswerDecoder.requestValidatorTxs reader message ≠ .error pastEnd ∧ AnswerDecoder.requestTxs reader message ≠ .error pastEnd := by
  intro inside
  have nodes := (inside ⟨[1, 0, 0, 0, 0, 0, 0, 0, 0, 0, 2, 0, 0, 127, 0, 0, 1, 0, 80, 0]⟩ (PeerMessages.oneKeyReader []) rfl rfl).2.1
  have read := (decoder_inside_iff (by decide) .requestNodes (by decide) (readNodes_inside_iff (le_of_eq (Nat.zero_add _).symm))).mp nodes
  have records := read ⟨by decide, by decide⟩ (by decide) (by decide)
  have second := (records.2.1 (by decide)).2 (by decide) (by decide)
  exact absurd second.1 (by decide)

end OrbiterSDK.Proofs.AnswerBounds
