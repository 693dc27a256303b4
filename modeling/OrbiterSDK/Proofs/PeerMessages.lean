import OrbiterSDK.P2P.Encoding
import OrbiterSDK.Proofs.BlockRoundTrip
import OrbiterSDK.Proofs.BlockShapes

/-! Answers and broadcasts after a round trip over their bytes. -/

namespace OrbiterSDK.Proofs.PeerMessages
open Lib Utils ByteStrings ChainIds BlockEntries BlockRoundTrip TxRoundTrip P2P

section Parts
variable {data before part after : Bytes} {start size : Nat}

theorem span_at (here : data = before ++ (part ++ after)) (place : before.length = start) (length : part.length = size) :
    Storage.span data start size = .ok part := by
  have inside : start + size ≤ data.length := by
    rw [here, List.length_append, List.length_append]
    omega
  rw [Storage.span, if_pos inside, here, List.drop_left' place, List.take_left' length]

theorem four_spans {first second third fourth : Bytes} {k l m n : Nat}
    (here : data = before ++ (first ++ (second ++ (third ++ (fourth ++ after)))))
    (one : first.length = k) (two : second.length = l) (three : third.length = m) (four : fourth.length = n) :
    Storage.span data before.length k = .ok first ∧ Storage.span data (before.length + k) l = .ok second ∧
      Storage.span data (before.length + k + l) m = .ok third ∧ Storage.span data (before.length + k + l + m) n = .ok fourth := by
  have later : data = (before ++ first) ++ (second ++ (third ++ (fourth ++ after))) := here.trans (List.append_assoc _ _ _).symm
  have third' : data = (before ++ first ++ second) ++ (third ++ (fourth ++ after)) := later.trans (List.append_assoc _ _ _).symm
  have last : data = (before ++ first ++ second ++ third) ++ (fourth ++ after) := third'.trans (List.append_assoc _ _ _).symm
  refine ⟨span_at here rfl one, span_at later ?_ two, span_at third' ?_ three, span_at last ?_ four⟩
  all_goals simp only [List.length_append, one, two, three]

end Parts

private theorem requestID_get_length (id : RequestID) : id.get.length = 8 := uintToBytes_length 8 _

private theorem requestID_ofBytes_get (id : RequestID) : RequestID.ofBytes id.get = id := by
  have power : (2 : Nat) ^ 64 = 256 ^ 8 := by norm_num
  exact bitVec_ofBytes power id

/-- A message that is read as these parts. -/
structure Composed (message : Message) (type : RequestType) (id : RequestID) (command : CommandType) (data : Bytes) : Prop where
  type : message.type = .ok type
  id : message.id = .ok id
  command : message.command = .ok command
  data : message.message = .ok data

theorem type_read {type : RequestType} (named : type ≠ .unnamed) : (getRequestTypePrefix type).length = 1 ∧
    getRequestType (getRequestTypePrefix type) = .ok type := by
  cases type with
  | unnamed => exact absurd rfl named
  | _ => exact ⟨rfl, rfl⟩

theorem command_read {command : CommandType} (named : command ≠ .unnamed) : (getCommandPrefix command).length = 2 ∧
    getCommandType (getCommandPrefix command) = .ok command := by
  cases command with
  | unnamed => exact absurd rfl named
  | _ => exact ⟨rfl, by decide +kernel⟩

theorem composed {type : RequestType} {command : CommandType} (named : type ≠ .unnamed) (known : command ≠ .unnamed) (id : RequestID)
    (data : Bytes) : ∃ message, compose type id command data = .ok message ∧ Composed message type id command data := by
  obtain ⟨one, isType⟩ := type_read named
  obtain ⟨two, isCommand⟩ := command_read known
  have eight := requestID_get_length id
  have header : (getRequestTypePrefix type ++ id.get ++ getCommandPrefix command).length = 11 := by
    rw [List.length_append, List.length_append, one, eight, two]
  have long : ¬ (getRequestTypePrefix type ++ id.get ++ getCommandPrefix command ++ data).length < 11 := by
    rw [List.length_append, header]
    omega
  refine ⟨⟨_⟩, if_neg long, ?_, ?_, ?_, ?_⟩
  · refine bind_ok.mpr ⟨_, @span_at _ [] _ _ _ _ ((List.append_assoc _ _ _).trans (List.append_assoc _ _ _)) rfl one, isType⟩
  · refine bind_ok.mpr ⟨_, span_at ((List.append_assoc _ _ _).trans (List.append_assoc _ _ _)) one eight,
      congrArg Except.ok (requestID_ofBytes_get id)⟩
  · refine bind_ok.mpr ⟨_, span_at (List.append_assoc _ _ _) ?_ two, isCommand⟩
    rw [List.length_append, one, eight]
  · rw [Message.message, if_pos (not_lt.mp long), List.drop_left' header]

theorem request_id {raw : Bytes} {request : Message} (built : Message.ofRaw raw = .ok request) : ∃ id, request.id = .ok id := by
  unfold Message.ofRaw at built
  split at built
  · cases built
  case isFalse long =>
    cases built
    have inside : 1 + 8 ≤ raw.length := by omega
    exact ⟨_, bind_ok.mpr ⟨_, if_pos inside, rfl⟩⟩

/-- What an answer to a request is read from is what was put into it. -/
theorem answer_read {raw : Bytes} {request : Message} {command : CommandType} {β : Type} (built : Message.ofRaw raw = .ok request)
    (known : command ≠ .unnamed) (data : Bytes) (read : Bytes → Except Exception β) :
    ((request.id >>= fun id => compose .answering id command data) >>= fun message =>
      AnswerDecoder.answerData command message >>= read) = read data := by
  obtain ⟨id, identified⟩ := request_id built
  obtain ⟨message, encoded, parts⟩ := @composed .answering command (by decide) known id data
  rw [identified, ok_bind, encoded, ok_bind]
  unfold AnswerDecoder.answerData
  simp only [parts.type, parts.command, parts.data, ne_eq, not_true, if_false, bind, Except.bind]

/-- What is left of a node: an interface is not written. -/
def withoutScope (node : NodeID × NodeType) : NodeID × NodeType :=
  match node with
  | ((.v4 address, port), type) => ((.v4 address, port), type)
  | ((.v6 address _, port), type) => ((.v6 address 0, port), type)

theorem nodeType_read (type : NodeType) : NodeType.ofByte (.ofNat (bytesToUint [type.value])) = type := by
  rw [bytesToUint_singleton, UInt8.ofNat_toNat]
  cases type with
  | unnamed byte other => rw [NodeType.value, NodeType.ofByte, dif_pos other]
  | _ => rfl

private theorem port_read (port : UInt16) : UInt16.ofNat (bytesToUint (uintToBytes 2 port.toNat)) = port := by
  rw [bytesToUint_uintToBytes port.toNat_lt, UInt16.ofNat_toNat]

private theorem v4_read (address : BitVec 32) : BitVec.ofNat 32 (bytesToUint (uintToBytes 4 address.toNat)) = address := by
  have power : (2 : Nat) ^ 32 = 256 ^ 4 := by norm_num
  exact bitVec_ofBytes power address

theorem v6_read (address : BitVec 128) : BitVec.ofNat 128 (bytesToUint (uintToBytes 16 address.toNat)) = address := by
  have power : (2 : Nat) ^ 128 = 256 ^ 16 := by norm_num
  exact bitVec_ofBytes power address

section Nodes
variable {data before after : Bytes} {nodes : List (NodeID × NodeType)}

theorem readNodes_record (node : NodeID × NodeType) (here : data = before ++ (nodeRecord node ++ after)) :
    AnswerDecoder.readNodes data before.length nodes =
      AnswerDecoder.readNodes data (before ++ nodeRecord node).length (insertNode nodes (withoutScope node)) := by
  obtain ⟨⟨address, port⟩, type⟩ := node
  have two := uintToBytes_length 2 port.toNat
  have none : bytesToUint [0] = 0 := bytesToUint_singleton 0
  have one : bytesToUint [1] = 1 := bytesToUint_singleton 1
  cases address with
  | v4 address =>
    have four := uintToBytes_length 4 address.toNat
    have record : nodeRecord ((.v4 address, port), type) =
        [type.value] ++ ([0] ++ (uintToBytes 4 address.toNat ++ uintToBytes 2 port.toNat)) := by
      simp only [nodeRecord, List.cons_append, List.nil_append]
    have length := congrArg List.length record
    have whole := congrArg List.length here
    simp only [List.length_append, List.length_singleton, four, two] at length whole
    have parts : data = before ++ ([type.value] ++ ([0] ++ (uintToBytes 4 address.toNat ++ (uintToBytes 2 port.toNat ++ after)))) := by
      simp only [here, record, List.append_assoc]
    have placed := four_spans parts rfl rfl four two
    simp only [List.length_singleton, Nat.add_assoc, Nat.reduceAdd] at placed
    obtain ⟨isType, isVersion, isAddress, isPort⟩ := placed
    rw [AnswerDecoder.readNodes, if_pos (by omega), if_neg (by omega), List.length_append, length]
    simp only [isType, isVersion, isAddress, isPort, none, if_true, bind, Except.bind, nodeType_read, port_read, v4_read, withoutScope,
      Nat.reduceAdd]
  | v6 address scope =>
    have sixteen := uintToBytes_length 16 address.toNat
    have record : nodeRecord ((.v6 address scope, port), type) =
        [type.value] ++ ([1] ++ (uintToBytes 16 address.toNat ++ uintToBytes 2 port.toNat)) := by
      simp only [nodeRecord, List.cons_append, List.nil_append]
    have length := congrArg List.length record
    have whole := congrArg List.length here
    simp only [List.length_append, List.length_singleton, sixteen, two] at length whole
    have parts : data = before ++ ([type.value] ++ ([1] ++ (uintToBytes 16 address.toNat ++ (uintToBytes 2 port.toNat ++ after)))) := by
      simp only [here, record, List.append_assoc]
    have placed := four_spans parts rfl rfl sixteen two
    simp only [List.length_singleton, Nat.add_assoc, Nat.reduceAdd] at placed
    obtain ⟨isType, isVersion, isAddress, isPort⟩ := placed
    rw [AnswerDecoder.readNodes, if_pos (by omega), if_neg (by omega), List.length_append, length]
    simp only [isType, isVersion, isAddress, isPort, one, one_ne_zero, if_false, if_true, bind, Except.bind, nodeType_read, port_read,
      v6_read, withoutScope, Nat.reduceAdd]

theorem insertNode_new {node : NodeID × NodeType} (new : node.1 ∉ nodes.map Prod.fst) : insertNode nodes node = nodes ++ [node] := by
  have absent : ¬ nodes.any (fun known => known.1 = node.1) = true := by
    intro present
    obtain ⟨known, member, same⟩ := List.any_eq_true.mp present
    exact new (of_decide_eq_true same ▸ List.mem_map_of_mem member)
  exact if_neg absent

theorem readNodes_end {index : Nat} (ended : data.length ≤ index) : AnswerDecoder.readNodes data index nodes = .ok nodes := by
  rw [AnswerDecoder.readNodes, if_neg (not_lt.mpr ended)]

/-- The loop gives back all nodes that are written as they are, each under its own address and port. -/
theorem readNodes_records {rest : List (NodeID × NodeType)} : ∀ {before : Bytes} {nodes : List (NodeID × NodeType)},
    data = before ++ (rest.map nodeRecord).flatten → (∀ node ∈ rest, withoutScope node = node) →
    ((nodes ++ rest).map Prod.fst).Nodup → AnswerDecoder.readNodes data before.length nodes = .ok (nodes ++ rest) := by
  induction rest with
  | nil =>
    intro before nodes here kept distinct
    rw [List.map_nil, List.flatten_nil, List.append_nil] at here
    rw [readNodes_end (here ▸ le_rfl), List.append_nil]
  | cons node rest ih =>
    intro before nodes here kept distinct
    rw [List.map_cons, List.flatten_cons] at here
    have next : data = (before ++ nodeRecord node) ++ (rest.map nodeRecord).flatten := here.trans (List.append_assoc _ _ _).symm
    have shifted : nodes ++ node :: rest = (nodes ++ [node]) ++ rest := List.append_cons nodes node rest
    rw [shifted] at distinct
    have new : node.1 ∉ nodes.map Prod.fst := by
      rw [List.map_append, List.map_append] at distinct
      have early := (List.nodup_append.mp distinct).1
      have apart := List.disjoint_of_nodup_append early
      exact fun member => apart member (List.mem_singleton_self _)
    rw [readNodes_record node here, kept node List.mem_cons_self, insertNode_new new, shifted]
    exact ih next (fun other member => kept other (List.mem_cons_of_mem _ member)) distinct

end Nodes

section Answers
variable {raw : Bytes} {request : Message}

/-- What a peer reads from the answer with some nodes. -/
def nodesAnswered (request : Message) (nodes : List (NodeID × NodeType)) : Except Exception (List (NodeID × NodeType)) := do
  AnswerDecoder.requestNodes (← AnswerEncoder.requestNodes request nodes)

theorem nodesAnswered_eq (built : Message.ofRaw raw = .ok request) (nodes : List (NodeID × NodeType)) :
    nodesAnswered request nodes = AnswerDecoder.readNodes (nodes.map nodeRecord).flatten 0 [] := by
  exact answer_read built (by decide) _ _

theorem nodes_answered (built : Message.ofRaw raw = .ok request) {nodes : List (NodeID × NodeType)}
    (distinct : (nodes.map Prod.fst).Nodup) (alone : ∀ node ∈ nodes, nodesAnswered request [node] = .ok [node]) :
    nodesAnswered request nodes = .ok nodes := by
  have kept : ∀ node ∈ nodes, withoutScope node = node := by
    intro node member
    have one := alone node member
    have here : ([node].map nodeRecord).flatten = [] ++ (nodeRecord node ++ []) := rfl
    have turn := @readNodes_record _ [] [] [] node here
    have ended : ([node].map nodeRecord).flatten.length ≤ ([] ++ nodeRecord node).length := by rw [here, List.append_nil]
    rw [nodesAnswered_eq built] at one
    exact List.singleton_inj.mp (Except.ok.inj ((turn.trans (readNodes_end ended)).symm.trans one))
  rw [nodesAnswered_eq built]
  exact @readNodes_records _ _ [] [] rfl kept distinct

end Answers

section Txs
variable {α : Type} {bytesOf : α → Bytes} {build : Bytes → Bytes → Except Exception α}

theorem readTxs_end {construct : Bytes → Bytes → Except Exception α} {data : Bytes} {index : Nat}
    (ended : AnswerDecoder.readTxs construct data index = .ok []) : data.length ≤ index := by
  by_contra more
  rw [AnswerDecoder.readTxs, if_pos (by omega)] at ended
  split at ended
  · cases ended
  obtain ⟨txSize, sized, ended⟩ := bind_ok.mp ended
  split at ended
  · cases ended
  obtain ⟨tx, constructed, ended⟩ := bind_ok.mp ended
  obtain ⟨txs, later, ended⟩ := bind_ok.mp ended
  cases ended

/-- The loop gives back everything that has a size of four bytes and comes back from its own bytes. -/
theorem readTxs_entries {construct : Bytes → Bytes → Except Exception α} {data : Bytes} {values : List α} :
    ∀ {before : Bytes}, data = before ++ Block.entries (values.map bytesOf) →
    (∀ value ∈ values, (bytesOf value).length < 2 ^ 32 ∧ ∀ behind, construct (bytesOf value) behind = .ok value) →
    AnswerDecoder.readTxs construct data before.length = .ok values := by
  induction values with
  | nil =>
    intro before here each
    have ended : ¬ before.length < data.length := by
      rw [here]
      simp [Block.entries]
    rw [AnswerDecoder.readTxs, if_neg ended]
  | cons value rest ih =>
    intro before here each
    obtain ⟨small, read⟩ := each value List.mem_cons_self
    have padded : data = before ++ (Block.entries (bytesOf value :: rest.map bytesOf) ++ []) := by
      rw [List.append_nil]
      exact here
    obtain ⟨first, later, place⟩ := entries_step padded
    rw [List.append_nil] at first later
    have whole := congrArg List.length first
    rw [List.length_append, List.length_append, entry_length] at whole
    have others := ih later fun other member => each other (List.mem_cons_of_mem _ member)
    rw [place] at others
    rw [AnswerDecoder.readTxs, if_pos (by omega), if_neg (by omega), sizeAt_entry first, Nat.mod_eq_of_lt small]
    simp only [bind, Except.bind]
    rw [if_neg (by omega), constructAt_span first le_rfl, List.take_length, read]
    simp only [others, pure, Except.pure]

/-- What comes back alone, whatever is behind it, has a size of four bytes and is built from its own bytes. -/
theorem alone_read {value : α} (alone : ∀ past : Bytes,
    AnswerDecoder.readTxs (fun span behind => build span (behind ++ past)) (Block.entries [bytesOf value]) 0 = .ok [value]) :
    (bytesOf value).length < 2 ^ 32 ∧ ∀ past, build (bytesOf value) past = .ok value := by
  have here : Block.entries [bytesOf value] = [] ++ (Block.entry (bytesOf value) ++ []) := rfl
  have length := congrArg List.length here
  rw [List.nil_append, List.append_nil, entry_length] at length
  have read : ∀ past : Bytes, (bytesOf value).length < 2 ^ 32 ∧ build (bytesOf value) past = .ok value := by
    intro past
    have one := alone past
    rw [AnswerDecoder.readTxs, if_pos (by omega), if_neg (by omega)] at one
    obtain ⟨txSize, sized, one⟩ := bind_ok.mp one
    split at one
    · cases one
    obtain ⟨tx, constructed, one⟩ := bind_ok.mp one
    obtain ⟨txs, later, one⟩ := bind_ok.mp one
    obtain ⟨rfl, rfl⟩ := List.cons.inj (Except.ok.inj one)
    obtain rfl : (bytesOf tx).length % 2 ^ 32 = txSize := Except.ok.inj ((sizeAt_entry here).symm.trans sized)
    have finish := readTxs_end later
    have small : (bytesOf tx).length < 2 ^ 32 := by omega
    have built := (constructAt_span here (Nat.mod_le _ _)).symm.trans constructed
    rw [Nat.mod_eq_of_lt small, List.take_length, List.drop_length] at built
    exact ⟨small, built⟩
  exact ⟨(read []).1, fun past => (read past).2⟩

theorem readTxs_all {values : List α} (past : Bytes) (alone : ∀ value ∈ values, ∀ past : Bytes,
    AnswerDecoder.readTxs (fun span behind => build span (behind ++ past)) (Block.entries [bytesOf value]) 0 = .ok [value]) :
    AnswerDecoder.readTxs (fun span behind => build span (behind ++ past)) (Block.entries (values.map bytesOf)) 0 = .ok values := by
  refine @readTxs_entries α bytesOf _ _ values [] rfl fun value member => ?_
  obtain ⟨small, read⟩ := alone_read (alone value member)
  exact ⟨small, fun behind => read _⟩

end Txs

section Answers
variable {raw : Bytes} {request : Message} (reader : BlockReader)

/-- What a peer reads from the answer with the transactions of a mempool. -/
def txsAnswered (request : Message) (txs : List (Hash × TxBlock)) : Except Exception (List TxBlock) := do
  AnswerDecoder.requestTxs reader (← AnswerEncoder.requestTxs request txs)

def validatorTxsAnswered (request : Message) (txs : List (Hash × TxValidator)) : Except Exception (List TxValidator) := do
  AnswerDecoder.requestValidatorTxs reader (← AnswerEncoder.requestValidatorTxs request txs)

theorem txsAnswered_eq (built : Message.ofRaw raw = .ok request) (txs : List (Hash × TxBlock)) : txsAnswered reader request txs =
    AnswerDecoder.readTxs (fun span behind => reader.tx span (behind ++ reader.past))
      (Block.entries ((txs.map Prod.snd).map fun tx => tx.rlpSerialize true)) 0 := by
  rw [List.map_map]
  exact answer_read built (by decide) _ _

theorem validatorTxsAnswered_eq (built : Message.ofRaw raw = .ok request) (txs : List (Hash × TxValidator)) :
    validatorTxsAnswered reader request txs =
    AnswerDecoder.readTxs (fun span behind => TxValidator.ofBytes reader.lib reader.sha3 span (behind ++ reader.past) reader.chainId)
      (Block.entries ((txs.map Prod.snd).map fun tx => tx.rlpSerialize true)) 0 := by
  rw [List.map_map]
  exact answer_read built (by decide) _ _

variable {reader}

theorem txs_answered (built : Message.ofRaw raw = .ok request) {txs : List (Hash × TxBlock)}
    (alone : ∀ entry ∈ txs, ∀ past, txsAnswered { reader with past } request [entry] = .ok [entry.2]) :
    txsAnswered reader request txs = .ok (txs.map Prod.snd) := by
  rw [txsAnswered_eq reader built]
  apply @readTxs_all _ _ reader.tx
  intro tx member past
  obtain ⟨entry, listed, rfl⟩ := List.mem_map.mp member
  exact (txsAnswered_eq { reader with past } built [entry]).symm.trans (alone entry listed past)

theorem validatorTxs_answered (built : Message.ofRaw raw = .ok request) {txs : List (Hash × TxValidator)}
    (alone : ∀ entry ∈ txs, ∀ past, validatorTxsAnswered { reader with past } request [entry] = .ok [entry.2]) :
    validatorTxsAnswered reader request txs = .ok (txs.map Prod.snd) := by
  rw [validatorTxsAnswered_eq reader built]
  apply @readTxs_all _ _ fun span behind => TxValidator.ofBytes reader.lib reader.sha3 span behind reader.chainId
  intro tx member past
  obtain ⟨entry, listed, rfl⟩ := List.mem_map.mp member
  exact (validatorTxsAnswered_eq { reader with past } built [entry]).symm.trans (alone entry listed past)

end Answers

section Broadcasts
variable (reader : BlockReader)

theorem toUint64_ofBytes (value : UInt64) : (RequestID.ofBytes (uintToBytes 8 value.toNat)).toUint64 = value := by
  have bound := value.toNat_lt
  rw [RequestID.toUint64, RequestID.ofBytes, bytesToUint_uintToBytes bound, BitVec.toNat_ofNat, Nat.mod_eq_of_lt bound, UInt64.ofNat_toNat]

theorem broadcast_read {command : CommandType} (known : command ≠ .unnamed) (data : Bytes) (wrongId : Exception) :
    ∃ message, BroadcastEncoder.broadcast command data = .ok message ∧
      BroadcastDecoder.broadcastData wrongId command message = .ok data := by
  obtain ⟨message, encoded, parts⟩ := @composed .broadcasting command (by decide) known
    (.ofBytes (uintToBytes 8 (FNVHash data).toNat)) data
  refine ⟨message, encoded, ?_⟩
  unfold BroadcastDecoder.broadcastData
  simp only [parts.type, parts.id, parts.command, parts.data, toUint64_ofBytes, ne_eq, not_true, if_false, bind, Except.bind]

def txBroadcast (tx : TxBlock) : Except Exception TxBlock := do BroadcastDecoder.broadcastTx reader (← BroadcastEncoder.broadcastTx tx)

def validatorTxBroadcast (tx : TxValidator) : Except Exception TxValidator := do
  BroadcastDecoder.broadcastValidatorTx reader (← BroadcastEncoder.broadcastValidatorTx tx)

def blockBroadcast (block : Block) : Except Exception Block := do
  BroadcastDecoder.broadcastBlock reader (← BroadcastEncoder.broadcastBlock block)

/-- What is read from a broadcast is what its constructor makes of the bytes of what was sent. -/
theorem txBroadcast_eq (tx : TxBlock) : txBroadcast reader tx = reader.tx (tx.rlpSerialize true) reader.past := by
  obtain ⟨message, encoded, decoded⟩ := @broadcast_read .broadcastTx (by decide) (tx.rlpSerialize true) "Invalid message id."
  unfold txBroadcast BroadcastEncoder.broadcastTx BroadcastDecoder.broadcastTx
  simp only [encoded, decoded, bind, Except.bind]

theorem validatorTxBroadcast_eq (tx : TxValidator) : validatorTxBroadcast reader tx =
    TxValidator.ofBytes reader.lib reader.sha3 (tx.rlpSerialize true) reader.past reader.chainId := by
  obtain ⟨message, encoded, decoded⟩ := @broadcast_read .broadcastValidatorTx (by decide) (tx.rlpSerialize true) "Invalid message id."
  unfold validatorTxBroadcast BroadcastEncoder.broadcastValidatorTx BroadcastDecoder.broadcastValidatorTx
  simp only [encoded, decoded, bind, Except.bind]

theorem blockBroadcast_eq (block : Block) : blockBroadcast reader block = reader.block block.serializeBlock := by
  obtain ⟨message, encoded, decoded⟩ := @broadcast_read .broadcastBlock (by decide) block.serializeBlock "Invalid message id. "
  unfold blockBroadcast BroadcastEncoder.broadcastBlock BroadcastDecoder.broadcastBlock
  simp only [encoded, decoded, bind, Except.bind]

/-- What the constructors of transactions build. -/
def TxBuilt (tx : TxBlock) : Prop :=
  (∃ receiver sender data chainId nonce value maxPriorityFeePerGas maxFeePerGas gasLimit key,
    TxBlock.sign reader.lib reader.sha3 receiver sender data chainId nonce value maxPriorityFeePerGas maxFeePerGas gasLimit key = .ok tx) ∨
  ∃ bytes past, reader.tx bytes past = .ok tx

def ValidatorTxBuilt (tx : TxValidator) : Prop :=
  (∃ sender data chainId nHeight key, TxValidator.sign reader.lib reader.sha3 sender data chainId nHeight key = .ok tx) ∨
  ∃ bytes past, TxValidator.ofBytes reader.lib reader.sha3 bytes past reader.chainId = .ok tx

/-- What finalizing and the constructor of blocks give. -/
def BlockBuilt (block : Block) : Prop :=
  (∃ start newTimestamp, Block.finalize reader.sha3 reader.signer start newTimestamp = (true, block)) ∨
  ∃ bytes past, Block.ofBytes reader.lib reader.sha3 reader.signer bytes past reader.chainId = .ok block

variable {reader}

theorem txBroadcast_iff (consistent : TxRoundTrip.Consistent reader.lib) {tx : TxBlock} (built : TxBuilt reader tx)
    (addressable : tx.data.length < 2 ^ 63) : txBroadcast reader tx = .ok tx ↔
      tx.nonce.toNat < 2 ^ 64 ∧ tx.gasLimit.toNat < 2 ^ 64 ∧ tx.data.length ≠ 55 ∧ 55 < tx.totalSize true := by
  have complete : TxRoundTrip.Complete reader.lib reader.sha3 tx := by
    rcases built with ⟨_, _, _, _, _, _, _, _, _, _, signed⟩ | ⟨_, _, read⟩
    · exact (TxRoundTrip.sign_ok consistent signed).1.complete
    · exact TxRoundTrip.ofBytes_complete read
  rw [txBroadcast_eq]
  exact complete.reads_iff addressable _ _

theorem validatorTxBroadcast_iff (consistent : TxRoundTrip.Consistent reader.lib) {tx : TxValidator} (built : ValidatorTxBuilt reader tx)
    (addressable : tx.data.length < 2 ^ 63) : validatorTxBroadcast reader tx = .ok tx ↔
      1 ≤ tx.chainId.toNat ∧ 2 * tx.chainId.toNat + 35 ≤ tx.v.toNat ∧ tx.data.length ≠ 55 ∧ 55 < tx.totalSize true := by
  have complete : ∃ recoveryId, ValidatorRoundTrip.Complete reader.lib reader.sha3 tx recoveryId := by
    rcases built with ⟨_, _, _, _, _, signed⟩ | ⟨_, _, read⟩
    · obtain ⟨⟨recoveryId, signed⟩, _, _⟩ := ValidatorRoundTrip.sign_ok consistent signed
      exact ⟨recoveryId, signed.complete⟩
    · exact ValidatorRoundTrip.ofBytes_complete read
  obtain ⟨recoveryId, complete⟩ := complete
  rw [validatorTxBroadcast_eq]
  exact complete.reads_iff addressable _ _

end Broadcasts

variable {lib : Secp256k1} {sha3 : Bytes → Hash} {signer : Block.Signer} {chainId : UInt64} {bytes past : Bytes} {block : Block}

theorem readEntries_forall {memory : Bytes} {construct : Bytes → Bytes → Except Exception TxValidator} {fine : TxValidator → Prop}
    (each : ∀ span behind tx, construct span behind = .ok tx → fine tx) : ∀ {count index : Nat} {txs : List TxValidator},
    Block.readEntries memory construct count index = .ok txs → ∀ tx ∈ txs, fine tx := by
  intro count
  induction count with
  | zero =>
    intro index txs read
    cases read
    exact fun tx member => absurd member List.not_mem_nil
  | succ count ih =>
    intro index txs read
    obtain ⟨size, _, read⟩ := bind_ok.mp read
    obtain ⟨tx, constructed, read⟩ := bind_ok.mp read
    obtain ⟨rest, later, read⟩ := bind_ok.mp read
    cases read
    exact List.forall_mem_cons.mpr ⟨each _ _ _ (constructAt_ok constructed).2, ih later⟩

theorem ofParsed_fields {verifySig : Bytes → Bool} {parsed : Block} (accepted : Block.ofParsed sha3 signer verifySig parsed = .ok block) :
    block = { parsed with
      hash := block.hash
      validator := block.validator
      finalized := block.finalized } := by
  unfold Block.ofParsed at accepted
  split at accepted
  · cases accepted
  split at accepted
  · cases accepted
  split at accepted
  · cases accepted
  split at accepted
  · cases accepted
  cases accepted
  rfl

/-- The checks at the end of the constructor, and those of the heights before them. -/
theorem parse_checked (accepted : Block.parse lib sha3 signer bytes past chainId = .ok block) :
    block.validatorSig.length = 65 ∧ Block.ofParsed sha3 signer Block.verifySigBytes (unchecked block) = .ok block ∧
      ∀ tx ∈ block.txValidators, tx.nHeight = block.nHeight := by
  have long : 217 ≤ bytes.length := by
    by_contra short
    unfold Block.parse at accepted
    rw [if_pos (by omega)] at accepted
    cases accepted
  rw [parse_eq long] at accepted
  obtain ⟨txCount, _, accepted⟩ := bind_ok.mp accepted
  obtain ⟨valTxCount, _, accepted⟩ := bind_ok.mp accepted
  obtain ⟨txs, _, accepted⟩ := bind_ok.mp accepted
  obtain ⟨txValidators, readValidators, checked⟩ := bind_ok.mp accepted
  have fields := ofParsed_fields checked
  have same : unchecked block = parsedFields bytes txs txValidators := by
    rw [fields]
    rfl
  refine ⟨?_, same ▸ checked, ?_⟩
  · rw [fields]
    exact BlockShapes.parsedFields_sig long txs txValidators
  · rw [fields]
    refine readEntries_forall (fun span behind tx read => ?_) readValidators
    obtain ⟨recovered, _, read⟩ := bind_ok.mp read
    split at read
    · cases read
    case isFalse height =>
      cases read
      exact not_not.mp height

/-- A block comes back from its bytes exactly if its transactions do from theirs, belong to its height and have sizes
of four bytes. -/
theorem block_reads_iff (size : block.validatorSig.length = 65)
    (accepted : Block.ofParsed sha3 signer Block.verifySigBytes (unchecked block) = .ok block)
    (addressable : block.serializeBlock.length < 2 ^ 63) :
    Block.ofBytes lib sha3 signer block.serializeBlock past chainId = .ok block ↔ Sizes block ∧ ReadsBack lib sha3 chainId block := by
  rw [ofBytes_ok_iff]
  constructor
  · intro read
    obtain ⟨_, txs, txValidators⟩ := BlockShapes.entries_of_parse addressable read rfl
    refine ⟨⟨fun tx member => (txs tx member).1, fun tx member => (txValidators tx member).1⟩, fun tx member past => ?_,
      fun tx member past => ?_, (parse_checked read).2.2⟩
    · obtain ⟨small, behind, alone⟩ := txs tx member
      have fits := TxShapes.data_lt tx (lt_trans small (by norm_num))
      have complete := TxRoundTrip.ofBytes_complete alone
      exact (complete.reads_iff fits past chainId).mpr ((complete.reads_iff fits behind chainId).mp alone)
    · obtain ⟨small, behind, alone⟩ := txValidators tx member
      have fits := ValidatorShapes.data_lt tx (lt_trans small (by norm_num))
      obtain ⟨recoveryId, complete⟩ := ValidatorRoundTrip.ofBytes_complete alone
      exact (complete.reads_iff fits past chainId).mpr ((complete.reads_iff fits behind chainId).mp alone)
  · rintro ⟨small, readsBack⟩
    exact parse_of_sizes size accepted readsBack (lt_trans addressable (by norm_num)) small

theorem blockBroadcast_iff {reader : BlockReader} {block : Block}
    (signs : ∀ hash, (reader.signer.sign hash).length = 65 ∧ Block.verifySigBytes (reader.signer.sign hash) = true)
    (built : BlockBuilt reader block) (addressable : block.serializeBlock.length < 2 ^ 63) :
    blockBroadcast reader block = .ok block ↔ Sizes block ∧ ReadsBack reader.lib reader.sha3 reader.chainId block := by
  have checked : block.validatorSig.length = 65 ∧
      Block.ofParsed reader.sha3 reader.signer Block.verifySigBytes (unchecked block) = .ok block := by
    rcases built with ⟨_, _, done⟩ | ⟨_, _, read⟩
    · exact ofParsed_finalized done signs
    · obtain ⟨size, accepted, _⟩ := parse_checked (ofBytes_ok_iff.mp read)
      exact ⟨size, accepted⟩
  rw [blockBroadcast_eq]
  exact block_reads_iff checked.1 checked.2 addressable

/-- Answers give back every map of which each element comes back alone. A broadcast passes the check of its id and gives
back a transaction exactly if nonce and gas limit have 64 bits, the data is not 55 bytes long and the list is longer than
55 bytes; a validator transaction exactly if its chain id fits into `v`, with the same bounds on data and list; a block
exactly if its transactions come back, belong to its height and have sizes of four bytes. -/
theorem messages_read_back_iff (reader : BlockReader) (consistent : TxRoundTrip.Consistent reader.lib)
    (signs : ∀ hash, (reader.signer.sign hash).length = 65 ∧ Block.verifySigBytes (reader.signer.sign hash) = true) :
    (∀ raw request, Message.ofRaw raw = .ok request →
      (∀ nodes, (nodes.map Prod.fst).Nodup → (∀ node ∈ nodes, nodesAnswered request [node] = .ok [node]) →
        nodesAnswered request nodes = .ok nodes) ∧
      (∀ txs, (∀ entry ∈ txs, ∀ past, validatorTxsAnswered { reader with past } request [entry] = .ok [entry.2]) →
        validatorTxsAnswered reader request txs = .ok (txs.map Prod.snd)) ∧
      ∀ txs, (∀ entry ∈ txs, ∀ past, txsAnswered { reader with past } request [entry] = .ok [entry.2]) →
        txsAnswered reader request txs = .ok (txs.map Prod.snd)) ∧
    (∀ command data wrongId, command ≠ .unnamed → ∃ message, BroadcastEncoder.broadcast command data = .ok message ∧
      BroadcastDecoder.broadcastData wrongId command message = .ok data) ∧
    (∀ tx, TxBuilt reader tx → tx.data.length < 2 ^ 63 → (txBroadcast reader tx = .ok tx ↔
      tx.nonce.toNat < 2 ^ 64 ∧ tx.gasLimit.toNat < 2 ^ 64 ∧ tx.data.length ≠ 55 ∧ 55 < tx.totalSize true)) ∧
    (∀ tx, ValidatorTxBuilt reader tx → tx.data.length < 2 ^ 63 → (validatorTxBroadcast reader tx = .ok tx ↔
      1 ≤ tx.chainId.toNat ∧ 2 * tx.chainId.toNat + 35 ≤ tx.v.toNat ∧ tx.data.length ≠ 55 ∧ 55 < tx.totalSize true)) ∧
    ∀ block, BlockBuilt reader block → block.serializeBlock.length < 2 ^ 63 → (blockBroadcast reader block = .ok block ↔
      Sizes block ∧ ReadsBack reader.lib reader.sha3 reader.chainId block) := by
  refine ⟨fun raw request built => ⟨?_, ?_, ?_⟩, ?_, ?_, ?_, ?_⟩
  · intro nodes distinct alone
    exact nodes_answered built distinct alone
  · intro txs alone
    exact validatorTxs_answered built alone
  · intro txs alone
    exact txs_answered built alone
  · intro command data wrongId known
    exact broadcast_read known data wrongId
  · intro tx built addressable
    exact txBroadcast_iff consistent built addressable
  · intro tx built addressable
    exact validatorTxBroadcast_iff consistent built addressable
  · intro block built addressable
    exact blockBroadcast_iff signs built addressable

def oneKeyReader (past : Bytes) : BlockReader := ⟨oneKeyCurve, Hash.ofBytes, oneSignature, 8080, past⟩

def nodesRequest : Message := ⟨List.replicate 11 0⟩

def twoNodes : List (NodeID × NodeType) := [((.v4 0x7f000001, 8080), .normalNode), ((.v6 1 0, 8081), .discoveryNode)]

theorem small_messages_read_back : ∃ tx, signedTransfer (List.replicate 56 0) = .ok tx ∧
    nodesAnswered nodesRequest twoNodes = .ok twoNodes ∧
    txsAnswered (oneKeyReader []) nodesRequest [(tx.hash, tx)] = .ok [tx] ∧ txBroadcast (oneKeyReader []) tx = .ok tx := by
  obtain ⟨answers, _, broadcasts, _, _⟩ := messages_read_back_iff (oneKeyReader []) oneKeyCurve_consistent oneSignature_signs
  have built : Message.ofRaw (List.replicate 11 0) = .ok nodesRequest := rfl
  obtain ⟨nodes, _, txs⟩ := answers _ _ built
  obtain ⟨tx, signed, data, read⟩ := @signedTransfer_reads_back (List.replicate 56 0) (by decide) (by decide)
  have small : (signedTransfer (List.replicate 56 0)).toOption.all fun tx => (tx.rlpSerialize true).length < 2 ^ 32 := by
    decide +kernel
  rw [signed] at small
  have fits : (tx.rlpSerialize true).length < 2 ^ 32 := of_decide_eq_true small
  refine ⟨tx, signed, ?_, ?_, ?_⟩
  · apply nodes twoNodes (by decide)
    intro node member
    have kept : withoutScope node = node := by
      simp only [twoNodes, List.mem_cons, List.not_mem_nil, or_false] at member
      rcases member with rfl | rfl
      · rfl
      · rfl
    rw [nodesAnswered_eq built]
    exact @readNodes_records _ [node] [] [] rfl (List.forall_mem_singleton.mpr kept) (List.nodup_singleton _)
  · apply txs [(tx.hash, tx)]
    intro entry member past
    obtain rfl := List.mem_singleton.mp member
    rw [txsAnswered_eq _ built]
    exact @readTxs_entries _ (fun tx : TxBlock => tx.rlpSerialize true) _ _ [tx] [] rfl
      (List.forall_mem_singleton.mpr ⟨fits, fun behind => read _ _⟩)
  · have size : tx.data.length < 2 ^ 63 := by
      rw [data]
      decide
    have own : TxBuilt (oneKeyReader []) tx := .inl ⟨_, _, _, _, _, _, _, _, _, _, signed⟩
    exact (broadcasts tx own size).mpr (serialized_read size (read [] 8080))

theorem broadcast_of_55_bytes_is_lost : ∃ tx, signedTransfer (List.replicate 55 0) = .ok tx ∧ ∀ past,
    txBroadcast (oneKeyReader past) tx ≠ .ok tx := by
  obtain ⟨tx, built⟩ := exists_ok (show (signedTransfer (List.replicate 55 0)).isOk = true by decide +kernel)
  obtain ⟨_, _, _, same⟩ := sign_ok oneKeyCurve_consistent built
  refine ⟨tx, built, fun past read => ?_⟩
  rw [txBroadcast_eq] at read
  exact (serialized_read (by rw [same]; decide) read).2.2.1 (by rw [same]; decide)

end OrbiterSDK.Proofs.PeerMessages
