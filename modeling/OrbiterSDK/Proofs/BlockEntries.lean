import OrbiterSDK.Proofs.ChainIds

/-! The bytes of a block, cut into its fields and the entries of its two lists. Each
transaction stands behind its size, which has four bytes. -/

namespace OrbiterSDK.Proofs.BlockEntries
open Lib Lib.Reader Utils Tx ByteStrings TxRoundTrip ChainIds

theorem entry_length (txBytes : Bytes) : (Block.entry txBytes).length = 4 + txBytes.length := by
  rw [Block.entry, List.length_append, uintToBytes_length]

theorem entries_cons (txBytes : Bytes) (rest : List Bytes) :
    Block.entries (txBytes :: rest) = Block.entry txBytes ++ Block.entries rest := rfl

theorem length_le_entries (spans : List Bytes) : spans.length ≤ (Block.entries spans).length := by
  induction spans with
  | nil => exact le_rfl
  | cons span rest ih =>
    rw [entries_cons, List.length_append, entry_length, List.length_cons]
    omega

section Places
variable {memory before rest txBytes : Bytes}

private theorem drop_before (here : memory = before ++ rest) : memory.drop before.length = rest := by
  rw [here, List.drop_left]

/-- The size in front of a transaction is read modulo 2^32. -/
theorem sizeAt_entry (here : memory = before ++ (Block.entry txBytes ++ rest)) :
    Block.sizeAt memory before.length = .ok (txBytes.length % 2 ^ 32) := by
  have four := uintToBytes_length 4 txBytes.length
  have low : uintToBytes 4 txBytes.length = uintToBytes 4 (txBytes.length % 2 ^ 32) := by
    simp only [uintToBytes]
    refine congrArg₂ _ (congrArg₂ _ (congrArg₂ _ (congrArg₂ _ rfl ?_) ?_) ?_) ?_
    all_goals
      refine congrArg (fun byte : UInt8 => [byte]) (UInt8.toNat_inj.mp ?_)
      rw [UInt8.toNat_ofNat', UInt8.toNat_ofNat']
      omega
  unfold Block.sizeAt
  rw [if_pos (by rw [here, List.length_append, List.length_append, entry_length]; omega), drop_before here, Block.entry,
    List.append_assoc, List.take_left' four, low, bytesToUint_uintToBytes (by omega)]

theorem constructAt_span {α : Type} {construct : Bytes → Bytes → Except Exception α}
    (here : memory = before ++ (Block.entry txBytes ++ rest)) {size : Nat} (inside : size ≤ txBytes.length) :
    Block.constructAt memory construct (before.length + 4) size =
      construct (txBytes.take size) (txBytes.drop size ++ rest) := by
  have four := uintToBytes_length 4 txBytes.length
  have span : memory.drop (before.length + 4) = txBytes ++ rest := by
    rw [← List.drop_drop, drop_before here, Block.entry, List.append_assoc, List.drop_left' four]
  have behind : memory.drop (before.length + 4 + size) = txBytes.drop size ++ rest := by
    rw [← List.drop_drop, span, List.drop_append_of_le_length inside]
  unfold Block.constructAt
  rw [if_pos (by rw [here, List.length_append, List.length_append, entry_length]; omega), span, behind,
    List.take_append_of_le_length inside]

end Places

theorem entries_step {memory before after txBytes : Bytes} {rest : List Bytes}
    (here : memory = before ++ (Block.entries (txBytes :: rest) ++ after)) :
    memory = before ++ (Block.entry txBytes ++ (Block.entries rest ++ after)) ∧
      memory = (before ++ Block.entry txBytes) ++ (Block.entries rest ++ after) ∧
      (before ++ Block.entry txBytes).length = before.length + 4 + txBytes.length := by
  rw [entries_cons, List.append_assoc] at here
  refine ⟨here, ?_, ?_⟩
  · rw [List.append_assoc]
    exact here
  · rw [List.length_append, entry_length, Nat.add_assoc]

section Loops
variable {memory after : Bytes} {α : Type} {construct : Bytes → Bytes → Except Exception α}

variable {spans : List Bytes}

theorem count_entries : ∀ {before : Bytes} {fuel : Nat}, memory = before ++ (Block.entries spans ++ after) →
    (∀ span ∈ spans, span.length < 2 ^ 32) → spans.length < fuel →
    Block.countEntries memory (before.length + (Block.entries spans).length) fuel before.length = .ok spans.length := by
  induction spans with
  | nil =>
    intro before fuel here small enough
    obtain ⟨fewer, rfl⟩ := Nat.exists_eq_succ_of_ne_zero (Nat.ne_of_gt enough)
    exact if_neg (Nat.lt_irrefl _)
  | cons span rest ih =>
    intro before fuel here small enough
    obtain ⟨fewer, rfl⟩ := Nat.exists_eq_succ_of_ne_zero (Nat.ne_zero_of_lt enough)
    obtain ⟨first, later, place⟩ := entries_step here
    have fits := small span List.mem_cons_self
    have others := @ih _ fewer later (fun other member => small other (List.mem_cons_of_mem _ member)) (Nat.lt_of_succ_lt_succ enough)
    have finish : before.length + (Block.entries (span :: rest)).length =
        (before ++ Block.entry span).length + (Block.entries rest).length := by
      rw [entries_cons, List.length_append, List.length_append, Nat.add_assoc]
    have before_finish : before.length < before.length + (Block.entries (span :: rest)).length := by
      rw [entries_cons, List.length_append, entry_length]
      omega
    rw [Block.countEntries, if_pos before_finish, sizeAt_entry first, Nat.mod_eq_of_lt fits]
    have next : before.length + span.length + 4 = (before ++ Block.entry span).length := by omega
    rw [finish]
    exact bind_ok.mpr ⟨_, rfl, bind_ok.mpr ⟨_, next ▸ others, rfl⟩⟩

theorem skip_entries : ∀ {before : Bytes}, memory = before ++ (Block.entries spans ++ after) →
    (∀ span ∈ spans, span.length < 2 ^ 32) →
    Block.skipEntries memory spans.length before.length = .ok (before.length + (Block.entries spans).length) := by
  induction spans with
  | nil =>
    intro before here small
    rfl
  | cons span rest ih =>
    intro before here small
    obtain ⟨first, later, place⟩ := entries_step here
    have fits := small span List.mem_cons_self
    have others := ih later fun other member => small other (List.mem_cons_of_mem _ member)
    rw [List.length_cons, Block.skipEntries, sizeAt_entry first, Nat.mod_eq_of_lt fits]
    rw [place] at others
    have finish : before.length + 4 + span.length + (Block.entries rest).length =
        before.length + (Block.entries (span :: rest)).length := by
      rw [entries_cons, List.length_append, entry_length]
      omega
    rw [← finish]
    exact bind_ok.mpr ⟨_, rfl, others⟩

theorem read_entries {outcome : Bytes → Except Exception α} : ∀ {before : Bytes},
    memory = before ++ (Block.entries spans ++ after) → (∀ span ∈ spans, span.length < 2 ^ 32) →
    (∀ span ∈ spans, ∀ behind, construct span behind = outcome span) →
    Block.readEntries memory construct spans.length before.length = spans.mapM outcome := by
  induction spans with
  | nil =>
    intro before here small answers
    rfl
  | cons span rest ih =>
    intro before here small answers
    obtain ⟨first, later, place⟩ := entries_step here
    have fits := small span List.mem_cons_self
    have others := ih later (fun other member => small other (List.mem_cons_of_mem _ member))
      fun other member => answers other (List.mem_cons_of_mem _ member)
    rw [place] at others
    have whole := @constructAt_span _ _ _ _ _ construct first span.length le_rfl
    rw [List.take_length] at whole
    rw [List.length_cons, Block.readEntries, sizeAt_entry first, Nat.mod_eq_of_lt fits, List.mapM_cons, ← others,
      ← answers span List.mem_cons_self, ← whole]
    rfl

/-- Where the threads start is found whatever the entries contain. -/
theorem threads_start {counts : List Nat} : ∀ {spans : List Bytes} {before : Bytes},
    memory = before ++ (Block.entries spans ++ after) → (∀ span ∈ spans, span.length < 2 ^ 32) → counts.sum ≤ spans.length →
    ∃ threads, Block.threadStarts memory counts before.length = .ok threads := by
  induction counts with
  | nil =>
    intro spans before here small enough
    exact ⟨[], rfl⟩
  | cons nTxs rest ih =>
    intro spans before here small enough
    rw [List.sum_cons] at enough
    cases rest with
    | nil => exact ⟨[(before.length, nTxs)], rfl⟩
    | cons more rest =>
      have parts : Block.entries spans = Block.entries (spans.take nTxs) ++ Block.entries (spans.drop nTxs) := by
        rw [Block.entries, Block.entries, Block.entries, ← List.flatten_append, ← List.map_append, List.take_append_drop]
      have count : (spans.take nTxs).length = nTxs := List.length_take_of_le (by omega)
      have first : memory = before ++ (Block.entries (spans.take nTxs) ++ (Block.entries (spans.drop nTxs) ++ after)) := by
        rw [here, parts, List.append_assoc]
      have second : memory = (before ++ Block.entries (spans.take nTxs)) ++ (Block.entries (spans.drop nTxs) ++ after) := by
        rw [first, List.append_assoc]
      have skipped := skip_entries first fun span member => small span (List.mem_of_mem_take member)
      rw [count, ← List.length_append] at skipped
      obtain ⟨threads, started⟩ := ih second (fun span member => small span (List.mem_of_mem_drop member))
        (by rw [List.length_drop]; omega)
      exact ⟨_, bind_ok.mpr ⟨_, skipped, bind_ok.mpr ⟨threads, started, rfl⟩⟩⟩

theorem readInThreads_entries {before : Bytes} {thrNum : Nat} (some : 0 < thrNum)
    (here : memory = before ++ (Block.entries spans ++ after)) (small : ∀ span ∈ spans, span.length < 2 ^ 32) :
    Block.readInThreads memory construct thrNum spans.length before.length =
      Block.readEntries memory construct spans.length before.length := by
  have sum := txsPerThr_sum some spans.length
  obtain ⟨threads, started⟩ := threads_start here small (Nat.le_of_eq sum)
  have read := @threads_read _ _ construct _ _ _ started
  rw [sum] at read
  rw [← read, Block.readInThreads, started]
  rfl

end Loops

private theorem readList_states {size : UInt64} {input after : Bytes} (seen : (readList size).eval input = (.ok (), after)) :
    ∃ first rest, input = first :: rest ∧
      fromBigEndian64 (rest.take (first - 0xf7).toNat) = size - UInt64.ofNat (first - 0xf7).toNat - 1 := by
  unfold readList at seen
  obtain ⟨first, middle, peeked, read⟩ := eval_bind_ok.mp seen
  cases input with
  | nil => cases peeked
  | cons head rest =>
    cases peeked
    by_cases short : first < 0xf7
    · rw [if_pos short] at read
      cases read
    · rw [if_neg short] at read
      obtain ⟨skipped, _, took, read⟩ := eval_bind_ok.mp read
      obtain ⟨listLength, items, counted, last⟩ := eval_bind_ok.mp read
      cases took
      obtain ⟨sized, count⟩ := eval_take_ok counted
      rw [List.drop_succ_cons, List.drop_zero] at sized
      refine ⟨first, rest, rfl, ?_⟩
      rw [sized, List.take_left' count]
      simp only [Action.eval_ite] at last
      split at last
      · cases last
      case isFalse notSmaller =>
        split at last
        · cases last
        case isFalse notLarger =>
          exact UInt64.le_antisymm (UInt64.not_lt.mp notLarger) (UInt64.not_lt.mp notSmaller)

theorem readList_size {size size' : UInt64} {input after after' : Bytes} (seen : (readList size).eval input = (.ok (), after))
    (seen' : (readList size').eval input = (.ok (), after')) : size = size' := by
  obtain ⟨first, rest, rfl, stated⟩ := readList_states seen
  obtain ⟨_, _, same, stated'⟩ := readList_states seen'
  obtain ⟨rfl, rfl⟩ := List.cons.inj same
  rw [stated] at stated'
  grind

/-- Spans that share a beginning and are both accepted have the same size. -/
def Sized {α : Type} (construct : Bytes → Bytes → Except Exception α) : Prop :=
  ∀ {span behind span' behind' value value'}, span ++ behind = span' ++ behind' → construct span behind = .ok value →
    construct span' behind' = .ok value' → span.length % 2 ^ 64 = span'.length % 2 ^ 64

section Constructors
variable {lib : Secp256k1} {sha3 : Bytes → Hash} {required : UInt64}

theorem tx_sized : Sized fun span behind => TxBlock.ofBytes lib sha3 span behind required := by
  intro span behind span' behind' tx tx' same accepted accepted'
  obtain ⟨list, _, _, _, memory, header, _⟩ := ofBytes_ok accepted
  obtain ⟨list', _, _, _, memory', header', _⟩ := ofBytes_ok accepted'
  rw [← same, memory] at memory'
  obtain ⟨_, rfl⟩ := List.cons.inj memory'
  have sizes := readList_size header header'
  have numbers := congrArg UInt64.toNat (show UInt64.ofNat span.length = UInt64.ofNat span'.length by grind)
  rw [UInt64.toNat_ofNat', UInt64.toNat_ofNat'] at numbers
  exact numbers

theorem validator_sized : Sized fun span behind => TxValidator.ofBytes lib sha3 span behind required := by
  intro span behind span' behind' tx tx' same accepted accepted'
  obtain ⟨_, _, _, header, _⟩ := ValidatorRoundTrip.ofBytes_ok accepted
  obtain ⟨_, _, _, header', _⟩ := ValidatorRoundTrip.ofBytes_ok accepted'
  rw [← same] at header'
  have numbers := congrArg UInt64.toNat (readList_size header header')
  rw [UInt64.toNat_ofNat', UInt64.toNat_ofNat'] at numbers
  exact numbers

theorem Sized.then {α β : Type} {construct : Bytes → Bytes → Except Exception α} (sized : Sized construct) (next : α → Except Exception β) :
    Sized fun span behind => construct span behind >>= next := by
  intro span behind span' behind' value value' same accepted accepted'
  obtain ⟨_, built, _⟩ := bind_ok.mp accepted
  obtain ⟨_, built', _⟩ := bind_ok.mp accepted'
  exact sized same built built'

end Constructors

/-- Entries that are read and whose spans are refused under any smaller size have sizes of four bytes. -/
theorem entries_of_read {memory after : Bytes} {α : Type} {construct : Bytes → Bytes → Except Exception α} :
    ∀ {before : Bytes} {fuel count : Nat} {values : List α}, memory = before ++ (Block.entries spans ++ after) →
    (∀ span ∈ spans, ∀ rest value, construct (span.take (span.length % 2 ^ 32)) (span.drop (span.length % 2 ^ 32) ++ rest) = .ok value →
      span.length < 2 ^ 32) →
    Block.countEntries memory (before.length + (Block.entries spans).length) fuel before.length = .ok count →
    Block.readEntries memory construct count before.length = .ok values →
    (∀ span ∈ spans, span.length < 2 ^ 32) ∧ List.Forall₂ (fun span value => ∃ behind, construct span behind = .ok value) spans values := by
  induction spans with
  | nil =>
    intro before fuel count values here whole counted reads
    cases fuel with
    | zero => cases counted
    | succ fuel =>
      have ended : ¬ before.length < before.length + (Block.entries []).length := Nat.lt_irrefl _
      rw [Block.countEntries, if_neg ended] at counted
      cases counted
      cases reads
      exact ⟨fun span member => absurd member List.not_mem_nil, .nil⟩
  | cons txBytes rest ih =>
    intro before fuel count values here whole counted reads
    obtain ⟨first, later, place⟩ := entries_step here
    have finish : before.length + (Block.entries (txBytes :: rest)).length =
        (before ++ Block.entry txBytes).length + (Block.entries rest).length := by
      rw [entries_cons, List.length_append, List.length_append, Nat.add_assoc]
    cases fuel with
    | zero => cases counted
    | succ fuel =>
      rw [Block.countEntries, if_pos (by omega), sizeAt_entry first] at counted
      obtain ⟨stated, sameSize, counted⟩ := bind_ok.mp counted
      obtain ⟨fewer, countedLater, counted⟩ := bind_ok.mp counted
      cases counted
      obtain rfl := Except.ok.inj sameSize
      rw [Block.readEntries, sizeAt_entry first] at reads
      obtain ⟨again, sameSize, reads⟩ := bind_ok.mp reads
      obtain rfl := Except.ok.inj sameSize
      obtain ⟨value, constructed, reads⟩ := bind_ok.mp reads
      obtain ⟨others, readsLater, reads⟩ := bind_ok.mp reads
      cases reads
      rw [constructAt_span first (Nat.mod_le _ _)] at constructed
      have small := whole txBytes List.mem_cons_self _ _ constructed
      rw [Nat.mod_eq_of_lt small] at countedLater readsLater constructed
      rw [List.take_length] at constructed
      have next : before.length + txBytes.length + 4 = (before ++ Block.entry txBytes).length := by omega
      rw [finish, next] at countedLater
      rw [← place] at readsLater
      obtain ⟨fits, built⟩ := ih later (fun span member => whole span (List.mem_cons_of_mem _ member)) countedLater readsLater
      exact ⟨List.forall_mem_cons.mpr ⟨small, fits⟩, .cons ⟨_, constructed⟩ built⟩

/-- What is accepted under its own size is refused under a smaller one. -/
theorem Sized.whole {α : Type} {construct : Bytes → Bytes → Except Exception α} (sized : Sized construct) {span : Bytes} {value : α}
    (fits : span.length < 2 ^ 64) (built : ∀ behind, construct span behind = .ok value) (rest : Bytes) (other : α)
    (accepted : construct (span.take (span.length % 2 ^ 32)) (span.drop (span.length % 2 ^ 32) ++ rest) = .ok other) :
    span.length < 2 ^ 32 := by
  have same : span.take (span.length % 2 ^ 32) ++ (span.drop (span.length % 2 ^ 32) ++ rest) = span ++ rest := by
    rw [← List.append_assoc, List.take_append_drop]
  have lengths := sized same accepted (built rest)
  rw [List.length_take_of_le (Nat.mod_le _ _)] at lengths
  omega

theorem entry_le_entries {span : Bytes} (member : span ∈ spans) : span.length ≤ (Block.entries spans).length := by
  induction member with
  | head rest =>
    rw [entries_cons, List.length_append, entry_length]
    omega
  | tail other _ ih =>
    rw [entries_cons, List.length_append]
    omega

def statedHeight (bytes : Bytes) : UInt64 := UInt64.ofNat (bytesToUint ((bytes.drop 201).take 8))

/-- The fields in front of the transactions, which are all that is copied from the bytes. -/
def parsedFields (bytes : Bytes) (txs : List TxBlock) (txValidators : List TxValidator) : Block where
  validatorSig := (bytes.drop 0).take 65
  prevBlockHash := Hash.ofBytes ((bytes.drop 65).take 32)
  blockRandomness := Hash.ofBytes ((bytes.drop 97).take 32)
  validatorMerkleRoot := Hash.ofBytes ((bytes.drop 129).take 32)
  txMerkleRoot := Hash.ofBytes ((bytes.drop 161).take 32)
  timestamp := UInt64.ofNat (bytesToUint ((bytes.drop 193).take 8))
  nHeight := statedHeight bytes
  txValidators := txValidators
  txs := txs
  validator := 0
  finalized := false
  hash := 0

/-- A validator transaction and the check of its height. -/
def readValidatorTx (lib : Secp256k1) (sha3 : Bytes → Hash) (required nHeight : UInt64) (span behind : Bytes) :
    Except Exception TxValidator := do
  let tx ← TxValidator.ofBytes lib sha3 span behind required
  if tx.nHeight ≠ nHeight then throw "Invalid validator tx height"
  else pure tx

/-- The two lists of entries fill the bytes behind the fields, and meet where the bytes say so. -/
structure Tiles (bytes : Bytes) (txs validatorTxs : List Bytes) : Prop where
  long : 217 ≤ bytes.length
  behind : bytes.drop 217 = Block.entries txs ++ Block.entries validatorTxs
  start : txValidatorStart bytes = 217 + (Block.entries txs).length

section Parsing
variable {lib : Secp256k1} {sha3 : Bytes → Hash} {signer : Block.Signer} {required : UInt64} {bytes past : Bytes}

theorem ofBytes_ok_iff {parsed : Block} : Block.ofBytes lib sha3 signer bytes past required = .ok parsed ↔
    Block.parse lib sha3 signer bytes past required = .ok parsed := by
  unfold Block.ofBytes
  cases Block.parse lib sha3 signer bytes past required with
  | error what => simp
  | ok other => simp

theorem parse_eq (long : 217 ≤ bytes.length) : Block.parse lib sha3 signer bytes past required = (do
    let memory := bytes ++ past
    let txCount ← Block.countEntries memory (txValidatorStart bytes) (memory.length + 1) 217
    let valTxCount ← Block.countEntries memory bytes.length (memory.length + 1) (txValidatorStart bytes)
    let readTx := fun span behind => TxBlock.ofBytes lib sha3 span behind required
    let reading :=
      if 4 ≤ 1 ∨ txCount ≤ 2000 then Block.readEntries memory readTx txCount 217
      else Block.readInThreads memory readTx 4 txCount 217
    let txs ← reading
    let txValidators ← Block.readEntries memory (readValidatorTx lib sha3 required (statedHeight bytes)) valTxCount
      (txValidatorStart bytes)
    Block.ofParsed sha3 signer Block.verifySigBytes (parsedFields bytes txs txValidators)) := by
  unfold Block.parse
  rw [if_neg (Nat.not_lt.mpr long)]
  rfl

variable {txs validatorTxs : List Bytes}

theorem Tiles.memory (tiles : Tiles bytes txs validatorTxs) (past : Bytes) : ∃ front, front.length = 217 ∧
    (front ++ Block.entries txs).length = txValidatorStart bytes ∧
    bytes ++ past = front ++ (Block.entries txs ++ (Block.entries validatorTxs ++ past)) ∧
    bytes ++ past = (front ++ Block.entries txs) ++ (Block.entries validatorTxs ++ past) ∧
    bytes.length = txValidatorStart bytes + (Block.entries validatorTxs).length := by
  have front : (bytes.take 217).length = 217 := List.length_take_of_le tiles.long
  have whole : bytes = bytes.take 217 ++ (Block.entries txs ++ Block.entries validatorTxs) := by
    rw [← tiles.behind, List.take_append_drop]
  have size := congrArg List.length whole
  rw [List.length_append, List.length_append, front] at size
  refine ⟨bytes.take 217, front, ?_, ?_, ?_, ?_⟩
  · rw [List.length_append, front, tiles.start]
  · conv_lhs => rw [whole]
    rw [List.append_assoc, List.append_assoc]
  · conv_lhs => rw [whole]
    rw [List.append_assoc, List.append_assoc, List.append_assoc]
  · rw [tiles.start]
    omega

/-- Where both constructors answer without regard to what is behind a span, so does that of the block. -/
theorem Tiles.parse (tiles : Tiles bytes txs validatorTxs) (small : ∀ span ∈ txs, span.length < 2 ^ 32)
    (smallToo : ∀ span ∈ validatorTxs, span.length < 2 ^ 32)
    (answers : ∀ span ∈ txs, ∀ behind, TxBlock.ofBytes lib sha3 span behind required = TxBlock.ofBytes lib sha3 span [] required)
    (answersToo : ∀ span ∈ validatorTxs, ∀ behind,
      TxValidator.ofBytes lib sha3 span behind required = TxValidator.ofBytes lib sha3 span [] required) :
    Block.parse lib sha3 signer bytes past required = (do
      let txs ← txs.mapM fun span => TxBlock.ofBytes lib sha3 span [] required
      let txValidators ← validatorTxs.mapM fun span => readValidatorTx lib sha3 required (statedHeight bytes) span []
      Block.ofParsed sha3 signer Block.verifySigBytes (parsedFields bytes txs txValidators)) := by
  obtain ⟨front, place, start, here, there, finish⟩ := tiles.memory past
  have size := @List.length_append _ bytes past
  have begins := tiles.start
  have enough := length_le_entries txs
  have enoughToo := length_le_entries validatorTxs
  have checked : ∀ span ∈ validatorTxs, ∀ behind, readValidatorTx lib sha3 required (statedHeight bytes) span behind =
      readValidatorTx lib sha3 required (statedHeight bytes) span [] := by
    intro span member behind
    rw [readValidatorTx, answersToo span member behind]
    rfl
  have counted := @count_entries _ _ txs front ((bytes ++ past).length + 1) here small (by omega)
  have countedToo := @count_entries _ _ validatorTxs _ ((bytes ++ past).length + 1) there smallToo (by omega)
  have threads := @readInThreads_entries _ _ _ (fun span behind => TxBlock.ofBytes lib sha3 span behind required) txs front 4
    (by omega) here small
  have read := read_entries here small answers
  have readToo := read_entries there smallToo checked
  rw [place, ← begins] at counted
  rw [start, ← finish] at countedToo
  rw [place] at threads read
  rw [start] at readToo
  have counting : Block.countEntries (bytes ++ past) (txValidatorStart bytes) ((bytes ++ past).length + 1) 217 = pure txs.length := counted
  have countingToo : Block.countEntries (bytes ++ past) bytes.length ((bytes ++ past).length + 1) (txValidatorStart bytes) =
      pure validatorTxs.length := countedToo
  rw [parse_eq tiles.long]
  simp only [counting, countingToo, pure_bind, threads, ite_self, read, readToo]

end Parsing

private theorem field_eq {bytes rest fieldBytes : Bytes} {fields : List Bytes} (here : bytes = fields.flatten ++ rest) (index : Nat)
    (listed : fields[index]? = some fieldBytes) {start size : Nat} (place : ((fields.take index).map List.length).sum = start)
    (length : fieldBytes.length = size) : (bytes.drop start).take size = fieldBytes := by
  obtain ⟨inside, rfl⟩ := List.getElem?_eq_some_iff.mp listed
  have parts : fields = fields.take index ++ (fields[index] :: fields.drop (index + 1)) := by
    rw [← List.drop_eq_getElem_cons inside, List.take_append_drop]
  have whole : bytes = (fields.take index).flatten ++ (fields[index] ++ ((fields.drop (index + 1)).flatten ++ rest)) := by
    conv_lhs => rw [here, parts]
    simp only [List.flatten_append, List.flatten_cons, List.append_assoc]
  rw [whole, List.drop_left' (List.length_flatten.trans place), List.take_left' length]

private theorem fields_eq {bytes rest sig prev randomness validatorRoot txRoot timestamp nHeight start : Bytes}
    (here : bytes = [sig, prev, randomness, validatorRoot, txRoot, timestamp, nHeight, start].flatten ++ rest)
    (sigLength : sig.length = 65) (hashes : ∀ hash ∈ [prev, randomness, validatorRoot, txRoot], hash.length = 32)
    (numbers : ∀ number ∈ [timestamp, nHeight, start], number.length = 8) :
    (bytes.drop 0).take 65 = sig ∧ (bytes.drop 65).take 32 = prev ∧ (bytes.drop 97).take 32 = randomness ∧
      (bytes.drop 129).take 32 = validatorRoot ∧ (bytes.drop 161).take 32 = txRoot ∧ (bytes.drop 193).take 8 = timestamp ∧
      (bytes.drop 201).take 8 = nHeight ∧ (bytes.drop 209).take 8 = start := by
  simp only [List.forall_mem_cons, List.not_mem_nil, IsEmpty.forall_iff, implies_true, and_true] at hashes numbers
  obtain ⟨prevLength, randomnessLength, validatorLength, txLength⟩ := hashes
  obtain ⟨timestampLength, heightLength, startLength⟩ := numbers
  refine ⟨field_eq here 0 rfl rfl sigLength, field_eq here 1 rfl ?_ prevLength, field_eq here 2 rfl ?_ randomnessLength,
    field_eq here 3 rfl ?_ validatorLength, field_eq here 4 rfl ?_ txLength, field_eq here 5 rfl ?_ timestampLength,
    field_eq here 6 rfl ?_ heightLength, field_eq here 7 rfl ?_ startLength⟩
  all_goals
    simp only [List.take_succ_cons, List.take_zero, List.map_cons, List.map_nil, List.sum_cons, List.sum_nil]
    omega

theorem hash_ofBytes_get (hash : Hash) : Hash.ofBytes hash.get = hash := by
  rw [Hash.ofBytes, Hash.get, bytesToUint_uintToBytes (bytesRequired_le_iff.mp (bytesRequired_uint256 hash)), BitVec.ofNat_toNat,
    BitVec.setWidth_eq]

theorem uint64_ofBytes (value : UInt64) : UInt64.ofNat (bytesToUint (uintToBytes 8 value.toNat)) = value := by
  rw [bytesToUint_uintToBytes (bytesRequired_le_iff.mp (bytesRequired_uint64 value)), UInt64.ofNat_toNat]

theorem get_hash_ofBytes {bytes : Bytes} (size : bytes.length = 32) : (Hash.ofBytes bytes).get = bytes := by
  have fits := bytesToUint_lt bytes
  rw [size] at fits
  rw [Hash.ofBytes, Hash.get, BitVec.toNat_ofNat, Nat.mod_eq_of_lt (by norm_num at fits ⊢; exact fits), ← size,
    uintToBytes_bytesToUint]

variable {block : Block}

abbrev txSpans (block : Block) : List Bytes := block.txs.map fun tx => tx.rlpSerialize true

abbrev validatorSpans (block : Block) : List Bytes := block.txValidators.map fun tx => tx.rlpSerialize true

/-- Everything before the transactions. -/
def front (block : Block) : Bytes :=
  [block.validatorSig, block.prevBlockHash.get, block.blockRandomness.get, block.validatorMerkleRoot.get, block.txMerkleRoot.get,
    uintToBytes 8 block.timestamp.toNat, uintToBytes 8 block.nHeight.toNat,
    uintToBytes 8 (217 + (Block.entries (txSpans block)).length)].flatten

theorem front_length (size : block.validatorSig.length = 65) : (front block).length = 217 := by
  simp only [front, List.flatten_cons, List.flatten_nil, List.length_append, List.length_nil, Hash.get_length, uintToBytes_length, size]

theorem serializeBlock_eq (size : block.validatorSig.length = 65) :
    block.serializeBlock = front block ++ (Block.entries (txSpans block) ++ Block.entries (validatorSpans block)) := by
  have before : (block.validatorSig ++ block.serializeHeader).length + 8 = 217 := by
    simp only [Block.serializeHeader, List.length_append, Hash.get_length, uintToBytes_length, size]
  unfold Block.serializeBlock
  simp only [before]
  simp only [front, Block.serializeHeader, List.flatten_cons, List.flatten_nil, List.append_assoc, List.append_nil]

/-- What a block is written as has its fields and its transactions. -/
theorem serialized_tiles (size : block.validatorSig.length = 65) (fits : block.serializeBlock.length < 2 ^ 64) :
    Tiles block.serializeBlock (txSpans block) (validatorSpans block) ∧ statedHeight block.serializeBlock = block.nHeight ∧
    ∀ txs txValidators, parsedFields block.serializeBlock txs txValidators = { block with
      txs, txValidators
      validator := 0
      finalized := false
      hash := 0 } := by
  have written := serializeBlock_eq size
  have length := congrArg List.length written
  rw [List.length_append, List.length_append, front_length size] at length
  obtain ⟨sig, prev, randomness, validatorRoot, txRoot, timestamp, nHeight, start⟩ := fields_eq written size
    (by simp only [List.forall_mem_cons, Hash.get_length, List.not_mem_nil, IsEmpty.forall_iff, implies_true, and_true])
    (by simp only [List.forall_mem_cons, uintToBytes_length, List.not_mem_nil, IsEmpty.forall_iff, implies_true, and_true])
  have height : statedHeight block.serializeBlock = block.nHeight := by
    rw [statedHeight, nHeight, uint64_ofBytes]
  refine ⟨⟨by omega, ?_, ?_⟩, height, fun txs txValidators => ?_⟩
  · rw [written, List.drop_left' (front_length size)]
  · rw [txValidatorStart, start, bytesToUint_uintToBytes (by omega)]
  · simp only [parsedFields, sig, prev, randomness, validatorRoot, txRoot, timestamp, hash_ofBytes_get, uint64_ofBytes, height]

end OrbiterSDK.Proofs.BlockEntries
