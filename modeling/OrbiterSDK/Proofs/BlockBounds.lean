import OrbiterSDK.Proofs.TxBounds

/-! How far the constructor of a block reads. Sizes are taken from the bytes: first all of them, for the counts, then
each one again before its transaction. -/

namespace OrbiterSDK.Proofs.BlockBounds
open Lib Utils Tx ChainIds BlockEntries BlockShapes TxBounds

section Loops
variable {memory : Bytes} {finish index count : Nat}

def sizeOf (memory : Bytes) (index : Nat) : Nat := bytesToUint ((memory.drop index).take 4)

theorem sizeAt_inside (inside : index + 4 ≤ memory.length) : Block.sizeAt memory index = .ok (sizeOf memory index) := if_pos inside

theorem sizeAt_outside (outside : memory.length < index + 4) : Block.sizeAt memory index = .error pastEnd := if_neg (Nat.not_le.mpr outside)

/-- The sizes that are counted up to an end all stand inside of the memory. -/
inductive Counted (memory : Bytes) (finish : Nat) : Nat → Nat → Prop where
  | done {index : Nat} (ended : finish ≤ index) : Counted memory finish index 0
  | entry {index count : Nat} (more : index < finish) (inside : index + 4 ≤ memory.length)
      (later : Counted memory finish (index + 4 + sizeOf memory index) count) : Counted memory finish index (count + 1)

theorem Counted.few (counted : Counted memory finish index count) : count ≤ memory.length - index := by
  induction counted with
  | done => exact Nat.zero_le _
  | entry more inside later ih => omega

theorem Counted.loop (counted : Counted memory finish index count) : ∀ {fuel : Nat}, count < fuel →
    Block.countEntries memory finish fuel index = .ok count := by
  induction counted with
  | done ended =>
    intro fuel enough
    obtain ⟨fewer, rfl⟩ := Nat.exists_eq_succ_of_ne_zero (Nat.ne_zero_of_lt enough)
    exact if_neg (Nat.not_lt.mpr ended)
  | @entry index count more inside later ih =>
    intro fuel enough
    obtain ⟨fewer, rfl⟩ := Nat.exists_eq_succ_of_ne_zero (Nat.ne_zero_of_lt enough)
    rw [Block.countEntries, if_pos more, sizeAt_inside inside]
    have rest := ih (Nat.lt_of_succ_lt_succ enough)
    rw [Nat.add_right_comm] at rest
    exact bind_ok.mpr ⟨_, rfl, bind_ok.mpr ⟨count, rest, rfl⟩⟩

theorem counted_of_count : ∀ {fuel index count : Nat}, Block.countEntries memory finish fuel index = .ok count →
    Counted memory finish index count := by
  intro fuel
  induction fuel with
  | zero => exact nofun
  | succ fuel ih =>
    intro index count counts
    rw [Block.countEntries] at counts
    split at counts
    case isFalse passed =>
      obtain rfl := Except.ok.inj counts
      exact .done (Nat.not_lt.mp passed)
    case isTrue more =>
      obtain ⟨size, sized, counts⟩ := bind_ok.mp counts
      obtain ⟨fewer, later, counts⟩ := bind_ok.mp counts
      obtain rfl := Except.ok.inj counts
      by_cases inside : index + 4 ≤ memory.length
      · obtain rfl := Except.ok.inj (sized.symm.trans (sizeAt_inside inside))
        rw [Nat.add_right_comm] at later
        exact .entry more inside (ih later)
      · cases sized.symm.trans (sizeAt_outside (Nat.lt_of_not_le inside))

/-- A loop that counts does so inside of the memory, or reads past its end. -/
theorem counts_iff {α : Type} {next : Nat → Except Exception α} :
    (Block.countEntries memory finish (memory.length + 1) index >>= next) ≠ .error pastEnd ↔
      ∃ count, Counted memory finish index count ∧ next count ≠ .error pastEnd := by
  cases outcome : Block.countEntries memory finish (memory.length + 1) index with
  | error what =>
    obtain rfl := countEntries_error (Nat.le_add_left _ index) outcome
    apply iff_of_false (fun inside => inside rfl)
    rintro ⟨count, counted, _⟩
    have few := counted.few
    cases outcome.symm.trans (counted.loop (by omega))
  | ok count =>
    constructor
    · exact fun inside => ⟨count, counted_of_count outcome, inside⟩
    · rintro ⟨other, counted, inside⟩
      have few := counted.few
      obtain rfl := Except.ok.inj (outcome.symm.trans (counted.loop (by omega)))
      exact inside

theorem Counted.skip : ∀ {skipped index : Nat}, Counted memory finish index (skipped + count) →
    ∃ next, Block.skipEntries memory skipped index = .ok next ∧ Counted memory finish next count := by
  intro skipped
  induction skipped with
  | zero =>
    intro index counted
    exact ⟨index, rfl, Nat.zero_add count ▸ counted⟩
  | succ skipped ih =>
    intro index counted
    rw [Nat.add_right_comm] at counted
    cases counted with
    | entry more inside later =>
      obtain ⟨next, skips, rest⟩ := ih later
      refine ⟨next, ?_, rest⟩
      rw [Block.skipEntries, sizeAt_inside inside]
      exact skips

/-- The threads can be started where all sizes stand inside of the memory. -/
theorem Counted.threads {counts : List Nat} : ∀ {index : Nat}, Counted memory finish index counts.sum →
    ∃ threads, Block.threadStarts memory counts index = .ok threads := by
  induction counts with
  | nil => exact fun _ => ⟨[], rfl⟩
  | cons nTxs rest ih =>
    intro index counted
    rw [List.sum_cons] at counted
    cases rest with
    | nil => exact ⟨[(index, nTxs)], rfl⟩
    | cons more rest =>
      obtain ⟨next, skips, later⟩ := counted.skip
      obtain ⟨threads, started⟩ := ih later
      exact ⟨_, bind_ok.mpr ⟨_, skips, bind_ok.mpr ⟨threads, started, rfl⟩⟩⟩

theorem Counted.readInThreads {α : Type} {construct : Bytes → Bytes → Except Exception α} {thrNum : Nat} (some : 0 < thrNum)
    (counted : Counted memory finish index count) :
    Block.readInThreads memory construct thrNum count index = Block.readEntries memory construct count index := by
  have sum := txsPerThr_sum some count
  obtain ⟨threads, started⟩ := (sum.symm ▸ counted : Counted memory finish index (Block.txsPerThr thrNum count).sum).threads
  have read := @threads_read _ _ construct _ _ _ started
  rw [sum] at read
  rw [← read, Block.readInThreads, started]
  rfl

end Loops

variable {α β : Type} {memory : Bytes}

/-- Each transaction lies inside of the memory and is read inside of it, and if it is accepted, so is what comes after it. -/
def EntriesInside (memory : Bytes) (rules : Nat → List (Rule UInt8)) (accepts : Bytes → Bytes → Bool) (next : Prop) : Nat → Nat → Prop
  | 0, _ => next
  | count + 1, index =>
    let size := sizeOf memory index
    let start := index + 4
    start + size ≤ memory.length ∧ Complete (rules size) (memory.drop start) ∧
      (accepts ((memory.drop start).take size) (memory.drop (start + size)) = true →
        EntriesInside memory rules accepts next count (start + size))

variable {construct : Bytes → Bytes → Except Exception α} {rules : Nat → List (Rule UInt8)}

theorem constructAt_inside {index size : Nat} (inside : index + size ≤ memory.length) : Block.constructAt memory construct index size =
    construct ((memory.drop index).take size) (memory.drop (index + size)) := if_pos inside

theorem entries_inside_iff {next : Prop}
    (confined : ∀ span behind, construct span behind ≠ .error pastEnd ↔ Complete (rules span.length) (span ++ behind)) :
    ∀ {count index : Nat} {after : List α → Except Exception β}, (∀ values, after values ≠ .error pastEnd ↔ next) →
      ((Block.readEntries memory construct count index >>= after) ≠ .error pastEnd ↔
        EntriesInside memory rules (fun span behind => (construct span behind).isOk) next count index) := by
  intro count
  induction count with
  | zero => exact fun ends => ends []
  | succ count ih =>
    intro index after ends
    rw [Block.readEntries, EntriesInside]
    by_cases sized : index + 4 ≤ memory.length
    case neg =>
      rw [sizeAt_outside (Nat.lt_of_not_le sized)]
      exact iff_of_false (fun inside => inside rfl) fun inside => sized (Nat.le_of_add_right_le inside.1)
    rw [sizeAt_inside sized]
    generalize sizeOf memory index = size
    by_cases spans : index + 4 + size ≤ memory.length
    case neg =>
      have outside : Block.constructAt memory construct (index + 4) size = .error pastEnd := if_neg spans
      refine iff_of_false (fun inside => inside ?_) fun inside => spans inside.1
      change (Block.constructAt memory construct (index + 4) size >>= _) >>= after = _
      rw [outside]
      rfl
    have length : ((memory.drop (index + 4)).take size).length = size := by
      rw [List.length_take, List.length_drop]
      omega
    have whole : (memory.drop (index + 4)).take size ++ memory.drop (index + 4 + size) = memory.drop (index + 4) := by
      rw [← @List.drop_drop _ size (index + 4), List.take_append_drop]
    have inside := confined ((memory.drop (index + 4)).take size) (memory.drop (index + 4 + size))
    rw [length, whole] at inside
    change (Block.constructAt memory construct (index + 4) size >>= _) >>= after ≠ _ ↔ _
    rw [constructAt_inside spans, ← inside]
    cases built : construct ((memory.drop (index + 4)).take size) (memory.drop (index + 4 + size)) with
    | error what =>
      constructor
      · exact fun inside => ⟨spans, fun same => inside (congrArg _ (Except.error.inj same)), fun accepted => absurd accepted Bool.false_ne_true⟩
      · exact fun inside same => inside.2.1 (congrArg _ (Except.error.inj same))
    | ok value =>
      have later := @ih (index + 4 + size) (fun values => after (value :: values)) fun values => ends (value :: values)
      have shape : ((Except.ok value : Except Exception α) >>= fun value =>
          (Block.readEntries memory construct count (index + 4 + size) >>= fun values => pure (value :: values))) >>= after =
          Block.readEntries memory construct count (index + 4 + size) >>= fun values => after (value :: values) := by
        change (Block.readEntries memory construct count (index + 4 + size) >>= fun values => pure (value :: values)) >>= after = _
        rw [bind_assoc]
        rfl
      rw [shape, later]
      exact ⟨fun inside => ⟨spans, ok_ne_error, fun _ => inside⟩, fun inside => inside.2.2 rfl⟩

variable {lib : Secp256k1} {sha3 : Bytes → Hash} {signer : Block.Signer} {required : UInt64} {bytes past : Bytes}

/-- All sizes stand inside of the memory, and so does every transaction that is read. -/
def BlockInside (lib : Secp256k1) (sha3 : Bytes → Hash) (required : UInt64) (bytes past : Bytes) : Prop :=
  bytes.length < 217 ∨ ∃ txCount, Counted (bytes ++ past) (txValidatorStart bytes) 217 txCount ∧
    ∃ valTxCount, Counted (bytes ++ past) bytes.length (txValidatorStart bytes) valTxCount ∧
      EntriesInside (bytes ++ past) txRules (fun span behind => (TxBlock.ofBytes lib sha3 span behind required).isOk)
        (EntriesInside (bytes ++ past) validatorRules
          (fun span behind => (readValidatorTx lib sha3 required (statedHeight bytes) span behind).isOk) True
          valTxCount (txValidatorStart bytes))
        txCount 217

theorem readValidatorTx_inside_iff {nHeight : UInt64} (span behind : Bytes) :
    readValidatorTx lib sha3 required nHeight span behind ≠ .error pastEnd ↔ Complete (validatorRules span.length) (span ++ behind) := by
  rw [← @validator_inside_iff lib sha3 required span behind, readValidatorTx]
  cases TxValidator.ofBytes lib sha3 span behind required with
  | error what => exact ⟨fun differ same => differ (congrArg _ (Except.error.inj same)), fun differ same => differ (congrArg _ (Except.error.inj same))⟩
  | ok tx =>
    refine iff_of_true ?_ ok_ne_error
    change (if tx.nHeight ≠ nHeight then _ else _) ≠ _
    split
    · exact fun same => absurd (Except.error.inj same) (by decide)
    · exact ok_ne_error

theorem parse_inside_iff : Block.parse lib sha3 signer bytes past required ≠ .error pastEnd ↔ BlockInside lib sha3 required bytes past := by
  by_cases long : 217 ≤ bytes.length
  case neg =>
    have short : bytes.length < 217 := Nat.lt_of_not_le long
    refine iff_of_true ?_ (.inl short)
    rw [Block.parse, if_pos short]
    exact fun same => absurd (Except.error.inj same) (by decide)
  have inside : BlockInside lib sha3 required bytes past ↔ _ := or_iff_right (Nat.not_lt.mpr long)
  rw [parse_eq long, inside]
  apply counts_iff.trans
  apply exists_congr
  intro txCount
  apply and_congr_right
  intro counted
  apply counts_iff.trans
  apply exists_congr
  intro valTxCount
  apply and_congr_right
  intro countedToo
  have reading : (if 4 ≤ 1 ∨ txCount ≤ 2000 then
        Block.readEntries (bytes ++ past) (fun span behind => TxBlock.ofBytes lib sha3 span behind required) txCount 217
      else Block.readInThreads (bytes ++ past) (fun span behind => TxBlock.ofBytes lib sha3 span behind required) 4 txCount 217) =
      Block.readEntries (bytes ++ past) (fun span behind => TxBlock.ofBytes lib sha3 span behind required) txCount 217 := by
    split
    · rfl
    · exact counted.readInThreads (by decide)
  dsimp only
  rw [reading]
  apply entries_inside_iff fun span behind => tx_inside_iff
  intro txs
  apply entries_inside_iff readValidatorTx_inside_iff
  intro txValidators
  exact iff_of_true (ofParsed_ne_pastEnd _) trivial

/-- The constructor of a block reads past the end of what is readable exactly if it asks for a size or an item that is cut off there. -/
theorem block_inside_iff : Block.ofBytes lib sha3 signer bytes past required ≠ .error pastEnd ↔ BlockInside lib sha3 required bytes past := by
  rw [← @parse_inside_iff lib sha3 signer required bytes past]
  unfold Block.ofBytes
  cases Block.parse lib sha3 signer bytes past required with
  | ok block => exact iff_of_true ok_ne_error ok_ne_error
  | error what =>
    dsimp only
    split
    case isTrue same =>
      subst same
      rfl
    case isFalse other =>
      refine iff_of_true (fun same => ?_) fun same => other (Except.error.inj same)
      exact append_ne_pastEnd (by decide) (by decide) what (Except.error.inj same)

end OrbiterSDK.Proofs.BlockBounds
