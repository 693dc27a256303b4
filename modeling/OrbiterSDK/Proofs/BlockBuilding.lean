import OrbiterSDK.Syncer
import OrbiterSDK.Proofs.BlockAcceptance
import OrbiterSDK.Proofs.RandomOrder

/-! When a full mempool of validator transactions can be made into a block. What is let into the
mempool need not be anything that a block can have. -/

namespace OrbiterSDK.Proofs.BlockBuilding
open Lib RdPoS Syncer Admission BlockAcceptance

variable {sha3 : Bytes → Hash} {rdpos : RdPoS} {db : DB} {latest : Block} {functor : Functor} {mempool : List TxValidator}

theorem findTx_cons {i : Nat} {validator : Address} (here : rdpos.randomList[i]? = some validator) (first : TxValidator) (rest : List TxValidator) :
    findTx rdpos functor i (first :: rest) = if first.from = validator then
        first.getFunctor >>= fun another => if another = functor then pure (some first) else findTx rdpos functor i rest
      else findTx rdpos functor i rest := by
  rw [findTx, randomAt_ok.mpr here]
  rfl

/-- The transaction of a validator is found wherever it stands. -/
theorem findTx_found {i : Nat} {validator : Address} (here : rdpos.randomList[i]? = some validator)
    (readable : ∀ tx ∈ mempool, ∃ functor, tx.getFunctor = .ok functor)
    (present : ∃ tx ∈ mempool, tx.from = validator ∧ tx.getFunctor = .ok functor) :
    ∃ tx ∈ mempool, tx.from = validator ∧ tx.getFunctor = .ok functor ∧ findTx rdpos functor i mempool = .ok (some tx) := by
  induction mempool with
  | nil =>
    obtain ⟨tx, member, _⟩ := present
    cases member
  | cons first rest ih =>
    obtain ⟨another, reads⟩ := readable first List.mem_cons_self
    rw [findTx_cons here, reads]
    by_cases right : first.from = validator ∧ another = functor
    · refine ⟨first, List.mem_cons_self, right.1, right.2 ▸ reads, ?_⟩
      rw [if_pos right.1]
      exact if_pos right.2
    · have skipped : (if first.from = validator then
          Except.ok another >>= fun another => if another = functor then pure (some first) else findTx rdpos functor i rest
          else findTx rdpos functor i rest) = findTx rdpos functor i rest := by
        by_cases sender : first.from = validator
        · rw [if_pos sender]
          exact if_neg fun same => right ⟨sender, same⟩
        · exact if_neg sender
      have remaining : ∃ tx ∈ rest, tx.from = validator ∧ tx.getFunctor = .ok functor := by
        obtain ⟨tx, member, sender, same⟩ := present
        cases List.mem_cons.mp member with
        | inl here =>
          rw [here] at sender same
          exact absurd ⟨sender, Except.ok.inj (reads.symm.trans same)⟩ right
        | inr inside => exact ⟨tx, inside, sender, same⟩
      obtain ⟨tx, member, sender, same, found⟩ := ih (fun tx member => readable tx (List.mem_cons_of_mem _ member)) remaining
      exact ⟨tx, List.mem_cons_of_mem _ member, sender, same, skipped.trans found⟩

theorem findTx_mem {i : Nat} {tx : TxValidator} (found : findTx rdpos functor i mempool = .ok (some tx)) : tx ∈ mempool := by
  induction mempool with
  | nil => cases found
  | cons first rest ih =>
    rw [findTx] at found
    obtain ⟨validator, _, found⟩ := bind_ok.mp found
    split at found
    case isTrue =>
      obtain ⟨another, _, found⟩ := bind_ok.mp found
      split at found
      case isTrue =>
        cases found
        exact List.mem_cons_self
      case isFalse => exact List.mem_cons_of_mem _ (ih found)
    case isFalse => exact List.mem_cons_of_mem _ (ih found)

/-- Transactions with one functor, from the validators in their order. -/
def Collected (rdpos : RdPoS) (functor : Functor) (mempool : List TxValidator) : Nat → List TxValidator → Prop
  | _, [] => True
  | i, tx :: rest => (rdpos.randomList[i]? = some tx.from ∧ tx ∈ mempool ∧ tx.getFunctor = .ok functor) ∧ Collected rdpos functor mempool (i + 1) rest

theorem Collected.at {txs : List TxValidator} : ∀ {i k : Nat} {tx : TxValidator}, Collected rdpos functor mempool i txs → txs[k]? = some tx →
    rdpos.randomList[i + k]? = some tx.from ∧ tx ∈ mempool ∧ tx.getFunctor = .ok functor := by
  induction txs with
  | nil =>
    intro i k tx _ here
    cases here
  | cons first rest ih =>
    intro i k tx collected here
    cases k with
    | zero =>
      cases here
      exact collected.1
    | succ k =>
      rw [Nat.add_succ, ← Nat.succ_add]
      exact ih collected.2 here

/-- When each validator has sent a transaction with the functor, the loop ends after as many turns as there are validators. -/
theorem orderTxs_done (readable : ∀ tx ∈ mempool, ∃ functor, tx.getFunctor = .ok functor)
    (supplied : ∀ k < rdpos.minValidators.toNat, ∃ validator, rdpos.randomList[k + 1]? = some validator ∧
      ∃ tx ∈ mempool, tx.from = validator ∧ tx.getFunctor = .ok functor) (turns : Nat) :
    ∀ {txs : List TxValidator}, txs.length + turns = rdpos.minValidators.toNat →
      ∃ rest, orderTxs rdpos functor mempool (turns + 1) (txs.length + 1) txs = some (.ok (txs ++ rest)) ∧ rest.length = turns ∧
        Collected rdpos functor mempool (txs.length + 1) rest := by
  induction turns with
  | zero =>
    intro txs length
    refine ⟨[], ?_, rfl, trivial⟩
    rw [List.append_nil]
    exact if_pos length
  | succ turns ih =>
    intro txs length
    obtain ⟨validator, here, present⟩ := supplied txs.length (by omega)
    obtain ⟨tx, member, sender, right, found⟩ := findTx_found here readable present
    have longer : (txs ++ [tx]).length = txs.length + 1 := List.length_append
    obtain ⟨rest, done, size, collected⟩ := @ih (txs ++ [tx]) (by omega)
    rw [longer] at done collected
    refine ⟨tx :: rest, ?_, congrArg Nat.succ size, ⟨sender ▸ here, member, right⟩, collected⟩
    rw [orderTxs, if_neg (by omega), found]
    dsimp only
    rw [done, List.append_assoc, List.singleton_append]

theorem orderTxs_mem (fuel : Nat) : ∀ {i : Nat} {txs done : List TxValidator}, (∀ tx ∈ txs, tx ∈ mempool) →
    orderTxs rdpos functor mempool fuel i txs = some (.ok done) → done.length = rdpos.minValidators.toNat ∧ ∀ tx ∈ done, tx ∈ mempool := by
  induction fuel with
  | zero =>
    intro i txs done _ finished
    cases finished
  | succ fuel ih =>
    intro i txs done inside finished
    rw [orderTxs] at finished
    split at finished
    case isTrue enough =>
      cases finished
      exact ⟨enough, inside⟩
    case isFalse =>
      split at finished
      case h_1 => cases finished
      case h_2 => exact ih inside finished
      case h_3 tx found =>
        apply ih _ finished
        intro other member
        cases List.mem_append.mp member with
        | inl older => exact inside other older
        | inr new => exact List.mem_singleton.mp new ▸ findTx_mem found

/-- As long as a transaction is missing, the loop goes on. -/
theorem orderTxs_stuck {i : Nat} {txs : List TxValidator} (missing : findTx rdpos functor i mempool = .ok none)
    (short : txs.length ≠ rdpos.minValidators.toNat) (fuel : Nat) : orderTxs rdpos functor mempool fuel i txs = none := by
  induction fuel with
  | zero => rfl
  | succ fuel ih =>
    rw [orderTxs, if_neg short, missing]
    exact ih

/-- Without an end of the second loop there is no block. -/
theorem orderedBlock_waits {order : Walk} {fuel : Nat} {randomHashTxs : List TxValidator}
    (hashes : orderTxs rdpos randomHashHash ((order.walk rdpos.validatorMempool).map Prod.snd) fuel 1 [] = some (.ok randomHashTxs))
    (seeds : orderTxs rdpos randomSeedHash ((order.walk rdpos.validatorMempool).map Prod.snd) fuel 1 [] = none) :
    orderedBlock rdpos order latest fuel = none := by
  rw [orderedBlock, hashes]
  dsimp only
  rw [seeds]

theorem appended (txs : List TxValidator) : ∀ {block : Block}, block.finalized = false →
    txs.foldl (fun block tx => (block.appendTxValidator tx).2) block = { block with txValidators := block.txValidators ++ txs } := by
  induction txs with
  | nil =>
    intro block _
    rw [List.append_nil]
    rfl
  | cons tx rest ih =>
    intro block draft
    have step : (block.appendTxValidator tx).2 = { block with txValidators := block.txValidators ++ [tx] } := by
      rw [Block.appendTxValidator, if_neg (by rw [draft]; decide)]
    have rest := @ih { block with txValidators := block.txValidators ++ [tx] } draft
    rw [List.append_assoc, List.singleton_append] at rest
    rw [List.foldl_cons, step]
    exact rest

/-- What the transactions of a full mempool must be like for a block. -/
structure Usable (sha3 : Bytes → Hash) (rdpos : RdPoS) : Prop where
  narrow : rdpos.minValidators.toNat < 2 ^ 31
  valid : ∀ tx ∈ pooled rdpos, getTxValidatorFunction tx ≠ .invalid
  commits : ∀ hashTx ∈ pooled rdpos, ∀ seedTx ∈ pooled rdpos, hashTx.from = seedTx.from → getTxValidatorFunction hashTx = .randomHash →
    getTxValidatorFunction seedTx = .randomSeed → hashTx.data.drop 4 = (sha3 (seedTx.data.drop 4)).get

/-- The block is built, and it is valid when the first validator has signed it, with whatever other transactions. -/
def Succeeds (sha3 : Bytes → Hash) (rdpos : RdPoS) (latest : Block) : Prop :=
  ∀ order : Walk, ∃ fuel block, orderedBlock rdpos order latest fuel = some (.ok block) ∧
    ∀ txs sign recover newTimestamp signed final, latest.timestamp ≤ newTimestamp →
      { block with txs }.finalize sha3 ⟨parseTxSeedList sha3, sign, recover⟩ newTimestamp = (signed, final) →
      rdpos.randomList[0]? = some (recover final.validatorSig final.hash) →
      signed = true ∧ ∀ other : Walk, validateBlock sha3 other rdpos final = .ok true

theorem senders_eq {senders : List Address} (length : senders.length = rdpos.minValidators.toNat)
    (placed : ∀ k < senders.length, senders[k]? = rdpos.randomList[k + 1]?) : senders = participants rdpos := by
  apply List.ext_getElem?
  intro k
  unfold participants
  by_cases inside : k < senders.length
  · rw [placed k inside, List.getElem?_take_of_lt (length ▸ inside), List.getElem?_drop, Nat.add_comm]
  · rw [List.getElem?_eq_none (Nat.le_of_not_lt inside), List.getElem?_take_eq_none (length ▸ Nat.le_of_not_lt inside)]

theorem collected_senders {txs : List TxValidator} (length : txs.length = rdpos.minValidators.toNat)
    (collected : Collected rdpos functor mempool 1 txs) : txs.map TxValidator.from = participants rdpos := by
  apply senders_eq ((List.length_map _).trans length)
  intro k inside
  rw [List.length_map] at inside
  have here := List.getElem?_eq_getElem inside
  rw [List.getElem?_map, here, Option.map_some, Nat.add_comm]
  exact (collected.at here).1.symm

theorem pooled_inj (orderly : Orderly rdpos latest) {first second : TxValidator} (left : first ∈ pooled rdpos) (right : second ∈ pooled rdpos)
    (same : first.hash = second.hash) : first = second := by
  obtain ⟨entry, inside, rfl⟩ := List.mem_map.mp left
  obtain ⟨other, insideToo, rfl⟩ := List.mem_map.mp right
  have key : entry.1 = other.1 := (orderly.keyed entry inside).trans (same.trans (orderly.keyed other insideToo).symm)
  exact congrArg Prod.snd (List.inj_on_of_nodup_map orderly.once inside insideToo key)

section Full
variable (orderly : Orderly rdpos latest) (full : rdpos.validatorMempool.length = 2 * rdpos.minValidators.toNat)
  (shuffled : rdpos.randomList.Nodup)
include orderly full shuffled

/-- All validators that take part are there, and each of them has sent two transactions. -/
theorem two_each : (participants rdpos).length = rdpos.minValidators.toNat ∧
    ∀ sender ∈ participants rdpos, (sentBy rdpos sender).length = 2 := by
  have size : (pooled rdpos).length = 2 * rdpos.minValidators.toNat := (List.length_map _).trans full
  have short : (participants rdpos).length ≤ rdpos.minValidators.toNat := List.length_take_le _ _
  obtain ⟨bound, reached⟩ := @quotas _ _ _ TxValidator.from 2 (participants rdpos) (pooled rdpos)
    (participants_nodup shuffled) orderly.senders fun sender _ => orderly.few sender
  exact ⟨by omega, reached (by omega)⟩

theorem participant_at {k : Nat} (inside : k < rdpos.minValidators.toNat) :
    ∃ validator ∈ participants rdpos, rdpos.randomList[k + 1]? = some validator := by
  have length := (two_each orderly full shuffled).1
  have here := List.getElem?_eq_getElem (length ▸ inside : k < (participants rdpos).length)
  refine ⟨_, List.mem_of_getElem? here, ?_⟩
  rw [← here, participants, List.getElem?_take_of_lt inside, List.getElem?_drop, Nat.add_comm]

/-- If only the two functions are used, each validator has sent one transaction for each of them. -/
theorem supplied (valid : ∀ tx ∈ pooled rdpos, getTxValidatorFunction tx ≠ .invalid) (functor : Functor)
    (known : functor = randomHashHash ∨ functor = randomSeedHash) {k : Nat} (inside : k < rdpos.minValidators.toNat) :
    ∃ validator, rdpos.randomList[k + 1]? = some validator ∧ ∃ tx ∈ pooled rdpos, tx.from = validator ∧ tx.getFunctor = .ok functor := by
  obtain ⟨validator, member, here⟩ := participant_at orderly full shuffled inside
  refine ⟨validator, here, ?_⟩
  have two := (two_each orderly full shuffled).2 validator member
  have apart := orderly.apart validator
  obtain ⟨first, second, pair⟩ := List.length_eq_two.mp two
  rw [pair] at apart
  obtain ⟨left, right, firstReads, secondReads, differ⟩ := List.pairwise_pair.mp apart
  have sent {tx : TxValidator} (listed : tx ∈ [first, second]) : tx ∈ pooled rdpos ∧ tx.from = validator := by
    obtain ⟨inside, sender⟩ := List.mem_filter.mp (pair ▸ listed : tx ∈ sentBy rdpos validator)
    exact ⟨inside, of_decide_eq_true sender⟩
  have firstSent := sent List.mem_cons_self
  have secondSent := sent (List.mem_cons_of_mem _ (List.mem_singleton_self second))
  have either {tx : TxValidator} {found : Functor} (inside : tx ∈ pooled rdpos) (reads : tx.getFunctor = .ok found) :
      found = randomHashHash ∨ found = randomSeedHash := by
    cases functor_of_function (valid tx inside) with
    | inl hash => exact .inl (Except.ok.inj (reads.symm.trans hash.2))
    | inr seed => exact .inr (Except.ok.inj (reads.symm.trans seed.2))
  have leftKnown := either firstSent.1 firstReads
  have rightKnown := either secondSent.1 secondReads
  by_cases here : left = functor
  · exact ⟨first, firstSent.1, firstSent.2, here ▸ firstReads⟩
  · have there : right = functor := by
      rcases leftKnown with rfl | rfl <;> rcases rightKnown with rfl | rfl <;> rcases known with rfl | rfl <;> first | rfl | contradiction
    exact ⟨second, secondSent.1, secondSent.2, there ▸ secondReads⟩

end Full

theorem function_of_functor {tx : TxValidator} (valid : getTxValidatorFunction tx ≠ .invalid) :
    (tx.getFunctor = .ok randomHashHash → getTxValidatorFunction tx = .randomHash) ∧
      (tx.getFunctor = .ok randomSeedHash → getTxValidatorFunction tx = .randomSeed) := by
  have apart : randomHashHash ≠ randomSeedHash := by decide
  cases functor_of_function valid with
  | inl hash => exact ⟨fun _ => hash.1, fun seed => absurd (Except.ok.inj (hash.2.symm.trans seed)) apart⟩
  | inr seed => exact ⟨fun hash => absurd (Except.ok.inj (hash.symm.trans seed.2)) apart, fun _ => seed.1⟩

theorem PlacedFrom.of_at {block : Block} {half : List Pair} : ∀ {i : Nat},
    (∀ k entry, half[k]? = some entry → Placed rdpos block (i + k) entry) → PlacedFrom rdpos block i half := by
  induction half with
  | nil =>
    intro i _
    trivial
  | cons first rest ih =>
    intro i placed
    refine ⟨placed 0 first rfl, ih fun k entry here => ?_⟩
    rw [Nat.succ_add, ← Nat.add_succ]
    exact placed (k + 1) entry here

theorem collected_matched (orderly : Orderly rdpos latest) (shuffled : rdpos.randomList.Nodup) (usable : Usable sha3 rdpos) {block : Block}
    {hashTxs seedTxs : List TxValidator} (hashes : Collected rdpos randomHashHash (pooled rdpos) 1 hashTxs)
    (seeds : Collected rdpos randomSeedHash (pooled rdpos) 1 seedTxs) (hashCount : hashTxs.length = rdpos.minValidators.toNat)
    (seedCount : seedTxs.length = rdpos.minValidators.toNat) (contents : block.txValidators = hashTxs ++ seedTxs) :
    Matched sha3 rdpos block (hashTxs.zip seedTxs) := by
  have placed (k : Nat) (entry : Pair) (here : (hashTxs.zip seedTxs)[k]? = some entry) : Placed rdpos block (0 + k) entry := by
    obtain ⟨hash, seed⟩ := List.getElem?_zip_eq_some.mp here
    have inside := (List.getElem?_eq_some_iff.mp hash).1
    have hashAt := hashes.at hash
    have seedAt := seeds.at seed
    rw [Nat.zero_add]
    constructor
    · rw [contents, List.getElem?_append_left inside, hash]
    · rw [contents, List.getElem?_append_right (by omega), hashCount, Nat.add_sub_cancel, seed]
    · rw [Nat.add_comm]
      exact hashAt.1
    · exact Option.some.inj (seedAt.1.symm.trans hashAt.1)
  constructor
  · rw [List.length_zip, hashCount, seedCount, Nat.min_self]
  · exact PlacedFrom.of_at placed
  · have keys : BlockAcceptance.hashes (hashTxs.zip seedTxs) = hashTxs.map TxValidator.hash := by
      have firsts : (hashTxs.zip seedTxs).map Prod.fst = hashTxs := List.map_fst_zip (by omega)
      have keys := congrArg (List.map TxValidator.hash) firsts
      rw [List.map_map] at keys
      exact keys
    rw [keys]
    apply List.Nodup.map_on
    · intro first left second right same
      obtain ⟨i, first⟩ := List.getElem?_of_mem left
      obtain ⟨j, second⟩ := List.getElem?_of_mem right
      exact pooled_inj orderly (hashes.at first).2.1 (hashes.at second).2.1 same
    · have senders := collected_senders hashCount hashes
      exact List.Nodup.of_map TxValidator.from (senders ▸ participants_nodup shuffled)
  · intro entry member
    obtain ⟨k, here⟩ := List.getElem?_of_mem member
    obtain ⟨hash, seed⟩ := List.getElem?_zip_eq_some.mp here
    obtain ⟨_, hashPooled, hashFunctor⟩ := hashes.at hash
    obtain ⟨_, seedPooled, seedFunctor⟩ := seeds.at seed
    have hashFunction := (function_of_functor (usable.valid _ hashPooled)).1 hashFunctor
    have seedFunction := (function_of_functor (usable.valid _ seedPooled)).2 seedFunctor
    have sender := (placed k entry here).same.symm
    exact checkPair_iff.mpr ⟨hashFunction, seedFunction, sender, usable.commits _ hashPooled _ seedPooled sender hashFunction seedFunction⟩

theorem count_wraps : (rdpos.minValidators * 2).toNat = rdpos.minValidators.toNat * 2 % 2 ^ 32 := UInt32.toNat_mul _ _

theorem finalize_spec {signer : Block.Signer} {block final : Block} {newTimestamp : UInt64} {signed : Bool} (draft : block.finalized = false)
    (later : block.timestamp ≤ newTimestamp) (done : block.finalize sha3 signer newTimestamp = (signed, final)) :
    signed = true ∧ final.finalized = true ∧ final.txValidators = block.txValidators ∧ final.nHeight = block.nHeight ∧
      final.validator = signer.recover final.validatorSig final.hash := by
  rw [Block.finalize, if_neg (by rw [draft]; decide), if_neg (UInt64.not_lt.mpr later)] at done
  cases done
  exact ⟨rfl, rfl, rfl, rfl, rfl⟩

theorem mem_walked (order : Walk) {tx : TxValidator} : tx ∈ (order.walk rdpos.validatorMempool).map Prod.snd ↔ tx ∈ pooled rdpos :=
  ((order.perm rdpos.validatorMempool).map Prod.snd).mem_iff

theorem Collected.mono {txs : List TxValidator} {other : List TxValidator} (inside : ∀ tx ∈ mempool, tx ∈ other) : ∀ {i : Nat},
    Collected rdpos functor mempool i txs → Collected rdpos functor other i txs := by
  induction txs with
  | nil => exact fun _ => trivial
  | cons first rest ih =>
    rintro i ⟨⟨here, member, reads⟩, later⟩
    exact ⟨⟨here, inside first member, reads⟩, ih later⟩

/-- The two loops end, and leave the block with what they have collected. -/
theorem orderedBlock_done (orderly : Orderly rdpos latest) (full : rdpos.validatorMempool.length = 2 * rdpos.minValidators.toNat)
    (shuffled : rdpos.randomList.Nodup) (valid : ∀ tx ∈ pooled rdpos, getTxValidatorFunction tx ≠ .invalid) (order : Walk) :
    ∃ fuel hashTxs seedTxs, orderedBlock rdpos order latest fuel = some (.ok { Block.after latest with txValidators := hashTxs ++ seedTxs }) ∧
      hashTxs.length = rdpos.minValidators.toNat ∧ seedTxs.length = rdpos.minValidators.toNat ∧
      Collected rdpos randomHashHash (pooled rdpos) 1 hashTxs ∧ Collected rdpos randomSeedHash (pooled rdpos) 1 seedTxs := by
  have readable : ∀ tx ∈ (order.walk rdpos.validatorMempool).map Prod.snd, ∃ functor, tx.getFunctor = .ok functor := by
    intro tx member
    cases functor_of_function (valid tx ((mem_walked order).mp member)) with
    | inl hash => exact ⟨_, hash.2⟩
    | inr seed => exact ⟨_, seed.2⟩
  have collects (functor : Functor) (known : functor = randomHashHash ∨ functor = randomSeedHash) :
      ∃ txs, orderTxs rdpos functor ((order.walk rdpos.validatorMempool).map Prod.snd) (rdpos.minValidators.toNat + 1) 1 [] = some (.ok txs) ∧
        txs.length = rdpos.minValidators.toNat ∧ Collected rdpos functor (pooled rdpos) 1 txs := by
    have supply : ∀ k < rdpos.minValidators.toNat, ∃ validator, rdpos.randomList[k + 1]? = some validator ∧
        ∃ tx ∈ (order.walk rdpos.validatorMempool).map Prod.snd, tx.from = validator ∧ tx.getFunctor = .ok functor := by
      intro k inside
      obtain ⟨validator, here, tx, member, right⟩ := supplied orderly full shuffled valid functor known inside
      exact ⟨validator, here, tx, (mem_walked order).mpr member, right⟩
    obtain ⟨txs, done, length, collected⟩ := @orderTxs_done _ _ _ readable supply rdpos.minValidators.toNat [] (Nat.zero_add _)
    exact ⟨txs, done, length, collected.mono fun tx => (mem_walked order).mp⟩
  obtain ⟨hashTxs, hashDone, hashCount, hashes⟩ := collects randomHashHash (.inl rfl)
  obtain ⟨seedTxs, seedDone, seedCount, seeds⟩ := collects randomSeedHash (.inr rfl)
  refine ⟨rdpos.minValidators.toNat + 1, hashTxs, seedTxs, ?_, hashCount, seedCount, hashes, seeds⟩
  rw [orderedBlock]
  dsimp only
  rw [hashDone, seedDone]
  exact congrArg (fun block => some (Except.ok block)) (@appended (hashTxs ++ seedTxs) (Block.after latest) rfl)

theorem usable_succeeds (orderly : Orderly rdpos latest) (full : rdpos.validatorMempool.length = 2 * rdpos.minValidators.toNat)
    (shuffled : rdpos.randomList.Nodup) (usable : Usable sha3 rdpos) : Succeeds sha3 rdpos latest := by
  intro order
  obtain ⟨fuel, hashTxs, seedTxs, built, hashCount, seedCount, hashes, seeds⟩ := orderedBlock_done orderly full shuffled usable.valid order
  refine ⟨fuel, _, built, ?_⟩
  intro txs sign recover newTimestamp signed final later done signer
  obtain ⟨success, finalized, contents, height, validator⟩ :=
    @finalize_spec sha3 _ { Block.after latest with txValidators := hashTxs ++ seedTxs, txs } final newTimestamp signed rfl later done
  refine ⟨success, fun other => validateBlock_iff.mpr ?_⟩
  have contents : final.txValidators = hashTxs ++ seedTxs := contents
  have wraps := @count_wraps rdpos
  have narrow := usable.narrow
  constructor
  · exact finalized
  · rw [signer, validator]
  · rw [contents, List.length_append]
    omega
  · intro tx member
    rw [contents] at member
    have inside : tx ∈ pooled rdpos := by
      cases List.mem_append.mp member with
      | inl hash =>
        obtain ⟨k, here⟩ := List.getElem?_of_mem hash
        exact (hashes.at here).2.1
      | inr seed =>
        obtain ⟨k, here⟩ := List.getElem?_of_mem seed
        exact (seeds.at here).2.1
    exact (orderly.heights tx inside).trans height.symm
  · exact ⟨_, collected_matched orderly shuffled usable hashes seeds hashCount seedCount contents⟩

theorem orderedBlock_contents {order : Walk} {fuel : Nat} {block : Block} (built : orderedBlock rdpos order latest fuel = some (.ok block)) :
    block.finalized = false ∧ block.timestamp = latest.timestamp ∧ block.txValidators.length = 2 * rdpos.minValidators.toNat ∧
      ∀ tx ∈ block.txValidators, tx ∈ pooled rdpos := by
  rw [orderedBlock] at built
  split at built
  case h_1 => cases built
  case h_2 => cases built
  case h_3 randomHashTxs hashDone =>
    split at built
    case h_1 => cases built
    case h_2 => cases built
    case h_3 randomnessTxs seedDone =>
      obtain ⟨hashCount, hashInside⟩ := orderTxs_mem fuel (fun _ => False.elim ∘ List.not_mem_nil) hashDone
      obtain ⟨seedCount, seedInside⟩ := orderTxs_mem fuel (fun _ => False.elim ∘ List.not_mem_nil) seedDone
      have contents := @appended (randomHashTxs ++ randomnessTxs) (Block.after latest) rfl
      rw [contents] at built
      cases built
      have length : (randomHashTxs ++ randomnessTxs).length = 2 * rdpos.minValidators.toNat := by
        rw [List.length_append]
        omega
      refine ⟨rfl, rfl, length, ?_⟩
      intro tx (member : tx ∈ randomHashTxs ++ randomnessTxs)
      cases List.mem_append.mp member with
      | inl hash => exact (mem_walked order).mp (hashInside tx hash)
      | inr seed => exact (mem_walked order).mp (seedInside tx seed)

section Built
variable {block : Block} {half : List Pair} (matched : Matched sha3 rdpos block half)
  (count : block.txValidators.length = (rdpos.minValidators * 2).toNat)
include matched

theorem half_senders : half.map (fun entry => entry.1.from) = participants rdpos := by
  apply senders_eq ((List.length_map _).trans matched.length)
  intro k inside
  rw [List.length_map] at inside
  have here := List.getElem?_eq_getElem inside
  have placed := (matched.placed.at here).validator
  rw [Nat.zero_add] at placed
  rw [List.getElem?_map, here, Option.map_some, placed]

include count

theorem txValidators_nodup (shuffled : rdpos.randomList.Nodup) : block.txValidators.Nodup := by
  have functions {entry : Pair} (member : entry ∈ half) := checkPair_iff.mp (matched.checked entry member)
  have firsts := half_senders matched
  have seconds : half.map (fun entry => entry.2.from) = participants rdpos := by
    rw [← firsts]
    exact List.map_congr_left fun entry member => (functions member).2.2.1.symm
  rw [txValidators_eq matched count]
  apply List.nodup_append.mpr
  refine ⟨?_, ?_, ?_⟩
  · apply List.Nodup.of_map TxValidator.from
    rw [List.map_map]
    exact (firsts ▸ participants_nodup shuffled : (half.map fun entry => entry.1.from).Nodup)
  · apply List.Nodup.of_map TxValidator.from
    rw [List.map_map]
    exact (seconds ▸ participants_nodup shuffled : (half.map fun entry => entry.2.from).Nodup)
  · intro first left second right same
    obtain ⟨entry, member, rfl⟩ := List.mem_map.mp left
    obtain ⟨other, memberToo, rfl⟩ := List.mem_map.mp right
    cases (functions member).1.symm.trans (same ▸ (functions memberToo).2.1)

/-- The block has all transactions of the mempool, so that these are as they must be. -/
theorem usable_of_matched (shuffled : rdpos.randomList.Nodup) (full : rdpos.validatorMempool.length = 2 * rdpos.minValidators.toNat)
    (inside : ∀ tx ∈ block.txValidators, tx ∈ pooled rdpos) : Usable sha3 rdpos := by
  have functions {entry : Pair} (member : entry ∈ half) := checkPair_iff.mp (matched.checked entry member)
  have total := count_eq matched count
  have size : (pooled rdpos).length ≤ block.txValidators.length := by
    rw [total, ← full]
    exact le_of_eq (List.length_map _)
  have same := ((txValidators_nodup matched count shuffled).subperm inside).perm_of_length_le size
  have either {tx : TxValidator} (member : tx ∈ pooled rdpos) : ∃ entry ∈ half, tx = entry.1 ∨ tx = entry.2 := by
    rw [← same.mem_iff, txValidators_eq matched count] at member
    cases List.mem_append.mp member with
    | inl hash =>
      obtain ⟨entry, inside, same⟩ := List.mem_map.mp hash
      exact ⟨entry, inside, .inl same.symm⟩
    | inr seed =>
      obtain ⟨entry, inside, same⟩ := List.mem_map.mp seed
      exact ⟨entry, inside, .inr same.symm⟩
  constructor
  · have wraps := @count_wraps rdpos
    have bound := Nat.mod_lt (rdpos.minValidators.toNat * 2) (Nat.two_pow_pos 32)
    omega
  · intro tx member invalid
    obtain ⟨entry, member, sides⟩ := either member
    cases sides with
    | inl hash => cases (hash ▸ invalid).symm.trans (functions member).1
    | inr seed => cases (seed ▸ invalid).symm.trans (functions member).2.1
  · intro hashTx hashMember seedTx seedMember sender hash seed
    obtain ⟨entry, member, sides⟩ := either hashMember
    obtain ⟨other, memberToo, sidesToo⟩ := either seedMember
    cases sides with
    | inr wrong => cases (wrong ▸ hash).symm.trans (functions member).2.1
    | inl right =>
      cases sidesToo with
      | inl wrong => cases (wrong ▸ seed).symm.trans (functions memberToo).1
      | inr rightToo =>
        -- Both are from one validator, so that they make one pair.
        have pair : entry = other := by
          apply List.inj_on_of_nodup_map ((half_senders matched) ▸ participants_nodup shuffled) member memberToo
          rw [(functions memberToo).2.2.1, ← right, ← rightToo, sender]
        rw [right, rightToo, ← pair]
        exact (functions member).2.2.2

end Built

/-- A full mempool can be turned into a valid block exactly if each of its transactions has one of the two functions with its
32 bytes, the seed of each validator is the one that it committed to, and twice the number of validators fits 32 bits. -/
theorem full_mempool_builds_iff (lived : Lived sha3 rdpos db latest) (full : rdpos.validatorMempool.length = 2 * rdpos.minValidators.toNat) :
    Succeeds sha3 rdpos latest ↔ Usable sha3 rdpos := by
  have orderly := lived_orderly lived
  have perm := RandomOrder.lived_perm lived
  have shuffled : rdpos.randomList.Nodup := perm.nodup_iff.mpr rdpos.validators.nodup
  constructor
  · intro succeeds
    have nonempty : rdpos.randomList ≠ [] := by
      intro empty
      rw [empty] at perm
      exact (RandomOrder.lived_kept lived).stores.nonempty perm.symm.eq_nil
    obtain ⟨first, rest, order⟩ := List.exists_cons_of_ne_nil nonempty
    obtain ⟨fuel, block, built, valid⟩ := succeeds straight
    obtain ⟨draft, timestamp, _, inside⟩ := orderedBlock_contents built
    have signed : { block with txs := [] }.finalize sha3 ⟨parseTxSeedList sha3, fun _ => [], fun _ _ => first⟩ latest.timestamp =
        (_, ({ block with txs := [] }.finalize sha3 ⟨parseTxSeedList sha3, fun _ => [], fun _ _ => first⟩ latest.timestamp).2) := rfl
    have contents := finalize_spec (by exact draft) (by rw [timestamp]; exact UInt64.le_refl _) signed
    have accepted := (valid [] _ _ _ _ _ (UInt64.le_refl _) signed (by rw [order]; rfl)).2 straight
    obtain ⟨_, _, count, _, half, matched⟩ := validateBlock_iff.mp accepted
    apply usable_of_matched matched count shuffled full
    rw [contents.2.2.1]
    exact inside
  · exact usable_succeeds orderly full shuffled

/-- A consensus with two validators that has heard of some transactions of the second one. -/
abbrev heard (txs : List TxValidator) : RdPoS where
  minValidators := 1
  validators := OrderedSet.ofList [1, 2]
  randomList := [1, 2]
  validatorMempool := txs.map fun tx => (tx.hash, tx)
  randomGen := 6
  bestRandomSeed := 7

abbrev sixes : Bytes → Hash := fun _ => 6

abbrev commitment : TxValidator := validatorTx 2 [0xcf, 0xff, 0xe7, 0x46] (Hash.get 6) 10

abbrev seed : TxValidator := validatorTx 2 [0x6f, 0xc5, 0xa2, 0xd6] (Hash.get 3) 11

/-- A transaction whose functor is neither of the two. -/
abbrev odd : TxValidator := validatorTx 2 [0x00, 0x00, 0x00, 0x00] (Hash.get 3) 11

theorem started : ∃ db, Lived sixes (heard []) db (RandomOrder.drawing 0 7) :=
  ⟨_, @Lived.start sixes ∅ (heard [], initializeBlockchain ∅ [1, 2]) [1, 2] 1 (RandomOrder.drawing 0 7) rfl (by decide)⟩

theorem committed {db : DB} (start : Lived sixes (heard []) db (RandomOrder.drawing 0 7)) :
    Lived sixes (heard [commitment]) db (RandomOrder.drawing 0 7) :=
  @Lived.addValidatorTx sixes _ (heard [commitment]) _ _ true commitment start rfl

theorem seed_makes_a_block : Succeeds sixes (heard [commitment, seed]) (RandomOrder.drawing 0 7) := by
  obtain ⟨db, start⟩ := started
  have lived := @Lived.addValidatorTx sixes _ (heard [commitment, seed]) _ _ true seed (committed start) rfl
  apply (full_mempool_builds_iff lived rfl).mpr
  constructor
  · decide
  · decide
  · decide

/-- The odd transaction fills the mempool, and the second loop waits for a seed forever. -/
theorem odd_functor_blocks_the_chain : (∃ db, Lived sixes (heard [commitment, odd]) db (RandomOrder.drawing 0 7)) ∧
    (heard [commitment, odd]).validatorMempool.length = 2 * (heard [commitment, odd]).minValidators.toNat ∧
    ∀ fuel, orderedBlock (heard [commitment, odd]) straight (RandomOrder.drawing 0 7) fuel = none := by
  obtain ⟨db, start⟩ := started
  refine ⟨⟨db, @Lived.addValidatorTx sixes _ (heard [commitment, odd]) _ _ true odd (committed start) rfl⟩, rfl, fun fuel => ?_⟩
  have missing : orderTxs (heard [commitment, odd]) randomSeedHash [commitment, odd] fuel 1 [] = none := orderTxs_stuck rfl (by decide) fuel
  match fuel with
  | 0 => rfl
  | 1 => rfl
  | fuel + 2 =>
    have hashes : orderTxs (heard [commitment, odd]) randomHashHash [commitment, odd] (fuel + 2) 1 [] = some (.ok [commitment]) := rfl
    exact orderedBlock_waits hashes missing

end OrbiterSDK.Proofs.BlockBuilding
