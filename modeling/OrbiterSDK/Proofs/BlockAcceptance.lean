import OrbiterSDK.RdPoS
import OrbiterSDK.StateCalls

/-! Which blocks the consensus accepts. The transactions of the second half are paired with those
of the first one through a map, in which equal transactions would fall together. -/

namespace OrbiterSDK.Proofs.BlockAcceptance
open Lib RdPoS

variable {sha3 : Bytes → Hash} {order : Walk} {rdpos : RdPoS} {block : Block} {hashTx seedTx : TxValidator}

abbrev Pair := TxValidator × TxValidator

def emplaceAll (entries half : List Pair) : List Pair := half.foldl (fun entries entry => emplaceTx entries entry.1 entry.2) entries

theorem emplaceTx_length_le (entries : List Pair) (hashTx seedTx : TxValidator) :
    (emplaceTx entries hashTx seedTx).length ≤ entries.length + 1 := by
  unfold emplaceTx
  split
  · omega
  · rw [List.length_append, List.length_singleton]

theorem emplaceAll_length_le (half : List Pair) : ∀ entries : List Pair, (emplaceAll entries half).length ≤ entries.length + half.length := by
  induction half with
  | nil =>
    intro entries
    exact le_rfl
  | cons entry rest ih =>
    intro entries
    have later := ih (emplaceTx entries entry.1 entry.2)
    have here := emplaceTx_length_le entries entry.1 entry.2
    rw [List.length_cons]
    exact later.trans (by omega)

theorem emplaceTx_new {entries : List Pair} (new : ∀ entry ∈ entries, entry.1.hash ≠ hashTx.hash) :
    emplaceTx entries hashTx seedTx = entries ++ [(hashTx, seedTx)] := by
  apply if_neg
  intro found
  obtain ⟨entry, member, same⟩ := List.any_eq_true.mp found
  exact new entry member (of_decide_eq_true same)

def hashes (entries : List Pair) : List Hash := entries.map fun entry => entry.1.hash

/-- The map has room for all pairs exactly if no two of them have the same key. -/
theorem emplaceAll_full (half : List Pair) : ∀ {entries : List Pair}, (hashes entries).Nodup →
    ((emplaceAll entries half).length = entries.length + half.length ↔ (hashes (entries ++ half)).Nodup) ∧
      ((hashes (entries ++ half)).Nodup → emplaceAll entries half = entries ++ half) := by
  induction half with
  | nil =>
    intro entries apart
    rw [List.append_nil]
    exact ⟨iff_of_true rfl apart, fun _ => rfl⟩
  | cons entry rest ih =>
    intro entries apart
    have step : emplaceAll entries (entry :: rest) = emplaceAll (emplaceTx entries entry.1 entry.2) rest := rfl
    have shift : entries ++ entry :: rest = (entries ++ [entry]) ++ rest := by rw [List.append_assoc, List.singleton_append]
    by_cases new : ∀ other ∈ entries, other.1.hash ≠ entry.1.hash
    · have fresh : (hashes (entries ++ [entry])).Nodup := by
        rw [hashes, List.map_append, List.map_singleton]
        apply List.nodup_append.mpr
        refine ⟨apart, List.nodup_singleton _, ?_⟩
        intro key member other single
        obtain ⟨third, inside, same⟩ := List.mem_map.mp member
        rw [List.mem_singleton.mp single, ← same]
        exact new third inside
      obtain ⟨room, all⟩ := ih fresh
      have added : emplaceTx entries entry.1 entry.2 = entries ++ [entry] := emplaceTx_new new
      have length : (entries ++ [entry]).length = entries.length + 1 := List.length_append
      rw [step, added, shift]
      refine ⟨?_, all⟩
      rw [← room, length, List.length_cons, Nat.add_right_comm, Nat.add_assoc]
    · obtain ⟨other, inside, same⟩ : ∃ other ∈ entries, other.1.hash = entry.1.hash := by
        by_contra none
        exact new fun other inside same => none ⟨other, inside, same⟩
      have kept : emplaceTx entries entry.1 entry.2 = entries := by
        apply if_pos
        exact List.any_eq_true.mpr ⟨other, inside, decide_eq_true same⟩
      have twice : ¬ (hashes (entries ++ entry :: rest)).Nodup := by
        intro nodup
        rw [hashes, List.map_append] at nodup
        have apart := (List.nodup_append.mp nodup).2.2
        exact apart _ (List.mem_map_of_mem inside) _ (List.mem_map_of_mem List.mem_cons_self) same
      refine ⟨iff_of_false ?_ twice, fun nodup => absurd nodup twice⟩
      have bound := emplaceAll_length_le rest entries
      rw [step, kept, List.length_cons]
      omega

/-- A pair of transactions that stand where one validator must have them. -/
structure Placed (rdpos : RdPoS) (block : Block) (i : Nat) (entry : Pair) : Prop where
  hash : block.txValidators[i]? = some entry.1
  seed : block.txValidators[i + rdpos.minValidators.toNat]? = some entry.2
  validator : rdpos.randomList[i + 1]? = some entry.1.from
  same : entry.2.from = entry.1.from

def PlacedFrom (rdpos : RdPoS) (block : Block) : Nat → List Pair → Prop
  | _, [] => True
  | i, entry :: rest => Placed rdpos block i entry ∧ PlacedFrom rdpos block (i + 1) rest

theorem PlacedFrom.at {half : List Pair} : ∀ {i k : Nat} {entry : Pair}, PlacedFrom rdpos block i half → half[k]? = some entry →
    Placed rdpos block (i + k) entry := by
  induction half with
  | nil =>
    intro i k entry _ here
    cases here
  | cons first rest ih =>
    intro i k entry placed here
    cases k with
    | zero =>
      cases here
      exact placed.1
    | succ k =>
      rw [Nat.add_succ, ← Nat.succ_add]
      exact ih placed.2 here

private theorem txAt_ok {i : Nat} {tx : TxValidator} : txAt block i = .ok tx ↔ block.txValidators[i]? = some tx := by
  unfold txAt
  cases block.txValidators[i]? with
  | none => exact iff_of_false nofun nofun
  | some other => exact ⟨fun same => congrArg some (Except.ok.inj same), fun same => congrArg Except.ok (Option.some.inj same)⟩

theorem randomAt_ok {i : Nat} {validator : Address} : rdpos.randomAt i = .ok validator ↔ rdpos.randomList[i]? = some validator := by
  unfold randomAt
  cases rdpos.randomList[i]? with
  | none => exact iff_of_false nofun nofun
  | some other => exact ⟨fun same => congrArg some (Except.ok.inj same), fun same => congrArg Except.ok (Option.some.inj same)⟩

theorem orderedPairs_iff (turns : Nat) : ∀ {i : Nat} {entries pairs : List Pair},
    orderedPairs rdpos block turns i entries = .ok (some pairs) ↔
      ∃ half, half.length = turns ∧ PlacedFrom rdpos block i half ∧ emplaceAll entries half = pairs := by
  induction turns with
  | zero =>
    intro i entries pairs
    constructor
    · intro done
      cases done
      exact ⟨[], rfl, trivial, rfl⟩
    · rintro ⟨half, length, _, done⟩
      cases List.length_eq_zero_iff.mp length
      exact congrArg (fun pairs => Except.ok (some pairs)) done
  | succ turns ih =>
    intro i entries pairs
    rw [orderedPairs]
    constructor
    · intro done
      obtain ⟨hashTx, hash, done⟩ := bind_ok.mp done
      obtain ⟨validator, random, done⟩ := bind_ok.mp done
      split at done
      case isTrue => cases done
      case isFalse sender =>
        obtain ⟨seedTx, seed, done⟩ := bind_ok.mp done
        split at done
        case isTrue => cases done
        case isFalse senderToo =>
          obtain ⟨half, length, placed, rest⟩ := ih.mp done
          have sender := not_not.mp sender
          have here : Placed rdpos block i (hashTx, seedTx) :=
            ⟨txAt_ok.mp hash, txAt_ok.mp seed, sender ▸ randomAt_ok.mp random, (not_not.mp senderToo).trans sender.symm⟩
          exact ⟨(hashTx, seedTx) :: half, congrArg Nat.succ length, ⟨here, placed⟩, rest⟩
    · rintro ⟨half, length, placed, done⟩
      cases half with
      | nil => cases length
      | cons entry rest =>
        obtain ⟨here, later⟩ := placed
        refine bind_ok.mpr ⟨_, txAt_ok.mpr here.hash, bind_ok.mpr ⟨_, randomAt_ok.mpr here.validator, ?_⟩⟩
        rw [if_neg (not_not.mpr rfl)]
        refine bind_ok.mpr ⟨_, txAt_ok.mpr here.seed, ?_⟩
        rw [if_neg (not_not.mpr here.same)]
        exact ih.mpr ⟨rest, Nat.succ.inj length, later, done⟩

theorem checkPair_iff : checkPair sha3 hashTx seedTx = true ↔ getTxValidatorFunction hashTx = .randomHash ∧
    getTxValidatorFunction seedTx = .randomSeed ∧ hashTx.from = seedTx.from ∧ hashTx.data.drop 4 = (sha3 (seedTx.data.drop 4)).get := by
  have sized {tx : TxValidator} (valid : getTxValidatorFunction tx ≠ .invalid) : (tx.data.drop 4).length = 32 := by
    have size : tx.data.length = 36 := by
      by_contra other
      exact valid (if_pos other)
    rw [List.length_drop, size]
  unfold checkPair
  dsimp only
  constructor
  · intro passed
    simp only [Bool.if_false_left, Bool.and_eq_true, Bool.not_eq_true', decide_eq_false_iff_not, not_not] at passed
    obtain ⟨_, _, sender, hash, seed, _, _, commits, _⟩ := passed
    exact ⟨hash, seed, sender, commits.symm⟩
  · rintro ⟨hash, seed, sender, commits⟩
    have hashValid : getTxValidatorFunction hashTx ≠ .invalid := hash ▸ nofun
    have seedValid : getTxValidatorFunction seedTx ≠ .invalid := seed ▸ nofun
    rw [if_neg hashValid, if_neg seedValid, if_neg (not_not.mpr sender), if_neg (not_not.mpr hash), if_neg (not_not.mpr seed),
      if_neg (not_not.mpr (sized hashValid)), if_neg (not_not.mpr (sized seedValid)), if_neg (not_not.mpr commits.symm)]

/-- Every pair stands where it must, with a key of its own, and passes the checks. -/
structure Matched (sha3 : Bytes → Hash) (rdpos : RdPoS) (block : Block) (half : List Pair) : Prop where
  length : half.length = rdpos.minValidators.toNat
  placed : PlacedFrom rdpos block 0 half
  apart : (hashes half).Nodup
  checked : ∀ entry ∈ half, checkPair sha3 entry.1 entry.2 = true

structure Acceptable (sha3 : Bytes → Hash) (rdpos : RdPoS) (block : Block) : Prop where
  finalized : block.finalized = true
  signer : rdpos.randomList[0]? = some block.validator
  count : block.txValidators.length = (rdpos.minValidators * 2).toNat
  heights : ∀ tx ∈ block.txValidators, tx.nHeight = block.nHeight
  matched : ∃ half, Matched sha3 rdpos block half

theorem walk_all (order : Walk) (entries : List Pair) (check : Pair → Bool) : (order.walk entries).all check = entries.all check :=
  (order.perm entries).all_eq

private theorem validateBlock_order (order other : Walk) (rdpos : RdPoS) (block : Block) :
    validateBlock sha3 order rdpos block = validateBlock sha3 other rdpos block := by
  unfold validateBlock
  simp only [walk_all]

theorem validateBlock_iff : validateBlock sha3 order rdpos block = .ok true ↔ Acceptable sha3 rdpos block := by
  unfold validateBlock
  constructor
  · intro accepted
    split at accepted
    case isTrue => cases accepted
    case isFalse finalized =>
      obtain ⟨first, signer, accepted⟩ := bind_ok.mp accepted
      split at accepted
      case isTrue => cases accepted
      case isFalse same =>
        split at accepted
        case isTrue => cases accepted
        case isFalse count =>
          split at accepted
          case isTrue => cases accepted
          case isFalse heights =>
            obtain ⟨pairs, ordered, accepted⟩ := bind_ok.mp accepted
            split at accepted
            case h_1 => cases accepted
            case h_2 entries =>
              split at accepted
              case isTrue => cases accepted
              case isFalse size =>
                obtain ⟨half, length, placed, rfl⟩ := (orderedPairs_iff _).mp ordered
                obtain ⟨room, all⟩ := @emplaceAll_full half [] List.nodup_nil
                have apart : (hashes half).Nodup := room.mp (by rw [not_not.mp size, length]; exact (Nat.zero_add _).symm)
                have kept : emplaceAll [] half = half := all apart
                rw [walk_all, kept] at accepted
                refine ⟨by simpa using finalized, not_not.mp same ▸ randomAt_ok.mp signer, not_not.mp count, ?_, half, length, placed, apart, ?_⟩
                · intro tx member
                  by_contra other
                  exact heights (List.any_eq_true.mpr ⟨tx, member, decide_eq_true other⟩)
                · exact List.all_eq_true.mp (Except.ok.inj accepted)
  · rintro ⟨finalized, signer, count, heights, half, length, placed, apart, checked⟩
    have same : ¬ (block.txValidators.any fun tx => tx.nHeight ≠ block.nHeight) = true := by
      intro found
      obtain ⟨tx, member, other⟩ := List.any_eq_true.mp found
      exact of_decide_eq_true other (heights tx member)
    have kept : emplaceAll [] half = half := (@emplaceAll_full half [] List.nodup_nil).2 apart
    rw [if_neg (by rw [finalized]; decide)]
    refine bind_ok.mpr ⟨_, randomAt_ok.mpr signer, ?_⟩
    rw [if_neg (not_not.mpr rfl), if_neg (not_not.mpr count), if_neg same]
    refine bind_ok.mpr ⟨_, (orderedPairs_iff _).mpr ⟨half, length, placed, kept⟩, ?_⟩
    dsimp only
    rw [if_neg (not_not.mpr length), walk_all]
    exact congrArg Except.ok (List.all_eq_true.mpr checked)

/-- Blocks that were finalized here or read from the network. -/
inductive Final (sha3 : Bytes → Hash) : Block → Prop where
  | finalize {draft block : Block} (sign : Hash → Bytes) (recover : Bytes → Hash → Address) (newTimestamp : UInt64)
      (done : draft.finalize sha3 ⟨parseTxSeedList sha3, sign, recover⟩ newTimestamp = (true, block)) : Final sha3 block
  | ofParsed {parsed block : Block} (sign : Hash → Bytes) (recover : Bytes → Hash → Address) (verifySig : Bytes → Bool)
      (done : Block.ofParsed sha3 ⟨parseTxSeedList sha3, sign, recover⟩ verifySig parsed = .ok block) : Final sha3 block

theorem final_randomness (final : Final sha3 block) : block.blockRandomness = parseTxSeedList sha3 block.txValidators := by
  cases final with
  | finalize sign recover newTimestamp done =>
    unfold Block.finalize at done
    split at done
    · cases done
    · split at done
      · cases done
      · cases done
        rfl
  | ofParsed sign recover verifySig done =>
    unfold Block.ofParsed at done
    split at done
    · cases done
    · split at done
      · cases done
      · split at done
        · cases done
        case isFalse randomness =>
          split at done
          · cases done
          · cases done
            exact (not_not.mp randomness).symm

section Halves
variable {half : List Pair} (matched : Matched sha3 rdpos block half) (count : block.txValidators.length = (rdpos.minValidators * 2).toNat)
include matched count

/-- The number of transactions is computed with 32 bits, but there are two for each pair. -/
theorem count_eq : block.txValidators.length = 2 * rdpos.minValidators.toNat := by
  have wide : (rdpos.minValidators * 2).toNat = rdpos.minValidators.toNat * 2 % 2 ^ 32 := UInt32.toNat_mul _ _
  have bound := Nat.mod_le (rdpos.minValidators.toNat * 2) (2 ^ 32)
  cases last : half[rdpos.minValidators.toNat - 1]? with
  | none =>
    have outside := List.getElem?_eq_none_iff.mp last
    rw [matched.length] at outside
    omega
  | some entry =>
    have placed := matched.placed.at last
    have inside := (List.getElem?_eq_some_iff.mp placed.seed).1
    omega

theorem txValidators_eq : block.txValidators = half.map Prod.fst ++ half.map Prod.snd := by
  have total := count_eq matched count
  have size := matched.length
  apply List.ext_getElem?
  intro k
  by_cases first : k < rdpos.minValidators.toNat
  · have here := List.getElem?_eq_getElem (size ▸ first : k < half.length)
    have placed := matched.placed.at here
    rw [List.getElem?_append_left (by rw [List.length_map]; omega), List.getElem?_map, here, Option.map_some, ← placed.hash, Nat.zero_add]
  · rw [List.getElem?_append_right (by rw [List.length_map]; omega), List.length_map, List.getElem?_map]
    by_cases second : k - half.length < half.length
    · have placed := matched.placed.at (List.getElem?_eq_getElem second)
      rw [List.getElem?_eq_getElem second, Option.map_some, ← placed.seed]
      exact congrArg (block.txValidators[·]?) (by omega)
    · rw [List.getElem?_eq_none (by omega), List.getElem?_eq_none (by omega)]
      rfl

theorem parseTxSeedList_eq : parseTxSeedList sha3 block.txValidators =
    if rdpos.minValidators = 0 then 0 else sha3 (half.flatMap fun entry => entry.2.data.drop 4) := by
  have pairs {entry : Pair} (member : entry ∈ half) := checkPair_iff.mp (matched.checked entry member)
  have firsts : (half.map Prod.fst).filter (fun tx => getTxValidatorFunction tx = .randomSeed) = [] := by
    apply List.filter_eq_nil_iff.mpr
    intro tx member seed
    obtain ⟨entry, inside, same⟩ := List.mem_map.mp member
    cases (pairs inside).1.symm.trans (same ▸ of_decide_eq_true seed)
  have seconds : (half.map Prod.snd).filter (fun tx => getTxValidatorFunction tx = .randomSeed) = half.map Prod.snd := by
    apply List.filter_eq_self.mpr
    intro tx member
    obtain ⟨entry, inside, same⟩ := List.mem_map.mp member
    exact decide_eq_true (same ▸ (pairs inside).2.1)
  have total := count_eq matched count
  unfold parseTxSeedList
  by_cases none : rdpos.minValidators = 0
  · have empty : block.txValidators = [] := List.length_eq_zero_iff.mp (by rw [total, none]; rfl)
    rw [if_pos none, empty]
    rfl
  · have some : ¬ block.txValidators.isEmpty = true := by
      intro empty
      rw [List.isEmpty_iff.mp empty] at total
      have zero : rdpos.minValidators.toNat = 0 := by
        have length : ([] : List TxValidator).length = 0 := rfl
        omega
      exact none (UInt32.toNat_inj.mp zero)
    rw [if_neg none, if_neg some, txValidators_eq matched count, List.filter_append, firsts, seconds, List.nil_append, List.flatMap_map]

end Halves

/-- A transaction with the hash of a seed and the one with the seed itself, both from one validator. -/
structure Reveals (sha3 : Bytes → Hash) (validator : Address) (hashTx seedTx : TxValidator) : Prop where
  hashFrom : hashTx.from = validator
  seedFrom : seedTx.from = validator
  hash : getTxValidatorFunction hashTx = .randomHash
  seed : getTxValidatorFunction seedTx = .randomSeed
  commits : hashTx.data.drop 4 = (sha3 (seedTx.data.drop 4)).get

/-- What an accepted block is like. Without validators that take part its randomness is zero. -/
structure Sound (sha3 : Bytes → Hash) (rdpos : RdPoS) (block : Block) : Prop where
  signer : rdpos.randomList[0]? = some block.validator
  count : block.txValidators.length = 2 * rdpos.minValidators.toNat
  heights : ∀ tx ∈ block.txValidators, tx.nHeight = block.nHeight
  reveals : ∀ i < rdpos.minValidators.toNat, ∃ validator hashTx seedTx, rdpos.randomList[i + 1]? = some validator ∧
    block.txValidators[i]? = some hashTx ∧ block.txValidators[i + rdpos.minValidators.toNat]? = some seedTx ∧
    Reveals sha3 validator hashTx seedTx
  randomness : block.blockRandomness = if rdpos.minValidators = 0 then 0
    else sha3 ((block.txValidators.drop rdpos.minValidators.toNat).flatMap fun seedTx => seedTx.data.drop 4)

theorem sound_of_accepted (final : Final sha3 block) (accepted : validateBlock sha3 order rdpos block = .ok true) : Sound sha3 rdpos block := by
  obtain ⟨_, signer, count, heights, half, matched⟩ := validateBlock_iff.mp accepted
  refine ⟨signer, count_eq matched count, heights, ?_, ?_⟩
  · intro i inside
    have here := List.getElem?_eq_getElem (matched.length ▸ inside : i < half.length)
    have placed := matched.placed.at here
    rw [Nat.zero_add] at placed
    obtain ⟨hash, seed, sender, commits⟩ := checkPair_iff.mp (matched.checked _ (List.mem_of_getElem? here))
    exact ⟨_, _, _, placed.validator, placed.hash, placed.seed, rfl, placed.same, hash, seed, commits⟩
  · rw [final_randomness final, parseTxSeedList_eq matched count, txValidators_eq matched count, ← matched.length,
      List.drop_left' (List.length_map _), List.flatMap_map]

/-- A state that asks this consensus takes sound blocks only. -/
theorem next_block_is_sound {World : Type} {env : Env World} {state : State World} (final : Final sha3 block)
    (asks : env.rdposValidateBlock state.rdposSeed block = true → validateBlock sha3 order rdpos block = .ok true)
    (valid : ((State.validateNextBlock env block).eval state).1 = .ok true) : Sound sha3 rdpos block := by
  apply sound_of_accepted final (asks _)
  cases header : state.validateHeader env block with
  | true => exact (Bool.and_eq_true_iff.mp header).2
  | false =>
    rw [State.validateNextBlock, Action.eval_bind, Action.eval_get] at valid
    dsimp only at valid
    rw [header] at valid
    cases valid

/-- Accepted blocks are sound, and no order in which the map is walked would make a difference. -/
theorem accepted_blocks_are_sound (final : Final sha3 block) (accepted : validateBlock sha3 order rdpos block = .ok true) :
    Sound sha3 rdpos block ∧ ∀ other : Walk, validateBlock sha3 other rdpos block = .ok true :=
  ⟨sound_of_accepted final accepted, fun other => (validateBlock_order other order rdpos block).trans accepted⟩

/-- A consensus with three validators, of which those after the first may take part. -/
abbrev consensus (minValidators : UInt32) : RdPoS where
  minValidators
  validators := OrderedSet.ofList [1, 2, 3]
  randomList := [1, 2, 3]
  randomGen := 0
  bestRandomSeed := 0

abbrev validatorTx («from» : Address) (functor content : Bytes) (hash : Hash) : TxValidator where
  «from»
  data := functor ++ content
  chainId := 8080
  nHeight := 1
  v := 0
  r := 0
  s := 0
  hash

/-- The first block, as the first validator finalizes it. -/
abbrev firstBlock (sha3 : Bytes → Hash) (txValidators : List TxValidator) : Block :=
  (Block.finalize sha3 ⟨parseTxSeedList sha3, fun _ => [], fun _ _ => 1⟩
    { validatorSig := [], prevBlockHash := 0, blockRandomness := 0, validatorMerkleRoot := 0, txMerkleRoot := 0, timestamp := 0,
      nHeight := 1, txValidators, txs := [], validator := 0, finalized := false, hash := 0 } 9).2

abbrev straight : Walk := ⟨id, .refl⟩

abbrev twoSeeds : List TxValidator :=
  [validatorTx 2 [0xcf, 0xff, 0xe7, 0x46] (Hash.get 7) 10, validatorTx 3 [0xcf, 0xff, 0xe7, 0x46] (Hash.get 7) 11,
    validatorTx 2 [0x6f, 0xc5, 0xa2, 0xd6] (Hash.get 3) 12, validatorTx 3 [0x6f, 0xc5, 0xa2, 0xd6] (Hash.get 4) 13]

theorem two_seeds_are_sound : Sound (fun _ => 7) (consensus 2) (firstBlock (fun _ => 7) twoSeeds) ∧
    validateBlock (fun _ => 7) ⟨List.reverse, List.reverse_perm⟩ (consensus 2) (firstBlock (fun _ => 7) twoSeeds) = .ok true := by
  obtain ⟨sound, others⟩ := @accepted_blocks_are_sound (fun _ => 7) straight (consensus 2) (firstBlock (fun _ => 7) twoSeeds)
    (.finalize (fun _ => []) (fun _ _ => 1) 9 (Prod.ext rfl rfl)) rfl
  exact ⟨sound, others _⟩

/-- A hash that is right for no bytes at all. -/
abbrev hashOfNothing : Bytes → Hash := fun _ => 0xc5d2460186f7233c927e7db2dcc703c0e500b653ca82273b7bfad8045d85a470

/-- Without seeds the randomness is not the hash of their concatenation. -/
theorem no_seeds_are_not_hashed :
    Final hashOfNothing (firstBlock hashOfNothing []) ∧
    validateBlock hashOfNothing straight (consensus 0) (firstBlock hashOfNothing []) = .ok true ∧
    (firstBlock hashOfNothing []).blockRandomness ≠
      hashOfNothing ((firstBlock hashOfNothing []).txValidators.flatMap fun seedTx => seedTx.data.drop 4) := by
  refine ⟨.finalize (fun _ => []) (fun _ _ => 1) 9 (Prod.ext rfl rfl), rfl, ?_⟩
  decide

end OrbiterSDK.Proofs.BlockAcceptance
