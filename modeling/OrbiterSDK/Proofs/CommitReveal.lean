import OrbiterSDK.Worker
import OrbiterSDK.Proofs.RandomOrder
import OrbiterSDK.Proofs.ValidatorRoundTrip

/-! A worker counts the transactions in its mempool before it reveals its seed. The count says that everyone has
committed to a seed as long as only commitments have been let in. -/

namespace OrbiterSDK.Proofs.CommitReveal
open Lib RdPoS Node Admission Relation

variable {lib : Secp256k1} {sha3 : Bytes → Hash} {rdpos next : RdPoS} {latest : Block} {tx : TxValidator} {node : Node}

/-- Everyone who takes part has committed to a seed for a height. -/
def Committed (rdpos : RdPoS) (nHeight : UInt64) : Prop :=
  ∀ validator ∈ participants rdpos, ∃ tx ∈ pooled rdpos, tx.from = validator ∧ getTxValidatorFunction tx = .randomHash ∧ tx.nHeight = nHeight

instance (rdpos : RdPoS) (nHeight : UInt64) : Decidable (Committed rdpos nHeight) :=
  inferInstanceAs (Decidable (∀ validator ∈ participants rdpos, ∃ tx ∈ pooled rdpos, tx.from = validator ∧
    getTxValidatorFunction tx = .randomHash ∧ tx.nHeight = nHeight))

def Commitments (rdpos : RdPoS) : Prop := ∀ tx ∈ pooled rdpos, getTxValidatorFunction tx = .randomHash

/-- A mempool that tells by its size who has committed. -/
structure Telling (rdpos : RdPoS) (latest : Block) : Prop where
  orderly : Orderly rdpos latest
  shuffled : rdpos.randomList.Nodup
  covered : Committed rdpos (latest.nHeight + 1) ∨ Commitments rdpos

theorem telling_empty (shuffled : rdpos.randomList.Nodup) (none : rdpos.validatorMempool = []) : Telling rdpos latest := by
  constructor
  · exact orderly_empty none
  · exact shuffled
  · apply Or.inr
    intro tx member
    rw [pooled, none] at member
    cases member

/-- Two commitments of one validator have the same functor. -/
theorem one_commitment (telling : Telling rdpos latest) (commitments : Commitments rdpos) (sender : Address) :
    (sentBy rdpos sender).length ≤ 1 := by
  have apart := telling.orderly.apart sender
  have function {tx : TxValidator} (member : tx ∈ sentBy rdpos sender) : tx.getFunctor = .ok randomHashHash := by
    have hash := commitments tx (List.mem_filter.mp member).1
    cases functor_of_function (fun invalid => nomatch hash.symm.trans invalid) with
    | inl commitment => exact commitment.2
    | inr seed => cases hash.symm.trans seed.1
  cases found : sentBy rdpos sender with
  | nil => exact Nat.zero_le 1
  | cons first rest =>
    cases rest with
    | nil => exact Nat.le_refl 1
    | cons second rest =>
      rw [found] at apart function
      obtain ⟨functor, another, left, right, differ⟩ := (List.pairwise_cons.mp apart).1 second List.mem_cons_self
      rw [function List.mem_cons_self] at left
      rw [function (List.mem_cons_of_mem _ List.mem_cons_self)] at right
      cases left
      cases right
      exact absurd rfl differ

/-- There are as many transactions as there are validators that take part, and at most one from each. -/
theorem committed_of_size (telling : Telling rdpos latest) (enough : rdpos.minValidators.toNat ≤ rdpos.validatorMempool.length) :
    Committed rdpos (latest.nHeight + 1) := by
  cases telling.covered with
  | inl committed => exact committed
  | inr commitments =>
    intro validator takesPart
    have few : (participants rdpos).length ≤ rdpos.minValidators.toNat := List.length_take_le _ _
    have size : (pooled rdpos).length = rdpos.validatorMempool.length := List.length_map _
    obtain ⟨_, full⟩ := quotas (participants rdpos) (participants_nodup telling.shuffled) telling.orderly.senders
      fun sender _ => one_commitment telling commitments sender
    have one := full (by omega) validator takesPart
    obtain ⟨tx, only⟩ := List.length_eq_one_iff.mp one
    have member : tx ∈ withKey TxValidator.from (pooled rdpos) validator := only ▸ List.mem_singleton_self tx
    obtain ⟨inside, sender⟩ := List.mem_filter.mp member
    exact ⟨tx, inside, of_decide_eq_true sender, commitments tx inside, telling.orderly.heights tx inside⟩

theorem committed_add (committed : Committed rdpos (latest.nHeight + 1)) :
    Committed { rdpos with validatorMempool := rdpos.validatorMempool ++ [(tx.hash, tx)] } (latest.nHeight + 1) := by
  intro validator takesPart
  obtain ⟨present, member, facts⟩ := committed validator takesPart
  refine ⟨present, ?_, facts⟩
  rw [pooled, List.map_append]
  exact List.mem_append_left _ member

/-- A transaction that is not let in, or that does not mislead the worker. -/
def Fitting (rdpos : RdPoS) (latest : Block) (tx : TxValidator) : Prop :=
  tx.from ∉ participants rdpos ∨ tx.nHeight ≠ latest.nHeight + 1 ∨ getTxValidatorFunction tx = .randomHash ∨
    Committed rdpos (latest.nHeight + 1)

theorem telling_add {added : Bool} (telling : Telling rdpos latest) (fitting : Fitting rdpos latest tx)
    (answered : rdpos.addValidatorTx latest tx = .ok (added, next)) :
    Telling next latest ∧ rdpos.validatorMempool.length ≤ next.validatorMempool.length := by
  cases addValidatorTx_cases answered with
  | inl same =>
    cases same
    exact ⟨telling, Nat.le_refl _⟩
  | inr accepted =>
    obtain ⟨admitted, rfl⟩ := accepted
    have orderly := admitted_orderly telling.orderly admitted
    have new : tx ∈ pooled { rdpos with validatorMempool := rdpos.validatorMempool ++ [(tx.hash, tx)] } := by
      rw [pooled, List.map_append]
      exact List.mem_append_right _ (List.mem_singleton_self tx)
    refine ⟨⟨orderly, telling.shuffled, ?_⟩, ?_⟩
    · cases telling.covered with
      | inl committed => exact .inl (committed_add committed)
      | inr commitments =>
        obtain stranger | otherHeight | hash | committed := fitting
        · exact absurd (orderly.senders tx new) stranger
        · exact absurd admitted.height otherHeight
        · apply Or.inr
          intro other member
          rw [pooled, List.map_append] at member
          cases List.mem_append.mp member with
          | inl older => exact commitments other older
          | inr added => exact List.mem_singleton.mp added ▸ hash
        · exact .inl (committed_add committed)
    · dsimp only
      rw [List.length_append]
      exact Nat.le_add_right _ _

/-- The worker is between a look at the latest block and what it does at its height. -/
def busy : Phase → Bool
  | .looking _ | .committing _ _ _ | .collecting _ _ _ => true
  | _ => false

/-- Until everyone has committed, only commitments are let in, and while the worker is busy the mempool
is not emptied. -/
def Harmless (node : Node) : Node.Event → Prop
  | .deliver tx => Fitting node.rdpos node.latest tx
  | .refresh => node.appending = none
  | .processBlock _ | .clearMempool => busy node.phase = false
  | _ => True

/-- What the worker remembers is right. -/
def Current (node : Node) : Phase → Prop
  | .looking latestBlock => latestBlock = node.latest
  | .committing latestBlock randomHashTx seedTx => latestBlock = node.latest ∧
      getTxValidatorFunction randomHashTx = .randomHash ∧ seedTx.nHeight = node.latest.nHeight + 1
  | .collecting latestBlock seedTx validatorMempoolSize => latestBlock = node.latest ∧
      seedTx.nHeight = node.latest.nHeight + 1 ∧ validatorMempoolSize ≤ node.rdpos.validatorMempool.length
  | _ => True

structure Steady (node : Node) : Prop where
  telling : Telling node.rdpos node.latest
  current : Current node node.phase
  locked : node.appending ≠ none → node.rdpos.validatorMempool = [] ∧ busy node.phase = false

theorem current_idle {phase : Phase} (idle : busy phase = false) : Current node phase := by
  cases phase with
  | looking => cases idle
  | committing => cases idle
  | collecting => cases idle
  | starting => trivial
  | resting => trivial
  | ended => trivial

theorem current_grown {phase : Phase} (current : Current node phase)
    (grown : node.rdpos.validatorMempool.length ≤ next.validatorMempool.length) : Current { node with rdpos := next } phase := by
  cases phase with
  | looking => exact current
  | committing => exact current
  | collecting => exact ⟨current.1, current.2.1, current.2.2.trans grown⟩
  | starting => trivial
  | resting => trivial
  | ended => trivial

theorem addValidatorTx_ok {node added : Node} (ran : node.addValidatorTx tx = some added) : node.appending = none ∧
    ∃ answered, node.rdpos.addValidatorTx node.latest tx = .ok answered ∧ added = { node with rdpos := answered.2 } := by
  unfold Node.addValidatorTx at ran
  split at ran
  case h_1 answered open_ found =>
    cases ran
    exact ⟨open_, answered, found, rfl⟩
  case h_2 => cases ran

theorem sign_fields {sender : Address} {data : Bytes} {chainId nHeight : UInt64} {key : PrivKey}
    (signed : TxValidator.sign lib sha3 sender data chainId nHeight key = .ok tx) :
    tx.from = sender ∧ tx.data = data ∧ tx.nHeight = nHeight := by
  unfold TxValidator.sign at signed
  dsimp only at signed
  split at signed
  case isTrue => cases signed
  case isFalse =>
    split at signed
    case h_1 => cases signed
    case h_2 =>
      split at signed
      case isTrue => cases signed
      case isFalse =>
        split at signed
        case isTrue => cases signed
        case isFalse =>
          cases signed
          exact ⟨rfl, rfl, rfl⟩

theorem function_randomHash {hash : Hash} (data : tx.data = [0xcf, 0xff, 0xe7, 0x46] ++ hash.get) : getTxValidatorFunction tx = .randomHash := by
  have size : tx.data.length = 36 := by
    rw [data, List.length_append, Hash.get_length]
    rfl
  have functor : Functor.ofBytes (tx.data.take 4) = randomHashHash := by
    have first : tx.data.take 4 = [0xcf, 0xff, 0xe7, 0x46] := by
      rw [data]
      rfl
    rw [first]
    decide
  unfold getTxValidatorFunction
  rw [if_neg (not_not.mpr size)]
  exact if_pos functor

theorem addValidatorTx_eq {answered : Bool × RdPoS} (unlocked : node.appending = none)
    (found : node.rdpos.addValidatorTx node.latest tx = .ok answered) : node.addValidatorTx tx = some { node with rdpos := answered.2 } := by
  rw [Node.addValidatorTx, unlocked, found]

theorem makeTxs_ok {nHeight : UInt64} {me : Address} {randomness : Hash} {randomHashTx seedTx : TxValidator}
    (made : node.makeTxs lib sha3 nHeight me randomness = .ok (some (randomHashTx, seedTx))) :
    getTxValidatorFunction randomHashTx = .randomHash ∧ seedTx.nHeight = nHeight := by
  obtain ⟨hashTx, signed, made⟩ := bind_ok.mp made
  obtain ⟨seed, signedToo, made⟩ := bind_ok.mp made
  split at made
  case isTrue => cases made
  case isFalse =>
    cases made
    exact ⟨function_randomHash (sign_fields signed).2.1, (sign_fields signedToo).2.2⟩

theorem turn_current {randomness : Hash} {phase : Phase}
    (turned : node.turn lib sha3 node.latest randomness = .ok phase) : Current node phase := by
  obtain ⟨first, _, turned⟩ := bind_ok.mp turned
  split at turned
  case isTrue =>
    cases turned
    trivial
  case isFalse =>
    obtain ⟨participating, _, turned⟩ := bind_ok.mp turned
    split at turned
    case isTrue =>
      cases turned
      trivial
    case isFalse =>
      split at turned
      case h_1 =>
        cases turned
        trivial
      case h_2 =>
        cases turned
        trivial
      case h_3 randomHashTx seedTx made =>
        cases turned
        exact ⟨rfl, makeTxs_ok made⟩

theorem processBlock_shuffled {block : Block} (processed : rdpos.processBlock sha3 block = .ok next) : next.randomList.Nodup := by
  obtain ⟨_, drawn⟩ := RandomOrder.processBlock_spec processed
  obtain ⟨shuffled, shuffle, perm⟩ := @RandomOrder.shuffle_ok _ sha3 block.blockRandomness next.validators.elements
  have same : shuffled = _ := Except.ok.inj (shuffle.symm.trans drawn.list)
  rw [same] at perm
  exact perm.nodup_iff.mpr next.validators.nodup

theorem started_steady (started : Started sha3 node) : Steady node := by
  cases started with
  | @start db opened _ _ latest loaded =>
    obtain ⟨drawn, _⟩ := RandomOrder.load_spec loaded
    obtain ⟨shuffled, shuffle, perm⟩ := @RandomOrder.shuffle_ok _ sha3 latest.blockRandomness opened.1.validators.elements
    have same : shuffled = _ := Except.ok.inj (shuffle.symm.trans drawn.list)
    rw [same] at perm
    constructor
    · exact telling_empty (perm.nodup_iff.mpr opened.1.validators.nodup) (load_mempool loaded)
    · exact current_idle rfl
    · exact fun locked => absurd rfl locked

theorem added_steady {node added : Node} {phase : Phase} (steady : Steady node) (fitting : Fitting node.rdpos node.latest tx)
    (ran : node.addValidatorTx tx = some added)
    (current : node.rdpos.validatorMempool.length ≤ added.rdpos.validatorMempool.length → Current { added with phase } phase) :
    Steady { added with phase } := by
  obtain ⟨unlocked, answered, found, rfl⟩ := addValidatorTx_ok ran
  obtain ⟨telling, grown⟩ := telling_add steady.telling fitting found
  constructor
  · exact telling
  · exact current grown
  · exact fun locked => absurd unlocked locked

/-- The worker reveals its seed as soon as the size that it has read is enough. -/
theorem reveal_cases {node after : Node} {sent : List TxValidator} (ran : node.step lib sha3 .reveal = some (after, sent)) :
    ∃ latestBlock seedTx validatorMempoolSize added, node.phase = .collecting latestBlock seedTx validatorMempoolSize ∧
      ¬ (validatorMempoolSize < node.rdpos.minValidators.toNat ∧ !node.stopWorker) ∧ node.addValidatorTx seedTx = some added ∧
      after = { added with phase := .resting latestBlock } ∧ sent = [seedTx] := by
  unfold Node.step at ran
  dsimp only at ran
  split at ran
  case h_2 => cases ran
  case h_1 latestBlock seedTx validatorMempoolSize phase =>
    split at ran
    case isTrue => cases ran
    case isFalse enough =>
      obtain ⟨added, adding, ran⟩ := Option.bind_eq_some_iff.mp ran
      cases ran
      exact ⟨latestBlock, seedTx, validatorMempoolSize, added, phase, enough, adding, rfl, rfl⟩

theorem reveal_committed {node after : Node} {sent : List TxValidator} (steady : Steady node) (running : node.stopWorker = false)
    (ran : node.step lib sha3 .reveal = some (after, sent)) : ∃ seedTx, sent = [seedTx] ∧ Committed node.rdpos seedTx.nHeight := by
  obtain ⟨latestBlock, seedTx, validatorMempoolSize, added, phase, enough, _, _, rfl⟩ := reveal_cases ran
  have current := steady.current
  rw [phase] at current
  obtain ⟨_, height, size⟩ := current
  refine ⟨seedTx, rfl, ?_⟩
  rw [height]
  apply committed_of_size steady.telling
  have reached : ¬ validatorMempoolSize < node.rdpos.minValidators.toNat := fun short => enough ⟨short, by rw [running]; rfl⟩
  omega

theorem turned_steady {phase : Phase} (steady : Steady node) (unlocked : busy phase = true → node.appending = none)
    (current : Current node phase) : Steady { node with phase } := by
  constructor
  · exact steady.telling
  · exact current
  · intro locked
    refine ⟨(steady.locked locked).1, ?_⟩
    by_contra working
    exact locked (unlocked (Bool.eq_true_of_not_eq_false working))

theorem busy_unlocked (steady : Steady node) (busy : busy node.phase = true) : node.appending = none := by
  by_contra locked
  cases busy.symm.trans (steady.locked locked).2

theorem emptied_steady (shuffled : rdpos.randomList.Nodup) (empty : rdpos.validatorMempool = [])
    (idle : busy node.phase = false) (latest : Block) (appending : Option Block) : Steady { node with rdpos, latest, appending } := by
  constructor
  · exact telling_empty shuffled empty
  · exact current_idle idle
  · exact fun _ => ⟨empty, idle⟩

section Turns
variable {node after : Node} {sent : List TxValidator} (steady : Steady node)
include steady

theorem refresh_steady (unlocked : node.appending = none) (ran : node.step lib sha3 .refresh = some (after, sent)) : Steady after := by
  have looking : Steady { node with phase := .looking node.latest } := turned_steady steady (fun _ => unlocked) rfl
  unfold Node.step at ran
  dsimp only at ran
  split at ran
  case h_1 =>
    cases ran
    exact looking
  case h_2 =>
    split at ran
    case isTrue =>
      cases ran
      exact looking
    case isFalse => cases ran
  case h_3 => cases ran

theorem look_steady {randomness : Hash} (running : node.stopWorker = false)
    (ran : node.step lib sha3 (.look randomness) = some (after, sent)) : Steady after := by
  have current := steady.current
  unfold Node.step at ran
  dsimp only at ran
  split at ran
  case h_2 => cases ran
  case h_1 latestBlock phase =>
    rw [phase] at current
    split at ran
    case isTrue stopped => cases running.symm.trans stopped
    case isFalse =>
      split at ran
      case h_2 => cases ran
      case h_1 turned =>
        cases ran
        have same : latestBlock = node.latest := current
        rw [same] at turned
        exact turned_steady steady (fun _ => busy_unlocked steady (by rw [phase]; rfl)) (turn_current turned)

theorem commit_steady (ran : node.step lib sha3 .commit = some (after, sent)) : Steady after := by
  have current := steady.current
  unfold Node.step at ran
  dsimp only at ran
  split at ran
  case h_2 => cases ran
  case h_1 latestBlock randomHashTx seedTx phase =>
    rw [phase] at current
    obtain ⟨same, hash, height⟩ := current
    obtain ⟨added, adding, ran⟩ := Option.bind_eq_some_iff.mp ran
    cases ran
    apply added_steady steady (.inr (.inr (.inl hash))) adding
    obtain ⟨_, _, _, rfl⟩ := addValidatorTx_ok adding
    exact fun _ => ⟨same, height, Nat.zero_le _⟩

theorem readSize_steady (ran : node.step lib sha3 .readSize = some (after, sent)) : Steady after := by
  have current := steady.current
  unfold Node.step at ran
  dsimp only at ran
  split at ran
  case h_2 => cases ran
  case h_1 latestBlock seedTx validatorMempoolSize phase =>
    rw [phase] at current
    split at ran
    case isFalse => cases ran
    case isTrue =>
      cases ran
      exact turned_steady steady (fun _ => busy_unlocked steady (by rw [phase]; rfl)) ⟨current.1, current.2.1, Nat.le_refl _⟩

theorem reveal_steady (running : node.stopWorker = false) (ran : node.step lib sha3 .reveal = some (after, sent)) : Steady after := by
  obtain ⟨tx, single, committed⟩ := reveal_committed steady running ran
  obtain ⟨latestBlock, seedTx, validatorMempoolSize, added, phase, _, adding, rfl, rfl⟩ := reveal_cases ran
  have current := steady.current
  rw [phase] at current
  cases single
  rw [current.2.1] at committed
  exact added_steady steady (.inr (.inr (.inr committed))) adding fun _ => trivial

end Turns

theorem step_steady {node after : Node} {event : Node.Event} {sent : List TxValidator} (steady : Steady node)
    (running : node.stopWorker = false) (harmless : Harmless node event) (ran : node.step lib sha3 event = some (after, sent)) :
    Steady after ∨ after.stopWorker = true := by
  cases event with
  | refresh => exact .inl (refresh_steady steady harmless ran)
  | look randomness => exact .inl (look_steady steady running ran)
  | commit => exact .inl (commit_steady steady ran)
  | readSize => exact .inl (readSize_steady steady ran)
  | reveal => exact .inl (reveal_steady steady running ran)
  | giveUp =>
    unfold Node.step at ran
    dsimp only at ran
    split at ran
    case h_2 => cases ran
    case h_1 =>
      split at ran
      case isTrue stopped => cases running.symm.trans stopped
      case isFalse => cases ran
  | deliver tx =>
    obtain ⟨added, adding, ran⟩ := Option.bind_eq_some_iff.mp ran
    cases ran
    apply Or.inl
    apply added_steady steady harmless adding
    obtain ⟨_, _, _, rfl⟩ := addValidatorTx_ok adding
    exact current_grown steady.current
  | processBlock block =>
    unfold Node.step at ran
    dsimp only at ran
    split at ran
    case h_1 rdpos _ processed =>
      cases ran
      exact .inl (emptied_steady (processBlock_shuffled processed) (processBlock_mempool processed) harmless _ _)
    case h_2 => cases ran
  | pushBack =>
    unfold Node.step at ran
    dsimp only at ran
    split at ran
    case h_1 block locked =>
      cases ran
      obtain ⟨empty, idle⟩ := steady.locked fun unlocked => by cases unlocked.symm.trans locked
      exact .inl (emptied_steady steady.telling.shuffled empty idle _ _)
    case h_2 => cases ran
  | clearMempool =>
    cases ran
    exact .inl (@emptied_steady node.rdpos.clearMempool node steady.telling.shuffled rfl harmless _ _)
  | stop =>
    cases ran
    exact .inr rfl

theorem stopped_stays {node after : Node} {event : Node.Event} {sent : List TxValidator} (stopped : node.stopWorker = true)
    (ran : node.step lib sha3 event = some (after, sent)) : after.stopWorker = true := by
  have adds {tx : TxValidator} {added : Node} (adding : node.addValidatorTx tx = some added) : added.stopWorker = true := by
    obtain ⟨_, _, _, rfl⟩ := addValidatorTx_ok adding
    exact stopped
  cases event with
  | deliver tx =>
    obtain ⟨added, adding, ran⟩ := Option.bind_eq_some_iff.mp ran
    cases ran
    exact adds adding
  | stop =>
    cases ran
    rfl
  | clearMempool =>
    cases ran
    exact stopped
  | _ =>
    unfold Node.step at ran
    dsimp only at ran
    repeat' split at ran
    all_goals first
      | contradiction
      | cases ran
        exact stopped
      | obtain ⟨added, adding, ran⟩ := Option.bind_eq_some_iff.mp ran
        cases ran
        exact (adds adding : added.stopWorker = true)

variable {ι : Type} [DecidableEq ι]

/-- The worker of a node that was not stopped reveals its seed only if everyone has committed to one. -/
def CommitsFirst (lib : Secp256k1) (sha3 : Bytes → Hash) (node : Node) : Prop :=
  ∀ after sent, node.stopWorker = false → node.step lib sha3 .reveal = some (after, sent) →
    ∃ seedTx, sent = [seedTx] ∧ Committed node.rdpos seedTx.nHeight

/-- What may happen to a node whose worker was not stopped. -/
def Undisturbed (node : Node) (event : Node.Event) : Prop := node.stopWorker = false → Harmless node event

theorem run_steady {start network : ι → Node} (started : ∀ i, Started sha3 (start i))
    (run : ReflTransGen (Turn lib sha3 Undisturbed) start network) (i : ι) : Steady (network i) ∨ (network i).stopWorker = true := by
  induction run with
  | refl => exact .inl (started_steady (started i))
  | @tail before after _ turn ih =>
    obtain ⟨j, event, node, sent, allowed, ran, rfl⟩ := turn
    by_cases same : i = j
    · cases same
      rw [Function.update_self]
      cases running : (before i).stopWorker with
      | true => exact .inr (stopped_stays running ran)
      | false =>
        cases ih with
        | inl steady => exact step_steady steady running (allowed running) ran
        | inr stopped => cases running.symm.trans stopped
    · rw [Function.update_of_ne same]
      exact ih

/-- In a run in which, until everyone has committed, a mempool lets in commitments only, and in which no block is processed and no
mempool emptied while a worker is between its look at the latest block and its reveal, every worker reveals its seed
only when its mempool has a commitment of every validator that takes part. -/
theorem undisturbed_workers_commit_first {start network : ι → Node} (started : ∀ i, Started sha3 (start i))
    (run : ReflTransGen (Turn lib sha3 Undisturbed) start network) (i : ι) : CommitsFirst lib sha3 (network i) := by
  intro after sent running ran
  cases run_steady started run i with
  | inl steady => exact reveal_committed steady running ran
  | inr stopped => cases running.symm.trans stopped

def halfCurve : Secp256k1 where
  pubkeyCreate key := some (key ++ 0#256)
  signRecoverable _ key := some ⟨key, 1, 0⟩
  ecdsaRecover sig _ := some (sig.r ++ 0#256)

def firsts (bytes : Bytes) : Hash := Hash.ofBytes (bytes.take 32)

def follow (node : Node) (events : List Node.Event) : Option Node :=
  events.foldlM (fun node event => (node.step halfCurve firsts event).map Prod.fst) node

theorem turn_single {allowed : Node → Node.Event → Prop} {node next : Node} {event : Node.Event} {sent : List TxValidator}
    (fine : allowed node event) (ran : node.step halfCurve firsts event = some (next, sent)) :
    Turn halfCurve firsts allowed (fun _ : Unit => node) fun _ => next := by
  refine ⟨(), event, next, sent, fine, ran, ?_⟩
  funext i
  exact (Function.update_self (β := fun _ => Node) () next _).symm

theorem follow_run {allowed : Node → Node.Event → Prop} {last : Node} (events : List Node.Event) :
    ∀ {node : Node}, (∀ event ∈ events, ∀ node, allowed node event) → follow node events = some last →
      ReflTransGen (Turn halfCurve firsts allowed) (fun _ : Unit => node) fun _ => last := by
  induction events with
  | nil =>
    intro node _ ran
    cases ran
    exact .refl
  | cons event rest ih =>
    intro node fine ran
    obtain ⟨after, stepped, ran⟩ := Option.bind_eq_some_iff.mp ran
    obtain ⟨⟨next, sent⟩, stepping, same⟩ := Option.map_eq_some_iff.mp stepped
    cases same
    apply ReflTransGen.head
    · exact turn_single (fine event List.mem_cons_self node) stepping
    · exact ih (fun later member => fine later (List.mem_cons_of_mem _ member)) ran

/-- What the validator with some key sends at the first height. -/
def message (key : PrivKey) (functor : Bytes) (random : Hash) : TxValidator :=
  let tx : TxValidator :=
    { «from» := key.setWidth 160, data := functor ++ random.get, chainId := 8080, nHeight := 1, v := 16195, r := key, s := 1, hash := 0 }
  { tx with hash := firsts (tx.rlpSerialize true) }

/-- The validator with the second key, among some others. -/
abbrev second (minValidators : UInt32) (validators : List Address) : Node where
  rdpos := { minValidators, validators := OrderedSet.ofList validators, randomList := validators, randomGen := 0, bestRandomSeed := 0 }
  latest := RandomOrder.drawing 0 0
  validatorKey := 2
  chainId := 8080

abbrev drawn : Hash := BitVec.twoPow 256 255

abbrev commitment : TxValidator := message 2 [0xcf, 0xff, 0xe7, 0x46] drawn

abbrev ownSeed : TxValidator := message 2 [0x6f, 0xc5, 0xa2, 0xd6] drawn

def otherCommitment : TxValidator := message 3 [0xcf, 0xff, 0xe7, 0x46] 9

def earlySeed : TxValidator := message 3 [0x6f, 0xc5, 0xa2, 0xd6] 9

/-- The node when its worker waits, with some transactions in its mempool. -/
abbrev waiting (minValidators : UInt32) (validators : List Address) (txs : List TxValidator) (validatorMempoolSize : Nat) : Node :=
  let node := second minValidators validators
  { node with
    rdpos := { node.rdpos with validatorMempool := txs.map fun tx => (tx.hash, tx) }
    phase := .collecting (RandomOrder.drawing 0 0) ownSeed validatorMempoolSize }

theorem three_started : Started firsts (second 2 [1, 2, 3]) := @Started.start _ ∅ (_, _) [1, 2, 3] 2 (RandomOrder.drawing 0 0) rfl 2 8080

/-- Once the size is read, the seed is revealed if the mempool can answer. -/
theorem second_reveals {minValidators : UInt32} {validators : List Address} {txs : List TxValidator} {answered : Bool × RdPoS}
    (found : (waiting minValidators validators txs 0).rdpos.addValidatorTx (RandomOrder.drawing 0 0) ownSeed = .ok answered) :
    ∃ after, (waiting minValidators validators txs minValidators.toNat).step halfCurve firsts .reveal = some (after, [ownSeed]) := by
  have adds := @addValidatorTx_eq ownSeed (waiting minValidators validators txs minValidators.toNat) answered rfl found
  unfold Node.step
  dsimp only
  rw [if_neg fun short => absurd short.1 (Nat.lt_irrefl _), adds]
  exact ⟨_, rfl⟩

/-- What the third validator sends is let in after the commitment of the second. -/
theorem delivered {tx : TxValidator} (answered : (waiting 2 [1, 2, 3] [commitment] 0).rdpos.addValidatorTx (RandomOrder.drawing 0 0) tx =
      .ok (true, (waiting 2 [1, 2, 3] [commitment, tx] 0).rdpos)) :
    (waiting 2 [1, 2, 3] [commitment] 0).step halfCurve firsts (.deliver tx) = some (waiting 2 [1, 2, 3] [commitment, tx] 0, []) :=
  congrArg (fun added => Option.bind added fun added => some (added, [])) (addValidatorTx_eq rfl answered)

private theorem followed : follow { second 2 [1, 2, 3] with phase := .looking (RandomOrder.drawing 0 0) } [.look drawn, .commit] =
    some (waiting 2 [1, 2, 3] [commitment] 0) := by rfl

/-- Two take part, and the second reveals its seed when the commitment of the other one has arrived. -/
theorem second_commits_first : CommitsFirst halfCurve firsts (waiting 2 [1, 2, 3] [commitment, otherCommitment] 2) ∧
    ∃ after, (waiting 2 [1, 2, 3] [commitment, otherCommitment] 2).step halfCurve firsts .reveal = some (after, [ownSeed]) := by
  have refresh : Turn halfCurve firsts Undisturbed (fun _ : Unit => second 2 [1, 2, 3]) fun _ =>
      { second 2 [1, 2, 3] with phase := .looking (RandomOrder.drawing 0 0) } := @turn_single _ _ _ .refresh [] (fun _ => rfl) rfl
  have committed := @follow_run Undisturbed (waiting 2 [1, 2, 3] [commitment] 0) [.look drawn, .commit]
    { second 2 [1, 2, 3] with phase := .looking (RandomOrder.drawing 0 0) } (by
    intro event member node _
    simp only [List.mem_cons, List.not_mem_nil, or_false] at member
    obtain look | commit := member
    · exact look ▸ trivial
    · exact commit ▸ trivial) followed
  have deliver : Turn halfCurve firsts Undisturbed (fun _ : Unit => waiting 2 [1, 2, 3] [commitment] 0) fun _ =>
      waiting 2 [1, 2, 3] [commitment, otherCommitment] 0 := by
    have new : ¬ ((waiting 2 [1, 2, 3] [commitment] 0).rdpos.validatorMempool.any fun entry => entry.1 = otherCommitment.hash) = true := by
      decide +kernel
    have fitting : Fitting (waiting 2 [1, 2, 3] [commitment] 0).rdpos (RandomOrder.drawing 0 0) otherCommitment :=
      .inr (.inr (.inl (@function_randomHash otherCommitment 9 rfl)))
    refine @turn_single _ _ _ (.deliver otherCommitment) [] (fun _ => fitting) (delivered ?_)
    rw [RdPoS.addValidatorTx, if_neg new]
    rfl
  have readSize : Turn halfCurve firsts Undisturbed (fun _ : Unit => waiting 2 [1, 2, 3] [commitment, otherCommitment] 0) fun _ =>
      waiting 2 [1, 2, 3] [commitment, otherCommitment] 2 := @turn_single _ _ _ .readSize [] (fun _ => trivial) rfl
  refine ⟨undisturbed_workers_commit_first (fun _ => three_started) (.head refresh ((committed.tail deliver).tail readSize)) (), ?_⟩
  have new : ¬ ((waiting 2 [1, 2, 3] [commitment, otherCommitment] 0).rdpos.validatorMempool.any fun entry =>
    entry.1 = ownSeed.hash) = true := by decide +kernel
  have answered : ∃ answered, (waiting 2 [1, 2, 3] [commitment, otherCommitment] 0).rdpos.addValidatorTx (RandomOrder.drawing 0 0) ownSeed =
      .ok answered := by
    rw [RdPoS.addValidatorTx, if_neg new]
    exact ⟨_, rfl⟩
  obtain ⟨_, found⟩ := answered
  exact second_reveals found

private theorem prepared : follow (second 2 [1, 2, 3]) [.refresh, .look drawn, .commit] = some (waiting 2 [1, 2, 3] [commitment] 0) := by rfl

/-- Of two that take part, one sends its seed first. The other one takes it for a commitment and reveals. -/
theorem early_seed_misleads_worker :
    TxValidator.sign halfCurve firsts 3 ([0x6f, 0xc5, 0xa2, 0xd6] ++ Hash.get 9) 8080 1 3 = .ok earlySeed ∧
      Started firsts (second 2 [1, 2, 3]) ∧
      ReflTransGen (Turn halfCurve firsts fun _ _ => True) (fun _ : Unit => second 2 [1, 2, 3])
        (fun _ => waiting 2 [1, 2, 3] [commitment, earlySeed] 2) ∧
      ¬ CommitsFirst halfCurve firsts (waiting 2 [1, 2, 3] [commitment, earlySeed] 2) := by
  refine ⟨by decide +kernel, three_started, ?_, ?_⟩
  · have delivered : (waiting 2 [1, 2, 3] [commitment] 0).step halfCurve firsts (.deliver earlySeed) =
        some (waiting 2 [1, 2, 3] [commitment, earlySeed] 0, []) := by
      apply delivered
      have new : ¬ ((waiting 2 [1, 2, 3] [commitment] 0).rdpos.validatorMempool.any fun entry => entry.1 = earlySeed.hash) = true := by
        decide +kernel
      rw [RdPoS.addValidatorTx, if_neg new]
      rfl
    have read : (waiting 2 [1, 2, 3] [commitment, earlySeed] 0).step halfCurve firsts .readSize =
      some (waiting 2 [1, 2, 3] [commitment, earlySeed] 2, []) := by rfl
    have committed : ReflTransGen (Turn halfCurve firsts fun _ _ => True) (fun _ : Unit => second 2 [1, 2, 3]) _ :=
      follow_run _ (fun _ _ _ => trivial) prepared
    exact (committed.tail (turn_single trivial delivered)).tail (turn_single trivial read)
  · intro first
    have new : ¬ ((waiting 2 [1, 2, 3] [commitment, earlySeed] 0).rdpos.validatorMempool.any fun entry =>
      entry.1 = ownSeed.hash) = true := by decide +kernel
    have answered : ∃ answered, (waiting 2 [1, 2, 3] [commitment, earlySeed] 0).rdpos.addValidatorTx (RandomOrder.drawing 0 0) ownSeed =
        .ok answered := by
      rw [RdPoS.addValidatorTx, if_neg new]
      exact ⟨_, rfl⟩
    obtain ⟨_, found⟩ := answered
    obtain ⟨after, revealed⟩ := second_reveals found
    obtain ⟨revealedTx, single, committed⟩ := first after _ rfl revealed
    obtain ⟨tx, member, sender, function, _⟩ := committed 3 (by decide)
    cases List.mem_cons.mp member with
    | inl own =>
      rw [own] at sender
      exact absurd sender (by decide)
    | inr other =>
      rw [List.mem_singleton.mp other] at function
      exact absurd function (by decide)

end OrbiterSDK.Proofs.CommitReveal
