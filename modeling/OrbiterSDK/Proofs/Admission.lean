import OrbiterSDK.RdPoS
import OrbiterSDK.Lib.Quota

/-! What gets into the mempool of validator transactions: transactions for the next block, from
validators that take part, two at most from each and with different functors. -/

namespace OrbiterSDK.Proofs.Admission
open Lib RdPoS

variable {sha3 : Bytes → Hash} {rdpos next : RdPoS} {db : DB} {latest : Block} {tx : TxValidator} {added : Bool}

/-- The transactions in the mempool. -/
def pooled (rdpos : RdPoS) : List TxValidator := rdpos.validatorMempool.map Prod.snd

def sentBy (rdpos : RdPoS) (sender : Address) : List TxValidator := withKey TxValidator.from (pooled rdpos) sender

/-- A transaction that is let in. -/
structure Admitted (rdpos : RdPoS) (latest : Block) (tx : TxValidator) : Prop where
  new : ∀ entry ∈ rdpos.validatorMempool, entry.1 ≠ tx.hash
  height : tx.nHeight = latest.nHeight + 1
  participates : rdpos.participates tx.from ((rdpos.minValidators + 1).toNat - 1) 1 = .ok true
  apart : sentBy rdpos tx.from = [] ∨ ∃ present functor another,
    sentBy rdpos tx.from = [present] ∧ present.getFunctor = .ok functor ∧ tx.getFunctor = .ok another ∧ functor ≠ another

theorem addValidatorTx_cases (answered : rdpos.addValidatorTx latest tx = .ok (added, next)) :
    next = rdpos ∨ Admitted rdpos latest tx ∧ next = { rdpos with validatorMempool := rdpos.validatorMempool ++ [(tx.hash, tx)] } := by
  unfold addValidatorTx at answered
  split at answered
  case isTrue =>
    cases answered
    exact .inl rfl
  case isFalse absent =>
    split at answered
    case isTrue =>
      cases answered
      exact .inl rfl
    case isFalse height =>
      obtain ⟨participating, participates, answered⟩ := bind_ok.mp answered
      split at answered
      case isTrue =>
        cases answered
        exact .inl rfl
      case isFalse does =>
        have does : participating = true := by simpa using does
        have new : ∀ entry ∈ rdpos.validatorMempool, entry.1 ≠ tx.hash := by
          intro entry member same
          exact absent (List.any_eq_true.mpr ⟨entry, member, decide_eq_true same⟩)
        cases does
        dsimp only at answered
        split at answered
        case h_1 none =>
          cases answered
          exact .inr ⟨⟨new, not_not.mp height, participates, .inl none⟩, rfl⟩
        case h_2 present one =>
          obtain ⟨functor, first, answered⟩ := bind_ok.mp answered
          obtain ⟨another, second, answered⟩ := bind_ok.mp answered
          split at answered
          case isTrue =>
            cases answered
            exact .inl rfl
          case isFalse apart =>
            cases answered
            exact .inr ⟨⟨new, not_not.mp height, participates, .inr ⟨present, functor, another, one, first, second, apart⟩⟩, rfl⟩
        case h_3 =>
          cases answered
          exact .inl rfl

/-- Transactions whose functors can be read and differ. -/
def Apart (first second : TxValidator) : Prop :=
  ∃ functor another, first.getFunctor = .ok functor ∧ second.getFunctor = .ok another ∧ functor ≠ another

/-- Senders of validator transactions: those behind the first in the order. -/
def participants (rdpos : RdPoS) : List Address := (rdpos.randomList.drop 1).take rdpos.minValidators.toNat

theorem participants_nodup (shuffled : rdpos.randomList.Nodup) : (participants rdpos).Nodup :=
  (shuffled.sublist (List.drop_sublist 1 _)).sublist (List.take_sublist _ _)

theorem functor_of_function {tx : TxValidator} (valid : getTxValidatorFunction tx ≠ .invalid) :
    (getTxValidatorFunction tx = .randomHash ∧ tx.getFunctor = .ok randomHashHash) ∨
      getTxValidatorFunction tx = .randomSeed ∧ tx.getFunctor = .ok randomSeedHash := by
  have size : tx.data.length = 36 := by
    by_contra other
    exact valid (if_pos other)
  have reads : tx.getFunctor = .ok (Functor.ofBytes (tx.data.take 4)) := if_pos (by omega)
  have function : getTxValidatorFunction tx = if Functor.ofBytes (tx.data.take 4) = randomHashHash then .randomHash
      else if Functor.ofBytes (tx.data.take 4) = randomSeedHash then .randomSeed else .invalid := if_neg (not_not.mpr size)
  rw [function, reads]
  by_cases hash : Functor.ofBytes (tx.data.take 4) = randomHashHash
  · exact .inl ⟨if_pos hash, congrArg Except.ok hash⟩
  · by_cases seed : Functor.ofBytes (tx.data.take 4) = randomSeedHash
    · exact .inr ⟨(if_neg hash).trans (if_pos seed), congrArg Except.ok seed⟩
    · exact absurd (function.trans ((if_neg hash).trans (if_neg seed))) valid

structure Orderly (rdpos : RdPoS) (latest : Block) : Prop where
  keyed : ∀ entry ∈ rdpos.validatorMempool, entry.1 = entry.2.hash
  once : (rdpos.validatorMempool.map Prod.fst).Nodup
  heights : ∀ tx ∈ pooled rdpos, tx.nHeight = latest.nHeight + 1
  senders : ∀ tx ∈ pooled rdpos, tx.from ∈ participants rdpos
  few : ∀ sender, (sentBy rdpos sender).length ≤ 2
  apart : ∀ sender, (sentBy rdpos sender).Pairwise Apart

theorem orderly_empty (none : rdpos.validatorMempool = []) : Orderly rdpos latest := by
  have nothing : pooled rdpos = [] := congrArg (List.map Prod.snd) none
  constructor
  · rw [none]
    exact nofun
  · rw [none]
    exact List.nodup_nil
  · rw [nothing]
    exact nofun
  · rw [nothing]
    exact nofun
  · intro sender
    rw [sentBy, nothing]
    exact Nat.zero_le 2
  · intro sender
    rw [sentBy, nothing]
    exact List.Pairwise.nil

theorem participates_mem {sender : Address} (turns : Nat) : ∀ {i : Nat}, rdpos.participates sender turns i = .ok true →
    sender ∈ (rdpos.randomList.drop i).take turns := by
  induction turns with
  | zero =>
    intro i found
    cases found
  | succ turns ih =>
    intro i found
    rw [participates] at found
    obtain ⟨validator, here, found⟩ := bind_ok.mp found
    have present : rdpos.randomList[i]? = some validator := by
      unfold randomAt at here
      split at here
      case h_1 other present =>
        cases here
        exact present
      case h_2 => cases here
    obtain ⟨inside, same⟩ := List.getElem?_eq_some_iff.mp present
    rw [List.drop_eq_getElem_cons inside, List.take_succ_cons, same]
    split at found
    case isTrue same => exact same ▸ List.mem_cons_self
    case isFalse => exact List.mem_cons_of_mem _ (ih found)

theorem admitted_orderly (orderly : Orderly rdpos latest) (admitted : Admitted rdpos latest tx) :
    Orderly { rdpos with validatorMempool := rdpos.validatorMempool ++ [(tx.hash, tx)] } latest := by
  have whole : pooled { rdpos with validatorMempool := rdpos.validatorMempool ++ [(tx.hash, tx)] } = pooled rdpos ++ [tx] := List.map_append
  have member {other : TxValidator} (inside : other ∈ pooled rdpos ++ [tx]) : other ∈ pooled rdpos ∨ other = tx := by
    rw [List.mem_append, List.mem_singleton] at inside
    exact inside
  have fromOther {sender : Address} (apart : tx.from ≠ sender) :
      withKey TxValidator.from (pooled rdpos ++ [tx]) sender = sentBy rdpos sender := by
    unfold withKey
    rw [List.filter_append, List.filter_cons_of_neg (by simp [apart]), List.filter_nil, List.append_nil]
    rfl
  have fromHere : withKey TxValidator.from (pooled rdpos ++ [tx]) tx.from = sentBy rdpos tx.from ++ [tx] := by
    unfold withKey
    rw [List.filter_append, List.filter_cons_of_pos (by simp), List.filter_nil]
    rfl
  constructor
  · intro entry inside
    cases List.mem_append.mp inside with
    | inl older => exact orderly.keyed entry older
    | inr new => exact List.mem_singleton.mp new ▸ rfl
  · rw [List.map_append, List.map_singleton]
    apply List.nodup_append.mpr
    refine ⟨orderly.once, List.nodup_singleton _, ?_⟩
    intro key inside other single same
    obtain ⟨entry, inside, equal⟩ := List.mem_map.mp inside
    exact admitted.new entry inside (equal.trans (same.trans (List.mem_singleton.mp single)))
  · rw [whole]
    intro other inside
    cases member inside with
    | inl older => exact orderly.heights other older
    | inr new => exact new ▸ admitted.height
  · rw [whole]
    intro other inside
    cases member inside with
    | inl older => exact orderly.senders other older
    | inr new =>
      have found := participates_mem _ admitted.participates
      have narrow : (rdpos.minValidators + 1).toNat - 1 ≤ rdpos.minValidators.toNat := by
        have sum : (rdpos.minValidators + 1).toNat = (rdpos.minValidators.toNat + 1) % 2 ^ 32 := UInt32.toNat_add _ _
        have bound := Nat.mod_le (rdpos.minValidators.toNat + 1) (2 ^ 32)
        omega
      rw [new]
      exact List.take_subset_take_left _ narrow found
  · intro sender
    rw [sentBy, whole]
    by_cases same : tx.from = sender
    · rw [← same, fromHere, List.length_append, List.length_singleton]
      cases admitted.apart with
      | inl none =>
        rw [none]
        exact Nat.le_succ 1
      | inr one =>
        obtain ⟨present, _, _, one, _⟩ := one
        rw [one]
        exact le_rfl
    · rw [fromOther same]
      exact orderly.few sender
  · intro sender
    rw [sentBy, whole]
    by_cases same : tx.from = sender
    · rw [← same, fromHere]
      cases admitted.apart with
      | inl none =>
        rw [none]
        exact List.pairwise_singleton _ tx
      | inr one =>
        obtain ⟨present, functor, another, one, first, second, apart⟩ := one
        rw [one]
        exact List.pairwise_pair.mpr ⟨functor, another, first, second, apart⟩
    · rw [fromOther same]
      exact orderly.apart sender

theorem load_mempool {genesisValidators : List Address} {minValidators : UInt32} {opened : RdPoS × DB}
    (loaded : load sha3 db genesisValidators minValidators latest = .ok opened) : opened.1.validatorMempool = [] := by
  unfold load at loaded
  dsimp only at loaded
  split at loaded
  case isTrue => cases loaded
  case isFalse =>
    obtain ⟨addresses, _, loaded⟩ := bind_ok.mp loaded
    obtain ⟨shuffled, _, loaded⟩ := bind_ok.mp loaded
    cases loaded
    rfl

theorem processBlock_mempool {block : Block} (processed : rdpos.processBlock sha3 block = .ok next) : next.validatorMempool = [] := by
  unfold processBlock at processed
  split at processed
  case isTrue => cases processed
  case isFalse =>
    obtain ⟨shuffled, _, processed⟩ := bind_ok.mp processed
    cases processed
    rfl

theorem lived_orderly (lived : Lived sha3 rdpos db latest) : Orderly rdpos latest := by
  induction lived with
  | start genesisValidators minValidators latest loaded sized => exact orderly_empty (load_mempool loaded)
  | processBlock block lived processed _ => exact orderly_empty (processBlock_mempool processed)
  | addValidatorTx tx lived answered orderly =>
    cases addValidatorTx_cases answered with
    | inl same => exact same ▸ orderly
    | inr accepted => exact accepted.2 ▸ admitted_orderly orderly accepted.1
  | clearMempool lived _ => exact orderly_empty rfl
  | elsewhere lived same orderly => exact orderly
  | restart lived stopped genesisValidators minValidators loaded _ => exact orderly_empty (load_mempool loaded)

end OrbiterSDK.Proofs.Admission
