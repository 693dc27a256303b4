import OrbiterSDK.BlockBytes
import OrbiterSDK.Proofs.TxShapes
import OrbiterSDK.Proofs.ValidatorRoundTrip

/-! The chain id that bytes state, and the one that is required of them. Nothing compares
the two, so what is read belongs to the required chain exactly if its bytes say so. -/

namespace OrbiterSDK.Proofs.ChainIds
open Lib Lib.Reader Utils Tx ByteStrings TxRoundTrip

/-- An integer and its value: a byte below 0x80 for itself, or bytes behind their length. -/
inductive UintAt (longest : Nat) : Bytes → Nat → Prop where
  | byte {value : UInt8} (small : value < 0x80) : UintAt longest [value] value.toNat
  | string {payload : Bytes} (few : payload.length ≤ longest) :
      UintAt longest (UInt8.ofNat (payload.length + 0x80) :: payload) (bytesToUint payload)

/-- The data of a validator transaction. From 0xb7 on the length has a length itself. -/
inductive DataAt : Bytes → Prop where
  | byte {value : UInt8} (small : value < 0x80) : DataAt [value]
  | short {data : Bytes} (few : data.length < 55) : DataAt (UInt8.ofNat (data.length + 0x80) :: data)
  | long {size data : Bytes} (few : size.length ≤ 72) (holds : bytesToUint size % 2 ^ 64 = data.length) :
      DataAt (UInt8.ofNat (size.length + 0xb7) :: (size ++ data))

/-- The header of a list, whose length has a length. -/
inductive ListAt : Bytes → Prop where
  | long {size : Bytes} (few : size.length ≤ 8) : ListAt (UInt8.ofNat (size.length + 0xf7) :: size)

private theorem ofNat_inj {left right : Nat} (leftFits : left < 256) (rightFits : right < 256)
    (same : UInt8.ofNat left = UInt8.ofNat right) : left = right := by
  have numbers := congrArg UInt8.toNat same
  rw [UInt8.toNat_ofNat', UInt8.toNat_ofNat'] at numbers
  omega

private theorem large_of_ofNat {value : UInt8} {count offset : Nat} (small : value < 0x80) (large : 0x80 ≤ offset)
    (fits : count + offset < 256) : value ≠ UInt8.ofNat (count + offset) := by
  rintro rfl
  have below := UInt8.lt_iff_toNat_lt.mp small
  rw [UInt8.toNat_ofNat', Nat.mod_eq_of_lt fits] at below
  have bound : count + offset < 0x80 := below
  omega

theorem UintAt.unique {longest value value' : Nat} {item item' after after' : Bytes} (short : longest < 0x80)
    (first : UintAt longest item value) (second : UintAt longest item' value') (same : item ++ after = item' ++ after') :
    value = value' ∧ after = after' := by
  cases first with
  | byte small =>
    cases second with
    | byte small' =>
      obtain ⟨rfl, rfl⟩ := List.cons.inj same
      exact ⟨rfl, rfl⟩
    | string few' => exact absurd (List.cons.inj same).1 (large_of_ofNat small le_rfl (by omega))
  | @string payload few =>
    cases second with
    | byte small' => exact absurd (List.cons.inj same).1.symm (large_of_ofNat small' le_rfl (by omega))
    | @string payload' few' =>
      obtain ⟨lengths, rest⟩ := List.cons.inj same
      have length := ofNat_inj (by omega) (by omega) lengths
      obtain ⟨rfl, rfl⟩ := List.append_inj rest (by omega)
      exact ⟨rfl, rfl⟩

theorem DataAt.unique {item item' after after' : Bytes} (first : DataAt item) (second : DataAt item')
    (same : item ++ after = item' ++ after') : after = after' := by
  cases first with
  | byte small =>
    cases second with
    | byte small' => exact (List.cons.inj same).2
    | short few' => exact absurd (List.cons.inj same).1 (large_of_ofNat small le_rfl (by omega))
    | long few' holds' => exact absurd (List.cons.inj same).1 (large_of_ofNat small (by omega) (by omega))
  | @short data few =>
    cases second with
    | byte small' => exact absurd (List.cons.inj same).1.symm (large_of_ofNat small' le_rfl (by omega))
    | @short data' few' =>
      obtain ⟨lengths, rest⟩ := List.cons.inj same
      have length := ofNat_inj (by omega) (by omega) lengths
      exact (List.append_inj rest (by omega)).2
    | long few' holds' =>
      have length := ofNat_inj (by omega) (by omega) (List.cons.inj same).1
      omega
  | @long size data few holds =>
    cases second with
    | byte small' => exact absurd (List.cons.inj same).1.symm (large_of_ofNat small' (by omega) (by omega))
    | short few' =>
      have length := ofNat_inj (by omega) (by omega) (List.cons.inj same).1
      omega
    | @long size' data' few' holds' =>
      obtain ⟨lengths, rest⟩ := List.cons.inj same
      have length := ofNat_inj (by omega) (by omega) lengths
      have both : size ++ (data ++ after) = size' ++ (data' ++ after') := by
        rw [← List.append_assoc, ← List.append_assoc]
        exact rest
      obtain ⟨rfl, tail⟩ := List.append_inj both (by omega)
      exact (List.append_inj tail (by omega)).2

theorem ListAt.unique {header header' after after' : Bytes} (first : ListAt header) (second : ListAt header')
    (same : header ++ after = header' ++ after') : after = after' := by
  cases first with
  | @long size few =>
    cases second with
    | @long size' few' =>
      obtain ⟨lengths, rest⟩ := List.cons.inj same
      have length := ofNat_inj (by omega) (by omega) lengths
      exact (List.append_inj rest (by omega)).2

private theorem peek_ok {input middle : Bytes} {first : UInt8} (peeked : (peek pastEnd).eval input = (.ok first, middle)) :
    middle = input ∧ ∃ rest, input = first :: rest := by
  cases input with
  | nil => cases peeked
  | cons head rest =>
    cases peeked
    exact ⟨rfl, rest, rfl⟩

private theorem byte_eq_ofNat {first : UInt8} {count offset : Nat} (large : offset ≤ first.toNat)
    (length : first.toNat - offset = count) : first = UInt8.ofNat (count + offset) := by
  have bound := first.toNat_lt
  apply UInt8.toNat_inj.mp
  rw [UInt8.toNat_ofNat']
  omega

private theorem toNat_sub_offset {first : UInt8} {offset : Nat} (fits : offset < 256) (large : offset ≤ first.toNat) :
    (first - UInt8.ofNat offset).toNat = first.toNat - offset := by
  have bound := first.toNat_lt
  rw [UInt8.toNat_sub, UInt8.toNat_ofNat']
  omega

theorem readUint_at {α : Type} {convert : Bytes → Except Exception α} {refuse : UInt8 → Option Exception} {longest : Nat}
    {input after : Bytes} {value : α} (limit : ∀ length : UInt8, refuse length = none → length.toNat < 0x80 → length.toNat ≤ longest)
    (seen : (readUint convert refuse).eval input = (.ok value, after)) :
    ∃ item number, input = item ++ after ∧ UintAt longest item number ∧
      ∃ payload, bytesToUint payload = number ∧ convert payload = .ok value := by
  unfold readUint at seen
  obtain ⟨first, middle, peeked, read⟩ := eval_bind_ok.mp seen
  obtain ⟨rfl, rest, rfl⟩ := peek_ok peeked
  by_cases large : 0x80 ≤ first
  · have least : 0x80 ≤ first.toNat := UInt8.le_iff_toNat_le.mp large
    have length : (first - 0x80).toNat = first.toNat - 0x80 := @toNat_sub_offset first 0x80 (by omega) least
    have bound := first.toNat_lt
    rw [if_pos large] at read
    by_cases some : first - 0x80 ≠ 0
    · simp only [if_pos some] at read
      cases refused : refuse (first - 0x80) with
      | some what =>
        rw [refused] at read
        cases read
      | none =>
        rw [refused] at read
        obtain ⟨head, _, took, read⟩ := eval_bind_ok.mp read
        obtain ⟨payload, _, counted, read⟩ := eval_bind_ok.mp read
        obtain ⟨converted, rfl⟩ := eval_lift_ok_iff.mp read
        cases took
        obtain ⟨rfl, size⟩ := eval_take_ok counted
        have few := limit _ refused (by omega)
        rw [byte_eq_ofNat least (by omega : first.toNat - 0x80 = payload.length)]
        exact ⟨_, _, rfl, .string (by omega), payload, rfl, converted⟩
    · simp only [if_neg some] at read
      obtain ⟨head, _, took, read⟩ := eval_bind_ok.mp read
      obtain ⟨converted, rfl⟩ := eval_lift_ok_iff.mp read
      cases took
      have zero : first.toNat = 0x80 := by
        rw [not_not.mp some] at length
        have none : (0 : UInt8).toNat = 0 := rfl
        omega
      obtain rfl : first = 0x80 := UInt8.toNat_inj.mp zero
      rw [if_pos rfl] at converted
      exact ⟨[0x80], 0, rfl, @UintAt.string longest [] (Nat.zero_le _), [], rfl, converted⟩
  · have small : first < 0x80 := UInt8.not_le.mp large
    rw [if_neg large] at read
    simp only [ne_eq, not_true, if_false] at read
    obtain ⟨head, _, took, read⟩ := eval_bind_ok.mp read
    obtain ⟨converted, rfl⟩ := eval_lift_ok_iff.mp read
    cases took
    rw [if_neg (UInt8.ne_of_lt small)] at converted
    exact ⟨[first], first.toNat, rfl, .byte small, [first], bytesToUint_singleton first, converted⟩

theorem readData_at {input after data : Bytes} (seen : (readData fun _ => none).eval input = (.ok data, after)) :
    ∃ item, input = item ++ after ∧ DataAt item := by
  unfold readData at seen
  obtain ⟨first, middle, peeked, read⟩ := eval_bind_ok.mp seen
  obtain ⟨rfl, rest, rfl⟩ := peek_ok peeked
  have bound := first.toNat_lt
  by_cases small : first < 0x80
  · rw [if_pos small] at read
    cases read
    exact ⟨[first], rfl, .byte small⟩
  rw [if_neg small] at read
  have least : 0x80 ≤ first.toNat := UInt8.le_iff_toNat_le.mp (UInt8.not_lt.mp small)
  by_cases short : first < 0xb7
  · rw [if_pos short] at read
    have below : first.toNat < 0xb7 := UInt8.lt_iff_toNat_lt.mp short
    have length : (first - 0x80).toNat = first.toNat - 0x80 := @toNat_sub_offset first 0x80 (by omega) least
    obtain ⟨head, _, took, read⟩ := eval_bind_ok.mp read
    cases took
    obtain ⟨rfl, size⟩ := eval_take_ok read
    rw [byte_eq_ofNat least (by omega : first.toNat - 0x80 = data.length)]
    exact ⟨_, rfl, .short (by omega)⟩
  · rw [if_neg short] at read
    have above : 0xb7 ≤ first.toNat := UInt8.le_iff_toNat_le.mp (UInt8.not_lt.mp short)
    have length : (first - 0xb7).toNat = first.toNat - 0xb7 := @toNat_sub_offset first 0xb7 (by omega) above
    obtain ⟨head, _, took, read⟩ := eval_bind_ok.mp read
    obtain ⟨sizeBytes, _, counted, last⟩ := eval_bind_ok.mp read
    cases took
    obtain ⟨sized, count⟩ := eval_take_ok counted
    obtain ⟨rfl, size⟩ := eval_take_ok last
    rw [List.drop_succ_cons, List.drop_zero] at sized
    rw [sized]
    rw [byte_eq_ofNat above (by omega : first.toNat - 0xb7 = sizeBytes.length)]
    rw [fromBigEndian64, UInt64.toNat_ofNat'] at size
    exact ⟨_, (by simp), .long (by omega) size.symm⟩

theorem readList_at {size : UInt64} {input after : Bytes} (seen : (readList size).eval input = (.ok (), after)) :
    ∃ header, input = header ++ after ∧ ListAt header := by
  unfold readList at seen
  obtain ⟨first, middle, peeked, read⟩ := eval_bind_ok.mp seen
  obtain ⟨rfl, rest, rfl⟩ := peek_ok peeked
  have bound := first.toNat_lt
  by_cases short : first < 0xf7
  · rw [if_pos short] at read
    cases read
  · rw [if_neg short] at read
    have above : 0xf7 ≤ first.toNat := UInt8.le_iff_toNat_le.mp (UInt8.not_lt.mp short)
    have length : (first - 0xf7).toNat = first.toNat - 0xf7 := @toNat_sub_offset first 0xf7 (by omega) above
    obtain ⟨head, _, took, read⟩ := eval_bind_ok.mp read
    obtain ⟨listLength, items, counted, last⟩ := eval_bind_ok.mp read
    cases took
    obtain ⟨sized, count⟩ := eval_take_ok counted
    rw [List.drop_succ_cons, List.drop_zero] at sized
    have all : items = after := by
      simp only [Action.eval_ite] at last
      split at last
      · cases last
      · split at last
        · cases last
        · cases last
          rfl
    rw [byte_eq_ofNat above (by omega : first.toNat - 0xf7 = listLength.length), sized, ← all]
    exact ⟨_, rfl, .long (by omega)⟩

private theorem tooLarge_limit {what : Exception} {length : UInt8} (allowed : tooLarge what length = none) : length.toNat ≤ 0x37 := by
  unfold tooLarge at allowed
  split at allowed
  · cases allowed
  case isFalse few => exact UInt8.le_iff_toNat_le.mp (UInt8.not_lt.mp few)

/-- The first item of the list is the chain id. -/
def TxStates (chainId : UInt64) (memory : Bytes) : Prop :=
  ∃ header item rest value, memory = 0x02 :: (header ++ (item ++ rest)) ∧ ListAt header ∧ UintAt 0x37 item value ∧
    value % 2 ^ 64 = chainId.toNat

/-- The third item of the list is twice the chain id and 35 or 36. -/
def ValidatorStates (chainId : UInt64) (memory : Bytes) : Prop :=
  ∃ header data nHeight v rest height value, memory = header ++ (data ++ (nHeight ++ (v ++ rest))) ∧ ListAt header ∧ DataAt data ∧
    UintAt 0x7f nHeight height ∧ UintAt 0x37 v value ∧ (value = 2 * chainId.toNat + 35 ∨ value = 2 * chainId.toNat + 36)

section Transactions
variable {lib : Secp256k1} {sha3 : Bytes → Hash} {bytes past : Bytes} {required : UInt64}

theorem tx_states_iff {tx : TxBlock} (accepted : TxBlock.ofBytes lib sha3 bytes past required = .ok tx) (chainId : UInt64) :
    tx.chainId = chainId ↔ TxStates chainId (bytes ++ past) := by
  obtain ⟨list, items, fields, after, memory, header, itemsRead, recovers⟩ := ofBytes_ok accepted
  obtain ⟨left, rfl, isHeader⟩ := readList_at header
  obtain ⟨_, _, _, _, _, _, _, _, _, _, _, isChainId, _⟩ := readItems_ok itemsRead
  obtain ⟨item, number, rfl, isItem, payload, value, converted⟩ := readUint_at (fun _ allowed _ => tooLarge_limit allowed) isChainId
  have stated : tx.chainId.toNat = number % 2 ^ 64 := by
    rw [show tx.chainId = fields.chainId from (congrArg TxBlock.chainId (recovered_eq_ok.mp recovers).2.2 :),
      ← Except.ok.inj converted, fromBigEndian64, UInt64.toNat_ofNat', value]
  rw [memory]
  constructor
  · rintro rfl
    exact ⟨left, item, _, number, rfl, isHeader, isItem, stated.symm⟩
  · rintro ⟨left', item', rest, number', same, isHeader', isItem', states⟩
    have tail := isHeader.unique isHeader' (List.cons.inj same).2
    obtain ⟨rfl, _⟩ := isItem.unique (by omega) isItem' tail
    exact UInt64.toNat_inj.mp (stated.trans states)

theorem validator_states_iff {tx : TxValidator} (accepted : TxValidator.ofBytes lib sha3 bytes past required = .ok tx)
    (chainId : UInt64) : tx.chainId = chainId ↔ ValidatorStates chainId (bytes ++ past) := by
  obtain ⟨items, fields, after, header, itemsRead, recovers⟩ := ValidatorRoundTrip.ofBytes_ok accepted
  obtain ⟨left, memory, isHeader⟩ := readList_at header
  obtain ⟨first, second, third, fourth, data, nHeight, v, _⟩ := ValidatorRoundTrip.readItems_ok itemsRead
  obtain ⟨dataItem, rfl, isData⟩ := readData_at data
  obtain ⟨heightItem, height, rfl, isHeight, _⟩ := readUint_at (fun _ _ few => Nat.le_of_lt_succ few) nHeight
  obtain ⟨vItem, number, rfl, isV, payload, value, converted⟩ := readUint_at (fun _ allowed _ => tooLarge_limit allowed) v
  obtain ⟨ofV, recoveryId, unfolded, _, _, whole⟩ := ValidatorRoundTrip.recovered_eq_ok.mp recovers
  obtain ⟨some, small, folded⟩ := ValidatorRoundTrip.unfoldV_ok unfolded
  have own : tx.chainId = ofV := (congrArg TxValidator.chainId whole :)
  have one : recoveryId.toNat ≤ 1 := UInt8.le_iff_toNat_le.mp small
  have stated : number = 2 * tx.chainId.toNat + 35 + recoveryId.toNat := by
    unfold fromBigEndian256 at converted
    split at converted
    case isTrue fits =>
      rw [own, ← folded, ← Except.ok.inj converted, BitVec.toNat_ofNat, Nat.mod_eq_of_lt fits, value]
    case isFalse => cases converted
  rw [memory]
  constructor
  · rintro rfl
    exact ⟨left, dataItem, heightItem, vItem, _, height, number, rfl, isHeader, isData, isHeight, isV, by omega⟩
  · rintro ⟨left', data', heightItem', vItem', rest, height', number', same, isHeader', isData', isHeight', isV', states⟩
    have afterHeader := isHeader.unique isHeader' same
    have afterData := isData.unique isData' afterHeader
    obtain ⟨_, afterHeight⟩ := isHeight.unique (by omega) isHeight' afterData
    obtain ⟨rfl, _⟩ := isV.unique (by omega) isV' afterHeight
    exact UInt64.toNat_inj.mp (by omega)

end Transactions

/-- The entries between an index and an end, each as the bytes from its beginning on. -/
inductive Entries (memory : Bytes) (finish : Nat) : Nat → List Bytes → Prop where
  | done {index : Nat} (passed : finish ≤ index) : Entries memory finish index []
  | next {index : Nat} {size span behind : Bytes} {rest : List Bytes} (before : index < finish)
      (here : memory.drop index = size ++ (span ++ behind)) (four : size.length = 4) (sized : bytesToUint size = span.length)
      (later : Entries memory finish (index + 4 + span.length) rest) :
      Entries memory finish index ((span ++ behind) :: rest)

theorem Entries.unique {memory : Bytes} {finish index : Nat} {first second : List Bytes} (left : Entries memory finish index first)
    (right : Entries memory finish index second) : first = second := by
  induction left generalizing second with
  | done passed =>
    cases right with
    | done => rfl
    | next before => omega
  | @next index size span behind rest before here four sized later ih =>
    cases right with
    | done passed => omega
    | @next _ size' span' behind' rest' before' here' four' sized' later' =>
      obtain ⟨rfl, tail⟩ := List.append_inj (here.symm.trans here') (by omega)
      obtain ⟨rfl, rfl⟩ := List.append_inj tail (by omega)
      rw [ih later']

section Entries
variable {memory : Bytes} {α : Type} {construct : Bytes → Bytes → Except Exception α}

theorem sizeAt_ok {index size : Nat} (sized : Block.sizeAt memory index = .ok size) :
    index + 4 ≤ memory.length ∧ bytesToUint ((memory.drop index).take 4) = size := by
  unfold Block.sizeAt at sized
  split at sized
  case isTrue inside => exact ⟨inside, Except.ok.inj sized⟩
  case isFalse => cases sized

theorem constructAt_ok {index size : Nat} {value : α} (built : Block.constructAt memory construct index size = .ok value) :
    index + size ≤ memory.length ∧ construct ((memory.drop index).take size) (memory.drop (index + size)) = .ok value := by
  unfold Block.constructAt at built
  split at built
  case isTrue inside => exact ⟨inside, built⟩
  case isFalse => cases built

/-- Where the steps are enough for the memory, counting fails only by reading past its end. -/
theorem countEntries_error {finish : Nat} {what : Exception} : ∀ {fuel index : Nat}, memory.length ≤ index + fuel →
    Block.countEntries memory finish (fuel + 1) index = .error what → what = pastEnd := by
  intro fuel
  induction fuel with
  | zero =>
    intro index enough failed
    have ended : Block.sizeAt memory index = .error pastEnd := if_neg (by omega)
    rw [Block.countEntries, ended] at failed
    split at failed
    · exact (Except.error.inj failed).symm
    · cases failed
  | succ fuel ih =>
    intro index enough failed
    rw [Block.countEntries] at failed
    split at failed
    case isFalse => cases failed
    case isTrue =>
      cases sized : Block.sizeAt memory index with
      | error other =>
        unfold Block.sizeAt at sized
        split at sized
        · cases sized
        · cases sized
          rw [Block.sizeAt, if_neg ‹_›] at failed
          exact (Except.error.inj failed).symm
      | ok size =>
        have inside := (sizeAt_ok sized).1
        rw [sized] at failed
        cases later : Block.countEntries memory finish (fuel + 1) (index + size + 4) with
        | ok fewer =>
          change Block.countEntries memory finish (fuel + 1) (index + size + 4) >>= _ = _ at failed
          rw [later] at failed
          cases failed
        | error other =>
          change Block.countEntries memory finish (fuel + 1) (index + size + 4) >>= _ = _ at failed
          rw [later] at failed
          cases failed
          exact ih (by omega) later

/-- What has been counted and read lies between the index and the end. -/
theorem readEntries_entries {finish : Nat} : ∀ {fuel index count : Nat} {values : List α},
    Block.countEntries memory finish fuel index = .ok count → Block.readEntries memory construct count index = .ok values →
    ∃ entries, Entries memory finish index entries ∧
      List.Forall₂ (fun entry value => ∃ span behind, entry = span ++ behind ∧ construct span behind = .ok value) entries values := by
  intro fuel
  induction fuel with
  | zero =>
    intro index count values counted
    cases counted
  | succ fuel ih =>
    intro index count values counted read
    rw [Block.countEntries] at counted
    split at counted
    case isFalse passed =>
      cases counted
      cases read
      exact ⟨[], .done (Nat.not_lt.mp passed), .nil⟩
    case isTrue before =>
      obtain ⟨size, sized, counted⟩ := bind_ok.mp counted
      obtain ⟨fewer, countedLater, counted⟩ := bind_ok.mp counted
      cases counted
      rw [Block.readEntries] at read
      obtain ⟨again, sizedAgain, read⟩ := bind_ok.mp read
      obtain rfl : size = again := Except.ok.inj (sized.symm.trans sizedAgain)
      obtain ⟨value, built, read⟩ := bind_ok.mp read
      obtain ⟨rest, readLater, read⟩ := bind_ok.mp read
      cases read
      obtain ⟨inside, holds⟩ := sizeAt_ok sized
      obtain ⟨within, built⟩ := constructAt_ok built
      have length : ((memory.drop (index + 4)).take size).length = size := by
        rw [List.length_take, List.length_drop]
        omega
      rw [show index + size + 4 = index + 4 + size by omega] at countedLater
      obtain ⟨entries, laid, built'⟩ := ih countedLater readLater
      have here : memory.drop index = (memory.drop index).take 4 ++
          ((memory.drop (index + 4)).take size ++ memory.drop (index + 4 + size)) := by
        have tail := List.take_append_drop size (memory.drop (index + 4))
        rw [List.drop_drop] at tail
        rw [tail, ← List.drop_drop, List.take_append_drop]
      refine ⟨_ :: entries, .next before here ?_ (holds.trans length.symm) (length.symm ▸ laid), .cons ⟨_, _, rfl, built⟩ built'⟩
      rw [List.length_take, List.length_drop]
      omega

theorem readEntries_add {more : Nat} : ∀ {count index next : Nat}, Block.skipEntries memory count index = .ok next →
    Block.readEntries memory construct (count + more) index = (do
      let first ← Block.readEntries memory construct count index
      let second ← Block.readEntries memory construct more next
      pure (first ++ second)) := by
  intro count
  induction count with
  | zero =>
    intro index next skipped
    cases skipped
    have none : Block.readEntries memory construct 0 index = pure [] := rfl
    rw [Nat.zero_add, none, pure_bind]
    exact (bind_pure _).symm
  | succ count ih =>
    intro index next skipped
    rw [Block.skipEntries] at skipped
    obtain ⟨size, sized, skipped⟩ := bind_ok.mp skipped
    have here : Block.sizeAt memory index = pure size := sized
    rw [show count + 1 + more = count + more + 1 by omega, Block.readEntries, Block.readEntries, here]
    simp only [pure_bind, bind_assoc, ih skipped, List.cons_append]

/-- Reading in threads that are waited for in their order. -/
theorem threads_read {counts : List Nat} : ∀ {index : Nat} {threads : List (Nat × Nat)},
    Block.threadStarts memory counts index = .ok threads → (do
      let results ← threads.mapM fun thread => Block.readEntries memory construct thread.2 thread.1
      pure results.flatten) = Block.readEntries memory construct counts.sum index := by
  induction counts with
  | nil =>
    intro index threads started
    cases started
    rfl
  | cons nTxs rest ih =>
    intro index threads started
    cases rest with
    | nil =>
      cases started
      simp only [List.mapM_cons, List.mapM_nil, bind_assoc, pure_bind, List.flatten_cons, List.flatten_nil, List.append_nil, bind_pure,
        List.sum_cons, List.sum_nil, Nat.add_zero]
    | cons more rest =>
      rw [Block.threadStarts] at started
      obtain ⟨next, skipped, started⟩ := bind_ok.mp started
      obtain ⟨later, startedLater, started⟩ := bind_ok.mp started
      cases started
      rw [List.sum_cons, readEntries_add skipped, ← ih startedLater]
      simp only [List.mapM_cons, bind_assoc, pure_bind, List.flatten_cons]

theorem txsPerThr_sum {thrNum : Nat} (some : 0 < thrNum) (txCount : Nat) : (Block.txsPerThr thrNum txCount).sum = txCount := by
  obtain ⟨others, rfl⟩ := Nat.exists_eq_succ_of_ne_zero (Nat.ne_of_gt some)
  have parts := Nat.div_add_mod txCount (others + 1)
  rw [Block.txsPerThr, List.sum_append, List.sum_replicate_nat, List.sum_singleton, Nat.succ_eq_add_one, Nat.add_sub_cancel]
  rw [Nat.add_mul, Nat.one_mul] at parts
  omega

theorem readInThreads_read {thrNum txCount index : Nat} {values : List α} (some : 0 < thrNum)
    (read : Block.readInThreads memory construct thrNum txCount index = .ok values) :
    Block.readEntries memory construct txCount index = .ok values := by
  unfold Block.readInThreads at read
  obtain ⟨threads, started, read⟩ := bind_ok.mp read
  rw [← txsPerThr_sum some txCount, ← threads_read started]
  exact read

end Entries

/-- Where the validator transactions start. -/
def txValidatorStart (bytes : Bytes) : Nat := bytesToUint ((bytes.drop 209).take 8)

/-- Every transaction in the block states the chain id. -/
def BlockStates (chainId : UInt64) (bytes past : Bytes) : Prop :=
  ∃ txs validatorTxs, Entries (bytes ++ past) (txValidatorStart bytes) 217 txs ∧
    Entries (bytes ++ past) bytes.length (txValidatorStart bytes) validatorTxs ∧
    (∀ tx ∈ txs, TxStates chainId tx) ∧ ∀ tx ∈ validatorTxs, ValidatorStates chainId tx

variable {lib : Secp256k1} {sha3 : Bytes → Hash} {signer : Block.Signer} {bytes past : Bytes} {required : UInt64} {block : Block}

theorem ofParsed_txs {verifySig : Bytes → Bool} {parsed : Block} (accepted : Block.ofParsed sha3 signer verifySig parsed = .ok block) :
    block.txs = parsed.txs ∧ block.txValidators = parsed.txValidators := by
  unfold Block.ofParsed at accepted
  split at accepted
  · cases accepted
  · split at accepted
    · cases accepted
    · split at accepted
      · cases accepted
      · split at accepted
        · cases accepted
        · cases accepted
          exact ⟨rfl, rfl⟩

/-- Every transaction of an accepted block is the accepted transaction of an entry. -/
theorem block_entries (accepted : Block.ofBytes lib sha3 signer bytes past required = .ok block) :
    ∃ txs validatorTxs, Entries (bytes ++ past) (txValidatorStart bytes) 217 txs ∧
      Entries (bytes ++ past) bytes.length (txValidatorStart bytes) validatorTxs ∧
      List.Forall₂ (fun entry tx => ∃ span behind, entry = span ++ behind ∧
        TxBlock.ofBytes lib sha3 span behind required = .ok tx) txs block.txs ∧
      List.Forall₂ (fun entry tx => ∃ span behind, entry = span ++ behind ∧
        TxValidator.ofBytes lib sha3 span behind required = .ok tx) validatorTxs block.txValidators := by
  have parsed : Block.parse lib sha3 signer bytes past required = .ok block := by
    unfold Block.ofBytes at accepted
    split at accepted
    case _ same => exact same.trans accepted
    case _ => cases accepted
  unfold Block.parse at parsed
  split at parsed
  · cases parsed
  obtain ⟨txCount, counted, parsed⟩ := bind_ok.mp parsed
  obtain ⟨valTxCount, countedToo, parsed⟩ := bind_ok.mp parsed
  obtain ⟨txs, readTxs, parsed⟩ := bind_ok.mp parsed
  obtain ⟨txValidators, readValidators, parsed⟩ := bind_ok.mp parsed
  obtain ⟨sameTxs, sameValidators⟩ := ofParsed_txs parsed
  have readAll : Block.readEntries (bytes ++ past) (fun span behind => TxBlock.ofBytes lib sha3 span behind required) txCount 217 =
      .ok txs := by
    split at readTxs
    · exact readTxs
    · exact readInThreads_read (by omega) readTxs
  obtain ⟨entries, laid, built⟩ := readEntries_entries counted readAll
  obtain ⟨validatorEntries, laidToo, builtToo⟩ := readEntries_entries countedToo readValidators
  refine ⟨entries, validatorEntries, laid, laidToo, sameTxs ▸ built, sameValidators ▸ builtToo.imp ?_⟩
  rintro entry tx ⟨span, behind, whole, done⟩
  obtain ⟨parsedTx, read, done⟩ := bind_ok.mp done
  split at done
  · cases done
  · cases done
    exact ⟨span, behind, whole, read⟩

private theorem all_iff {α β : Type} {entries : List α} {values : List β} {related : α → β → Prop} {left : β → Prop} {right : α → Prop}
    (paired : List.Forall₂ related entries values) (same : ∀ entry value, related entry value → (left value ↔ right entry)) :
    (∀ value ∈ values, left value) ↔ ∀ entry ∈ entries, right entry := by
  induction paired with
  | nil => simp
  | cons here _ ih =>
    rw [List.forall_mem_cons, List.forall_mem_cons, ih, same _ _ here]

/-- The transactions of an accepted block are for a chain exactly if their entries say so. -/
theorem block_states_iff (accepted : Block.ofBytes lib sha3 signer bytes past required = .ok block) (chainId : UInt64) :
    ((∀ tx ∈ block.txs, tx.chainId = chainId) ∧ ∀ tx ∈ block.txValidators, tx.chainId = chainId) ↔
      BlockStates chainId bytes past := by
  obtain ⟨txs, validatorTxs, laid, laidToo, built, builtToo⟩ := block_entries accepted
  have blockTxs : (∀ tx ∈ block.txs, tx.chainId = chainId) ↔ ∀ entry ∈ txs, TxStates chainId entry := by
    refine all_iff built ?_
    rintro entry tx ⟨span, behind, rfl, read⟩
    exact tx_states_iff read chainId
  have validators : (∀ tx ∈ block.txValidators, tx.chainId = chainId) ↔ ∀ entry ∈ validatorTxs, ValidatorStates chainId entry := by
    refine all_iff builtToo ?_
    rintro entry tx ⟨span, behind, rfl, read⟩
    exact validator_states_iff read chainId
  rw [blockTxs, validators]
  constructor
  · rintro ⟨first, second⟩
    exact ⟨txs, validatorTxs, laid, laidToo, first, second⟩
  · rintro ⟨txs', validatorTxs', laid', laidToo', first, second⟩
    rw [laid.unique laid', laidToo.unique laidToo']
    exact ⟨first, second⟩

/-- What the constructors accept belongs to the required chain exactly if the bytes say so themselves. -/
theorem chain_ids_are_required_iff (required : UInt64) :
    (∀ {bytes past tx}, TxBlock.ofBytes lib sha3 bytes past required = .ok tx →
      (tx.chainId = required ↔ TxStates required (bytes ++ past))) ∧
    (∀ {bytes past tx}, TxValidator.ofBytes lib sha3 bytes past required = .ok tx →
      (tx.chainId = required ↔ ValidatorStates required (bytes ++ past))) ∧
    (∀ {bytes past block}, Block.ofBytes lib sha3 signer bytes past required = .ok block →
      (((∀ tx ∈ block.txs, tx.chainId = required) ∧ ∀ tx ∈ block.txValidators, tx.chainId = required) ↔
        BlockStates required bytes past)) :=
  ⟨fun accepted => tx_states_iff accepted required, fun accepted => validator_states_iff accepted required,
    fun accepted => block_states_iff accepted required⟩

def zeroSeeds : Block.Signer where
  parseTxSeedList _ := 0
  sign _ := []
  recover _ _ := 0

/-- Under the last 32 bytes as a hash, the root is the second number of the transfer's signature. -/
def transferBlock : Bytes :=
  [0x80 :: List.replicate 31 0, 0x40 :: List.replicate 31 0, [0x00], List.replicate 96 0, 0x40 :: List.replicate 31 0,
    uintToBytes 8 5, uintToBytes 8 1, uintToBytes 8 322, uintToBytes 4 101, TxShapes.transferBytes []].flatten

theorem other_chain_is_accepted : ∃ block, Block.ofBytes oneKeyCurve Hash.ofBytes zeroSeeds transferBlock [] 8080 = .ok block ∧
    ∃ tx ∈ block.txs, tx.chainId ≠ 8080 := by
  obtain ⟨block, read⟩ := exists_ok (show (Block.ofBytes oneKeyCurve Hash.ofBytes zeroSeeds transferBlock [] 8080).isOk = true by
    decide +kernel)
  have other : (Block.ofBytes oneKeyCurve Hash.ofBytes zeroSeeds transferBlock [] 8080).toOption.all fun block =>
      ∃ tx ∈ block.txs, tx.chainId ≠ 8080 := by decide +kernel
  rw [read] at other
  exact ⟨block, read, of_decide_eq_true other⟩

theorem transfer_block_states_its_chain : ∃ block,
    Block.ofBytes oneKeyCurve Hash.ofBytes zeroSeeds transferBlock [] 1 = .ok block ∧ BlockStates 1 transferBlock [] := by
  obtain ⟨block, read⟩ := exists_ok (show (Block.ofBytes oneKeyCurve Hash.ofBytes zeroSeeds transferBlock [] 1).isOk = true by
    decide +kernel)
  have own : (Block.ofBytes oneKeyCurve Hash.ofBytes zeroSeeds transferBlock [] 1).toOption.all fun block =>
      (∀ tx ∈ block.txs, tx.chainId = 1) ∧ ∀ tx ∈ block.txValidators, tx.chainId = 1 := by decide +kernel
  rw [read] at own
  exact ⟨block, read, ((chain_ids_are_required_iff 1).2.2 read).mp (of_decide_eq_true own)⟩

end OrbiterSDK.Proofs.ChainIds
