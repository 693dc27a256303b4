import OrbiterSDK.Precompiles
import OrbiterSDK.Proofs.AbiSafety

/-! What the precompiles are for, and what they make of a message. -/

namespace OrbiterSDK.Proofs.PrecompileCalls
open Lib Utils ByteStrings ABI Decoder AbiRoundTrip AbiSafety Precompile
open Tx (pastEnd)

/-- The calls that are meant. -/
inductive Request where
  | recover (hash : Hash) (v r s : Uint256)
  | pack (tokenId : Uint256) (user : Address) (rarity : Uint256)
  | solSign (hash : Hash)
  | keccak (data : Bytes)
  | random

/-- A hash and the three numbers of a signature. -/
def recovered : Tys := .cons (.word .hash) (.cons (.word (.uint (Fin.last 31))) (.cons (.word (.uint (Fin.last 31))) (.last (.word (.uint (Fin.last 31))))))

def Selects (msg : EvmcMessage) (selector : Functor) : Prop :=
  4 ≤ msg.inputData.length ∧ Functor.ofBytes (msg.inputData.take 4) = selector

/-- A message that is such a call. Where there is only one function, its selector is not asked for. -/
def Asks (msg : EvmcMessage) : Request → Prop
  | .recover hash v r s =>
    msg.recipient = ECRECOVER_ADDRESS ∧ msg.inputData.length = 132 ∧ decodeData recovered (msg.inputData.drop 4) = .ok (hash, v, r, s)
  | .pack tokenId user rarity =>
    msg.recipient = ABI_PACK ∧ Selects msg packSelector ∧ msg.inputData.length = 100 ∧
      decodeData packed (msg.inputData.drop 4) = .ok (tokenId, user, rarity)
  | .solSign hash =>
    msg.recipient = ABI_PACK ∧ Selects msg solSignSelector ∧ msg.inputData.length = 36 ∧
      decodeData (.last (.word .hash)) (msg.inputData.drop 4) = .ok hash
  | .keccak data =>
    msg.recipient = ABI_PACK ∧ Selects msg keccakSelector ∧ decodeData (.last .bytes) (msg.inputData.drop 4) = .ok data
  | .random => msg.recipient = RANDOM ∧ Selects msg RANDOMNESS ∧ msg.inputData.length = 4

def validSignature (v r s : Uint256) : Bool := (v == 27 || v == 28) && Secp256k1.verifySig r s (v == 28).toUInt8

/-- The address of the key that signed, if there is one. -/
def signer (sha3 : Bytes → Hash) (lib : Secp256k1) (hash : Hash) (v r s : Uint256) : Option Address :=
  (lib.ecdsaRecover (Secp256k1.makeSig r s (v == 28).toUInt8) hash).map fun point => Secp256k1.toAddress sha3 (Secp256k1.serialize point)

def packedHash (sha3 : Bytes → Hash) (tokenId : Uint256) (user : Address) (rarity : Uint256) : Hash :=
  sha3 (uintToBytes 32 tokenId.toNat ++ user.get ++ uintToBytes 32 rarity.toNat)

def signedHash (sha3 : Bytes → Hash) (hash : Hash) : Hash := sha3 (0x19 :: "Ethereum Signed Message:\n32".toUTF8.toList ++ hash.get)

/-- The functions, and the seed after them. -/
def Request.answer (sha3 : Bytes → Hash) (lib : Secp256k1) (seed : Hash) : Request → Option Hash
  | .recover hash v r s => if validSignature v r s then (signer sha3 lib hash v r s).map (·.setWidth 256) else none
  | .pack tokenId user rarity => some (packedHash sha3 tokenId user rarity)
  | .solSign hash => some (signedHash sha3 hash)
  | .keccak data => some (sha3 data)
  | .random => some (sha3 seed.get)

def Request.next (sha3 : Bytes → Hash) (seed : Hash) : Request → Hash
  | .random => sha3 seed.get
  | _ => seed

/-- What the code gives instead. -/
def Request.given (sha3 : Bytes → Hash) (lib : Secp256k1) (seed : Hash) : Request → Option Hash
  | .recover hash v r s => if validSignature v r s then some ((recoverAddress sha3 lib r s (v == 28) hash).setWidth 256) else none
  | .pack tokenId user rarity => some (packedHash sha3 tokenId user rarity)
  | .solSign hash => some (signedHash sha3 hash)
  | .keccak _ => none
  | .random => some (sha3 seed.get)

def reply (msg : EvmcMessage) (answer : Option Hash) : EvmcResult := answer.elim revert (word msg)

section Words
variable {bytes : Bytes} {index : Nat}

theorem fixed_inside {α : Type} {what : Exception} {convert : Bytes → Except Exception α} {value : α} (inside : index + 32 ≤ bytes.length)
    (converted : convert ((bytes.drop index).take 32) = .ok value) : decodeFixed what convert bytes index = .ok (value, index + 32) := by
  have size : index + 32 - index = 32 := Nat.add_sub_cancel_left ..
  unfold decodeFixed
  rw [enough_pure inside, pure_bind, range_inside (by omega) inside, pure_bind, size, converted]
  rfl

theorem word_lt (bytes : Bytes) : bytesToUint (bytes.take 32) < 2 ^ 256 := by
  have bound := bytesToUint_lt (bytes.take 32)
  have few : (bytes.take 32).length ≤ 32 := List.length_take_le ..
  have power : (256 : Nat) ^ 32 = 2 ^ 256 := by norm_num
  rw [← power]
  exact bound.trans_le (Nat.pow_le_pow_right (by decide) few)

theorem uint_inside (inside : index + 32 ≤ bytes.length) :
    decodeWord (.uint (Fin.last 31)) bytes index = .ok (Hash.ofBytes ((bytes.drop index).take 32), index + 32) :=
  fixed_inside inside (narrow_pure (word_lt (bytes.drop index)))

theorem hash_inside (inside : index + 32 ≤ bytes.length) :
    decodeWord .hash bytes index = .ok (Hash.ofBytes ((bytes.drop index).take 32), index + 32) := fixed_inside inside rfl

private theorem address_inside (inside : index + 32 ≤ bytes.length) :
    decodeWord .address bytes index = .ok (Address.ofBytes (((bytes.drop index).take 32).drop 12), index + 32) := fixed_inside inside rfl

end Words

variable {msg : EvmcMessage} {vm : Vm} {lib : Secp256k1}

private theorem argument_eq (msg : EvmcMessage) (index : Nat) : ((msg.inputData.drop 4).drop (32 * index)).take 32 = argument msg index := by
  rw [List.drop_drop]
  rfl

theorem argument_length {index : Nat} (inside : 4 + 32 * index + 32 ≤ msg.inputData.length) : (argument msg index).length = 32 := by
  unfold argument
  rw [List.length_take, List.length_drop]
  omega

theorem decode_recovered (size : msg.inputData.length = 132) : decodeData recovered (msg.inputData.drop 4) =
    .ok (Hash.ofBytes (argument msg 0), Hash.ofBytes (argument msg 1), Hash.ofBytes (argument msg 2), Hash.ofBytes (argument msg 3)) := by
  have left : (msg.inputData.drop 4).length = 128 := by rw [List.length_drop, size]
  have first := @hash_inside (msg.inputData.drop 4) 0 (by omega)
  have second := @uint_inside (msg.inputData.drop 4) 32 (by omega)
  have third := @uint_inside (msg.inputData.drop 4) 64 (by omega)
  have fourth := @uint_inside (msg.inputData.drop 4) 96 (by omega)
  simp only [decodeData, recovered, decodeTuple, decode, first, second, third, fourth, ok_bind, Nat.zero_add]
  simp only [← argument_eq]
  rfl

theorem decode_packed (size : msg.inputData.length = 100) : decodeData packed (msg.inputData.drop 4) =
    .ok (Hash.ofBytes (argument msg 0), Address.ofBytes ((argument msg 1).drop 12), Hash.ofBytes (argument msg 2)) := by
  have left : (msg.inputData.drop 4).length = 96 := by rw [List.length_drop, size]
  have first := @uint_inside (msg.inputData.drop 4) 0 (by omega)
  have second := @address_inside (msg.inputData.drop 4) 32 (by omega)
  have third := @uint_inside (msg.inputData.drop 4) 64 (by omega)
  simp only [decodeData, packed, decodeTuple, decode, first, second, third, ok_bind, Nat.zero_add]
  simp only [← argument_eq]
  rfl

theorem decode_solSign (size : msg.inputData.length = 36) : decodeData (.last (.word .hash)) (msg.inputData.drop 4) =
    .ok (Hash.ofBytes (argument msg 0)) := by
  have left : (msg.inputData.drop 4).length = 32 := by rw [List.length_drop, size]
  have first := @hash_inside (msg.inputData.drop 4) 0 (by omega)
  simp only [decodeData, decodeTuple, decode, first, ok_bind, ← argument_eq]
  rfl

theorem subspan_four (enough : 4 ≤ msg.inputData.length) : subspan msg.inputData 4 = .ok (msg.inputData.drop 4) := if_pos enough

theorem hash_get_argument {index : Nat} (inside : 4 + 32 * index + 32 ≤ msg.inputData.length) :
    Hash.get (Hash.ofBytes (argument msg index)) = argument msg index :=
  bytes_ofBitVec (by norm_num) (argument_length inside)

theorem readPackAndHash_done {tokenId rarity : Uint256} {user : Address} (size : msg.inputData.length = 100)
    (read : decodeData packed (msg.inputData.drop 4) = .ok (tokenId, user, rarity)) :
    readPackAndHash vm.sha3 msg = .ok (word msg (packedHash vm.sha3 tokenId user rarity)) := by
  have view := @subspan_four msg (by omega)
  unfold readPackAndHash
  simp only [size, ne_eq, not_true, if_false, view, read, ok_bind]
  rfl

theorem packedHash_arguments (sha3 : Bytes → Hash) (size : msg.inputData.length = 100) :
    packedHash sha3 (Hash.ofBytes (argument msg 0)) (Address.ofBytes ((argument msg 1).drop 12)) (Hash.ofBytes (argument msg 2)) =
      sha3 (argument msg 0 ++ (argument msg 1).drop 12 ++ argument msg 2) := by
  have first := @hash_get_argument msg 0 (by omega)
  have third := @hash_get_argument msg 2 (by omega)
  have second : Address.get (Address.ofBytes ((argument msg 1).drop 12)) = (argument msg 1).drop 12 := by
    apply bytes_ofBitVec (by norm_num)
    rw [List.length_drop, argument_length (by omega)]
  simp only [Hash.get] at first third
  unfold packedHash
  rw [first, second, third]

theorem readPackAndHash_eq (msg : EvmcMessage) : readPackAndHash vm.sha3 msg = .ok (Precompile.packAndHash vm msg) := by
  by_cases size : msg.inputData.length = 100
  · rw [readPackAndHash_done size (decode_packed size), packedHash_arguments _ size]
    unfold Precompile.packAndHash
    rw [if_neg (not_not.mpr size)]
  · unfold readPackAndHash Precompile.packAndHash
    simp only [ne_eq, size, not_false_eq_true, if_true]
    rfl

private theorem signedMessage_eq : [0x19] ++ "Ethereum Signed Message:".toUTF8.toList ++ [0x0a] ++ (toString 32).toUTF8.toList =
    (0x19 :: "Ethereum Signed Message:\n32".toUTF8.toList : Bytes) := by decide +kernel

theorem readKeccakSolSign_done {hash : Hash} (size : msg.inputData.length = 36)
    (read : decodeData (.last (.word .hash)) (msg.inputData.drop 4) = .ok hash) :
    readKeccakSolSign vm.sha3 msg = .ok (word msg (signedHash vm.sha3 hash)) := by
  have view := @subspan_four msg (by omega)
  unfold readKeccakSolSign
  simp only [size, ne_eq, not_true, if_false, view, read, ok_bind, signedMessage_eq]
  rfl

theorem readKeccakSolSign_eq (msg : EvmcMessage) : readKeccakSolSign vm.sha3 msg = .ok (Precompile.keccakSolSign vm msg) := by
  by_cases size : msg.inputData.length = 36
  · have first := @hash_get_argument msg 0 (by omega)
    rw [readKeccakSolSign_done size (decode_solSign size)]
    unfold Precompile.keccakSolSign signedHash
    rw [first, if_neg (not_not.mpr size)]
    rfl
  · unfold readKeccakSolSign Precompile.keccakSolSign
    simp only [ne_eq, size, not_false_eq_true, if_true]
    rfl

/-- Either there is too much input, or nothing behind the selector. -/
theorem readKeccak_eq (enough : 4 ≤ msg.inputData.length) : readKeccak vm.sha3 msg = .ok (Precompile.keccak msg) := by
  unfold readKeccak
  by_cases more : 4 < msg.inputData.length
  · rw [if_pos more]
    rfl
  · have none_ : msg.inputData.drop 4 = [] := List.drop_eq_nil_of_le (Nat.not_lt.mp more)
    rw [if_neg more, subspan_four enough, none_]
    rfl

theorem range_argument {index : Nat} (inside : 4 + 32 * index + 32 ≤ msg.inputData.length) :
    range (msg.inputData.drop 4) (32 * index) (32 * index + 32) = .ok (argument msg index) := by
  have fits : 32 * index + 32 ≤ (msg.inputData.drop 4).length := by
    rw [List.length_drop]
    omega
  rw [range_inside (by omega) fits, Nat.add_sub_cancel_left, argument_eq]
  rfl

theorem narrowed_eq {value number : Nat} (fits : value < 256) (small : number < 256) :
    BitVec.ofNat (8 * 1) value = BitVec.ofNat (8 * 1) number ↔ value = number := by
  rw [← BitVec.toNat_inj, BitVec.toNat_ofNat, BitVec.toNat_ofNat, Nat.mod_eq_of_lt fits, Nat.mod_eq_of_lt small]

theorem caught_refusal {condition : Prop} [Decidable condition] {code : Except Exception EvmcResult} {result : EvmcResult}
    (rest : caught code = .ok result) : caught (if condition then pure revert else code) = .ok (if condition then revert else result) := by
  by_cases holds : condition
  · rw [if_pos holds, if_pos holds]
    rfl
  · rw [if_neg holds, if_neg holds]
    exact rest

theorem readEcrecover_eq (msg : EvmcMessage) : readEcrecover vm.sha3 lib msg = .ok (Precompile.ecrecover (linked lib vm) msg) := by
  unfold readEcrecover Precompile.ecrecover
  by_cases size : msg.inputData.length = 132
  · have view : range msg.inputData 4 132 = .ok (msg.inputData.drop 4) := by
      rw [range_inside (by decide) (by omega), List.take_of_length_le (by rw [List.length_drop, size])]
      rfl
    have first := @range_argument msg 0 (by omega)
    have second := @range_argument msg 1 (by omega)
    have third := @range_argument msg 2 (by omega)
    have fourth := @range_argument msg 3 (by omega)
    simp only [Nat.mul_zero, Nat.zero_add, Nat.mul_one] at first second
    simp only [size, ne_eq, not_true, if_false, view, first, second, third, fourth, ok_bind]
    by_cases fits : bytesToUint (argument msg 1) < 256
    · have narrowed : narrow 1 (bytesToUint (argument msg 1)) = .ok (BitVec.ofNat (8 * 1) (bytesToUint (argument msg 1))) := if_pos fits
      have low : BitVec.ofNat (8 * 1) (bytesToUint (argument msg 1)) = 27 ↔ bytesToUint (argument msg 1) = 27 :=
        narrowed_eq fits (by decide)
      have high : BitVec.ofNat (8 * 1) (bytesToUint (argument msg 1)) = 28 ↔ bytesToUint (argument msg 1) = 28 :=
        narrowed_eq fits (by decide)
      simp only [narrowed, ok_bind, linked, low, high]
      exact caught_refusal (caught_refusal rfl)
    · have refused : narrow 1 (bytesToUint (argument msg 1)) = .error Uint256.outOfRange := if_neg fits
      have other : bytesToUint (argument msg 1) ≠ 27 ∧ bytesToUint (argument msg 1) ≠ 28 := by omega
      rw [refused, if_pos other]
      rfl
  · simp only [ne_eq, size, not_false_eq_true, if_true]
    rfl

/-- The selector of this message is not there. -/
def Short (msg : EvmcMessage) : Prop := msg.recipient = ABI_PACK ∧ msg.inputData.length < 4

variable {selector : Functor} {execute : Bytes → EVMHost → EvmcResult × EVMHost} {host : EVMHost}

private theorem range_selector (enough : 4 ≤ msg.inputData.length) : range msg.inputData 0 4 = .ok (msg.inputData.take 4) :=
  range_inside (by decide) enough

theorem readCall_short (short : Short msg) (seed : Hash) : readCall vm.sha3 lib msg seed = .error pastEnd := by
  obtain ⟨recipient, few⟩ := short
  have outside : range msg.inputData 0 4 = .error pastEnd := if_neg fun ⟨_, enough⟩ => Nat.not_lt.mpr enough few
  have other : ¬ ABI_PACK = ECRECOVER_ADDRESS := by decide
  have another : ¬ ABI_PACK = RANDOM := by decide
  unfold readCall
  rw [recipient, if_neg other, if_neg another, outside]
  rfl

variable (host) in
/-- What is computed as the input is read is what the host answers, and it does nothing but to move the seed. -/
def Answers (read : Except Exception (EvmcResult × Hash)) (answered : EvmcResult × EVMHost) : Prop :=
  ∃ result seed, read = .ok (result, seed) ∧ answered = (result, { host with randomGen := seed })

theorem Answers.ite {condition : Prop} [Decidable condition] {first second : Except Exception (EvmcResult × Hash)}
    {answered other : EvmcResult × EVMHost} (holds : condition → Answers host first answered) (fails : ¬ condition → Answers host second other) :
    Answers host (if condition then first else second) (if condition then answered else other) := by
  by_cases it : condition
  · rw [if_pos it, if_pos it]
    exact holds it
  · rw [if_neg it, if_neg it]
    exact fails it

theorem Answers.unmoved (result : EvmcResult) : Answers host (.ok (result, host.randomGen)) (result, host) := ⟨result, host.randomGen, rfl, rfl⟩

theorem random_answers (msg : EvmcMessage) : Answers host (readGetRandom vm.sha3 msg host.randomGen)
    ((getRandom (linked lib vm) msg host.randomGen).1, { host with randomGen := (getRandom (linked lib vm) msg host.randomGen).2 }) := by
  unfold readGetRandom getRandom
  by_cases size : msg.inputData.length ≠ 4
  · rw [if_pos size, if_pos size]
    exact .unmoved _
  · rw [if_neg size, if_neg size]
    exact ⟨_, _, rfl, rfl⟩

theorem readCall_answers (known : Known msg) (whole : ¬ Short msg) :
    Answers host (readCall vm.sha3 lib msg host.randomGen) (EVMHost.call (linked lib vm) msg execute host) := by
  unfold readCall EVMHost.call
  apply Answers.ite
  · intro _
    rw [readEcrecover_eq]
    exact .unmoved _
  intro recovers
  apply Answers.ite
  · intro _
    apply Answers.ite
    · exact fun _ => .unmoved _
    intro enough
    rw [range_selector (Nat.not_lt.mp enough), ok_bind]
    apply Answers.ite
    · exact fun _ => random_answers msg
    · exact fun _ => .unmoved _
  intro draws
  have recipient : msg.recipient = ABI_PACK := (known.resolve_left recovers).resolve_left draws
  have enough : 4 ≤ msg.inputData.length := Nat.not_lt.mp fun few => whole ⟨recipient, few⟩
  rw [if_pos recipient, range_selector enough, ok_bind, List.take_append_of_le_length enough, readPackAndHash_eq, readKeccakSolSign_eq,
    readKeccak_eq enough]
  apply Answers.ite
  · exact fun _ => .unmoved _
  intro _
  apply Answers.ite
  · exact fun _ => .unmoved _
  intro _
  apply Answers.ite
  · exact fun _ => .unmoved _
  · exact fun _ => .unmoved _

theorem ofBytes_beq {bytes : Bytes} {number : Nat} (size : bytes.length ≤ 32) (small : number < 2 ^ 256) :
    (Hash.ofBytes bytes == BitVec.ofNat 256 number) = decide (bytesToUint bytes = number) := by
  have fits : bytesToUint bytes < 2 ^ 256 := by
    have bound := word_lt bytes
    rw [List.take_of_length_le size] at bound
    exact bound
  rw [Bool.beq_eq_decide_eq]
  congr 1
  rw [Hash.ofBytes, ← BitVec.toNat_inj, BitVec.toNat_ofNat, BitVec.toNat_ofNat, Nat.mod_eq_of_lt fits, Nat.mod_eq_of_lt small]

theorem ecrecover_asked {hash : Hash} {v r s : Uint256} (size : msg.inputData.length = 132)
    (read : decodeData recovered (msg.inputData.drop 4) = .ok (hash, v, r, s)) (seed : Hash) :
    Precompile.ecrecover (linked lib vm) msg = reply msg ((Request.recover hash v r s).given vm.sha3 lib seed) := by
  cases (decode_recovered size).symm.trans read
  have width : (argument msg 1).length ≤ 32 := (argument_length (by omega)).le
  have low : (Hash.ofBytes (argument msg 1) == 27) = decide (bytesToUint (argument msg 1) = 27) := ofBytes_beq width (by decide)
  have high : (Hash.ofBytes (argument msg 1) == 28) = decide (bytesToUint (argument msg 1) = 28) := ofBytes_beq width (by decide)
  unfold Precompile.ecrecover
  rw [if_neg (not_not.mpr size)]
  simp only [linked, Request.given, validSignature, low, high]
  by_cases other : bytesToUint (argument msg 1) ≠ 27 ∧ bytesToUint (argument msg 1) ≠ 28
  · rw [if_pos other]
    simp only [other.1, other.2, decide_false, Bool.or_self, Bool.false_and]
    rfl
  · have known : (decide (bytesToUint (argument msg 1) = 27) || decide (bytesToUint (argument msg 1) = 28)) = true := by
      rw [Bool.or_eq_true, decide_eq_true_eq, decide_eq_true_eq]
      omega
    rw [if_neg other, known, Bool.true_and]
    by_cases valid : Secp256k1.verifySig (Hash.ofBytes (argument msg 2)) (Hash.ofBytes (argument msg 3))
        (decide (bytesToUint (argument msg 1) = 28)).toUInt8 = true
    · simp only [valid, Bool.not_true, if_true]
      rfl
    · simp only [valid, Bool.not_false, if_true]
      rfl

/-- Every other selector is refused, and so is everything that is hashed alone. -/
theorem call_selects (recipient : msg.recipient = ABI_PACK) (selects : Selects msg selector) :
    EVMHost.call (linked lib vm) msg execute host =
      (if selector = packSelector then Precompile.packAndHash vm msg
        else if selector = solSignSelector then Precompile.keccakSolSign vm msg else revert, host) := by
  have recovers : ¬ ABI_PACK = ECRECOVER_ADDRESS := by decide
  have draws : ¬ ABI_PACK = RANDOM := by decide
  unfold EVMHost.call
  rw [recipient, if_neg recovers, if_neg draws, if_pos rfl, List.take_append_of_le_length selects.1, selects.2]
  by_cases packs : selector = packSelector
  · subst packs
    rfl
  by_cases signs : selector = solSignSelector
  · subst signs
    rfl
  have unpacked : ¬ selector = 0xaa6351cc := packs
  have unsigned : ¬ selector = 0x518af8db := signs
  rw [if_neg packs, if_neg signs]
  dsimp only
  rw [if_neg unpacked, if_neg unsigned]
  exact ite_self _

theorem call_asked {request : Request} (asks : Asks msg request) : EVMHost.call (linked lib vm) msg execute host =
    (reply msg (request.given vm.sha3 lib host.randomGen), { host with randomGen := request.next vm.sha3 host.randomGen }) := by
  cases request with
  | recover hash v r s =>
    obtain ⟨recipient, size, read⟩ := asks
    unfold EVMHost.call
    rw [if_pos recipient, ecrecover_asked size read host.randomGen]
    rfl
  | pack tokenId user rarity =>
    obtain ⟨recipient, selects, size, read⟩ := asks
    have done := (readPackAndHash_eq msg).symm.trans (@readPackAndHash_done msg vm tokenId rarity user size read)
    rw [call_selects recipient selects, if_pos rfl, Except.ok.inj done]
    rfl
  | solSign hash =>
    obtain ⟨recipient, selects, size, read⟩ := asks
    have done := (readKeccakSolSign_eq msg).symm.trans (@readKeccakSolSign_done msg vm hash size read)
    have other : ¬ solSignSelector = packSelector := by decide
    rw [call_selects recipient selects, if_neg other, if_pos rfl, Except.ok.inj done]
    rfl
  | keccak data =>
    obtain ⟨recipient, selects, _⟩ := asks
    have packs : ¬ keccakSelector = packSelector := by decide
    have signs : ¬ keccakSelector = solSignSelector := by decide
    rw [call_selects recipient selects, if_neg packs, if_neg signs]
    rfl
  | random =>
    obtain ⟨recipient, selects, size⟩ := asks
    have recovers : ¬ RANDOM = ECRECOVER_ADDRESS := by decide
    have selected : Functor.ofBytes (msg.inputData.take 4) = 0xaacc5a17 := selects.2
    unfold EVMHost.call getRandom
    rw [recipient, if_neg recovers, if_pos rfl, if_neg (Nat.not_lt.mpr selects.1), if_pos selected, if_neg (not_not.mpr size)]
    rfl

theorem call_otherwise (known : Known msg) (whole : ¬ Short msg) (nothing : ∀ request, ¬ Asks msg request) :
    EVMHost.call (linked lib vm) msg execute host = (revert, host) := by
  rcases known with recipient | recipient | recipient
  · have size : msg.inputData.length ≠ 132 := fun size => nothing (.recover _ _ _ _) ⟨recipient, size, decode_recovered size⟩
    unfold EVMHost.call Precompile.ecrecover
    rw [if_pos recipient, if_pos size]
  · have recovers : ¬ RANDOM = ECRECOVER_ADDRESS := by decide
    unfold EVMHost.call getRandom
    rw [recipient, if_neg recovers, if_pos rfl]
    by_cases few : msg.inputData.length < 4
    · rw [if_pos few]
    by_cases selects : Functor.ofBytes (msg.inputData.take 4) = 0xaacc5a17
    · have size : msg.inputData.length ≠ 4 := fun size => nothing .random ⟨recipient, ⟨Nat.not_lt.mp few, selects⟩, size⟩
      rw [if_neg few, if_pos selects, if_pos size]
    · rw [if_neg few, if_neg selects]
  · have enough : 4 ≤ msg.inputData.length := Nat.not_lt.mp fun few => whole ⟨recipient, few⟩
    rw [call_selects recipient ⟨enough, rfl⟩]
    by_cases packs : Functor.ofBytes (msg.inputData.take 4) = packSelector
    · have size : msg.inputData.length ≠ 100 := fun size => nothing (.pack _ _ _) ⟨recipient, ⟨enough, packs⟩, size, decode_packed size⟩
      unfold Precompile.packAndHash
      rw [if_pos packs, if_pos size]
    by_cases signs : Functor.ofBytes (msg.inputData.take 4) = solSignSelector
    · have size : msg.inputData.length ≠ 36 := fun size => nothing (.solSign _) ⟨recipient, ⟨enough, signs⟩, size, decode_solSign size⟩
      unfold Precompile.keccakSolSign
      rw [if_neg packs, if_pos signs, if_pos size]
    · rw [if_neg packs, if_neg signs]

variable (msg vm lib execute host) in
/-- The input is read inside only, every call that is meant gets its answer, and nothing else gets any. -/
structure Computes : Prop where
  inside : readCall vm.sha3 lib msg host.randomGen ≠ .error pastEnd
  answers : ∀ request, Asks msg request → EVMHost.call (linked lib vm) msg execute host =
    (reply msg (request.answer vm.sha3 lib host.randomGen), { host with randomGen := request.next vm.sha3 host.randomGen })
  otherwise : (∀ request, ¬ Asks msg request) → EVMHost.call (linked lib vm) msg execute host = (revert, host)

/-- A message with a selector, that hashes no bytes alone and recovers no key where there is none. -/
structure Served (lib : Secp256k1) (msg : EvmcMessage) : Prop where
  whole : ¬ Short msg
  packed : ∀ data, ¬ Asks msg (.keccak data)
  signed : ∀ hash v r s, Asks msg (.recover hash v r s) → validSignature v r s = true →
    (lib.ecdsaRecover (Secp256k1.makeSig r s (v == 28).toUInt8) hash).isSome

theorem recoverAddress_eq (sha3 : Bytes → Hash) (r s : Uint256) (parity : Bool) (hash : Hash) :
    recoverAddress sha3 lib r s parity hash = Secp256k1.toAddress sha3
      (((lib.ecdsaRecover (Secp256k1.makeSig r s parity.toUInt8) hash).map Secp256k1.serialize).getD 0) := by
  have small : ¬ 3 < parity.toUInt8 := by
    cases parity
    · decide
    · decide
  unfold recoverAddress Secp256k1.recover
  rw [if_neg]
  · cases lib.ecdsaRecover (Secp256k1.makeSig r s parity.toUInt8) hash with
    | none => rfl
    | some point => rfl
  · exact small

theorem reply_inj {first second : Option Hash} (same : reply msg first = reply msg second) : first = none ↔ second = none := by
  cases first with
  | none =>
    cases second with
    | none => exact Iff.rfl
    | some hash => cases congrArg EvmcResult.statusCode same
  | some hash =>
    cases second with
    | none => cases congrArg EvmcResult.statusCode same
    | some other => exact iff_of_false (Option.some_ne_none hash) (Option.some_ne_none other)

theorem given_answer (served : Served lib msg) {request : Request} (asks : Asks msg request) (sha3 : Bytes → Hash) (seed : Hash) :
    request.given sha3 lib seed = request.answer sha3 lib seed := by
  cases request with
  | recover hash v r s =>
    by_cases valid : validSignature v r s = true
    · obtain ⟨point, found⟩ := Option.isSome_iff_exists.mp (served.signed hash v r s asks valid)
      simp only [Request.given, Request.answer, if_pos valid, recoverAddress_eq, signer, found]
      rfl
    · simp only [Request.given, Request.answer, if_neg valid]
  | pack | solSign | random => rfl
  | keccak data => exact absurd asks (served.packed data)

theorem computes_iff (known : Known msg) : Computes msg vm lib execute host ↔ Served lib msg := by
  constructor
  · intro computes
    have same : ∀ request, Asks msg request →
        reply msg (request.answer vm.sha3 lib host.randomGen) = reply msg (request.given vm.sha3 lib host.randomGen) := by
      intro request asks
      exact congrArg Prod.fst ((computes.answers request asks).symm.trans (call_asked asks))
    constructor
    · exact fun short => computes.inside (readCall_short short _)
    · intro data asks
      exact Option.some_ne_none _ ((reply_inj (same _ asks)).mpr rfl)
    · intro hash v r s asks valid
      have decided := reply_inj (same _ asks)
      simp only [Request.answer, Request.given, if_pos valid, signer] at decided
      cases found : lib.ecdsaRecover (Secp256k1.makeSig r s (v == 28).toUInt8) hash with
      | some point => rfl
      | none =>
        rw [found] at decided
        exact absurd (decided.mp rfl) (Option.some_ne_none _)
  · intro served
    constructor
    · obtain ⟨result, seed, read, _⟩ := @readCall_answers msg vm lib execute host known served.whole
      rw [read]
      intro failed
      cases failed
    · intro request asks
      rw [call_asked asks, given_answer served asks]
    · exact call_otherwise known served.whole

end OrbiterSDK.Proofs.PrecompileCalls
