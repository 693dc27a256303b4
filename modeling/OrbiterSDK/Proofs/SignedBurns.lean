import OrbiterSDK.Proofs.PrecompileCalls
import OrbiterSDK.Proofs.TokenLists

/-! Signatures for burning a token: what the contract accepts, and what three calls of
precompiles do. The contract asks the curve at once, and the host asks first for the range of
the two numbers. -/

namespace OrbiterSDK.Proofs.SignedBurns
open Lib Utils ByteStrings ABI Encoder AbiRoundTrip Precompile PrecompileCalls TokenLists ERC721Mint

/-- Every token that is half burned has a rarity. -/
def Rated (token : ERC721Mint) : Prop := ∀ tokenId, (token.preBurnedTokens.value tokenId).exists_ = true → tokenId ∈ token.tokenIdRarity.keys

section Runs
variable {around : Surroundings} {token after : ERC721Mint}

theorem call_rated (rated : Rated token) {request : Call} (done : token.call around request = .ok after) : Rated after := by
  cases request with
  | mint target random =>
    have minted := mint_minted done
    intro tokenId marked
    rw [minted.preBurned] at marked
    exact minted.rated (rated tokenId marked)
  | preBurn caller tokenId =>
    have half := preBurn_marks done
    intro other marked
    rw [half.rated, Finset.mem_insert]
    rw [half.marked, Table.modify_value] at marked
    by_cases same : other = tokenId
    · exact .inl same
    · rw [if_neg same] at marked
      exact .inr (rated other marked)
  | burn tokenId v r s =>
    have full := burn_burns done
    intro other marked
    rw [full.rated, Finset.mem_insert]
    rw [full.preBurned, erased_value] at marked
    by_cases same : other = tokenId
    · exact .inl same
    · rw [if_neg same] at marked
      exact .inr (rated other marked)
  | transferFrom | approve | setApprovalForAll =>
    obtain ⟨base, _, rfl⟩ := inherited_ok done
    exact rated
  | setBaseURI caller baseURI =>
    obtain ⟨_, same⟩ := guard_eq_ok.mp done
    cases same
    exact rated

theorem reached_rated (reached : Reached (call around) New (fun _ _ => True) token) : Rated token := by
  apply reached.keeps
  · intro token new
    obtain ⟨name, symbol, maxSupply, signer, tokenBaseURI, rfl⟩ := new
    intro tokenId marked
    cases marked
  · exact fun token request after rated _ done => call_rated rated done

/-- The message of a token, hashed and marked as a signed one. -/
def burnHash (sha3 : Bytes → Hash) (token : ERC721Mint) (tokenId : Uint256) : Hash :=
  signedHash sha3 (packedHash sha3 tokenId (token.preBurnedTokens.value tokenId).user (token.tokenIdRarity.value tokenId))

theorem burn_done_iff {tokenId : Uint256} {v : UInt8} {r s : Hash} (marked : (token.preBurnedTokens.value tokenId).exists_ = true)
    (rated : tokenId ∈ token.tokenIdRarity.keys) : (∃ after, token.burn around tokenId v r s = .ok after) ↔
      (v = 27 ∨ v = 28) ∧ Secp256k1.toAddress around.sha3
        (around.secp.recover (Secp256k1.makeSig r s (v - 27)) (burnHash around.sha3 token tokenId)) = token.signer := by
  have found : token.tokenIdRarity.find tokenId = some (token.tokenIdRarity.value tokenId) := if_pos rated
  have hashed : toTyped32ByteDataHash around.sha3 (around.sha3 (uintToBytes 32 tokenId.toNat ++
      (token.preBurnedTokens.value tokenId).user.get ++ uintToBytes 32 (token.tokenIdRarity.value tokenId).toNat)) =
        burnHash around.sha3 token tokenId := rfl
  unfold ERC721Mint.burn message
  simp only [marked, found, Bool.not_true, Bool.false_eq_true, if_false, ok_bind, hashed]
  by_cases strange : v ≠ 27 ∧ v ≠ 28
  · have other : ¬ (v = 27 ∨ v = 28) := fun known => known.elim strange.1 strange.2
    simp only [if_pos strange, other, false_and, iff_false]
    rintro ⟨_, done⟩
    cases done
  · have known : v = 27 ∨ v = 28 := by
      by_contra other
      exact strange (not_or.mp other)
    simp only [if_neg strange, known, true_and]
    by_cases same : Secp256k1.toAddress around.sha3 (around.secp.recover (Secp256k1.makeSig r s (v - 27))
        (burnHash around.sha3 token tokenId)) = token.signer
    · simp only [same, ne_eq, not_true, if_false, iff_true]
      exact ⟨_, rfl⟩
    · simp only [same, ne_eq, not_false_eq_true, if_true, iff_false]
      rintro ⟨_, done⟩
      cases done

end Runs

/-- A call of a precompile, otherwise as the message that is given. -/
def sent (base : EvmcMessage) (recipient : Address) (selector : Functor) (arguments : Bytes) : EvmcMessage :=
  { base with recipient, inputData := uintToBytes 4 selector.toNat ++ arguments }

/-- The word that a successful call returns. -/
def returned (result : EvmcResult) : Option Hash := if result.statusCode = .success then some (Hash.ofBytes result.outputData) else none

section Chain
variable (vm : Vm) (lib : Secp256k1) (execute : Bytes → EVMHost → EvmcResult × EVMHost)

def ask (msg : EvmcMessage) : StateT EVMHost Option Hash := fun host =>
  let (result, host) := host.call (linked lib vm) msg execute
  (returned result).map fun word => (word, host)

/-- The address that a contract gets for a signature, if no call reverts. -/
def chain (base : EvmcMessage) (selector : Functor) (tokenId : Uint256) (user : Address) (rarity : Uint256) (v : UInt8) (r s : Hash) :
    StateT EVMHost Option Address := do
  let hash ← ask vm lib execute (sent base ABI_PACK packSelector (encodeData packed (tokenId, user, rarity)))
  let messageHash ← ask vm lib execute (sent base ABI_PACK solSignSelector (encodeData (.last (.word .hash)) hash))
  let addr ← ask vm lib execute (sent base ECRECOVER_ADDRESS selector (encodeData recovered (messageHash, BitVec.ofNat 256 v.toNat, r, s)))
  pure (addr.setWidth 160)

variable {vm lib execute} {base : EvmcMessage} {recipient : Address} {selector : Functor} {arguments : Bytes} {host : EVMHost}

theorem selector_length (selector : Functor) : (uintToBytes 4 selector.toNat).length = 4 := uintToBytes_length 4 _

theorem sent_drop : (sent base recipient selector arguments).inputData.drop 4 = arguments := by
  have behind : (uintToBytes 4 selector.toNat ++ arguments).drop (uintToBytes 4 selector.toNat).length = arguments := List.drop_left
  rw [selector_length] at behind
  exact behind

theorem sent_length : (sent base recipient selector arguments).inputData.length = 4 + arguments.length := by
  unfold sent
  rw [List.length_append, selector_length]

theorem sent_selects : Selects (sent base recipient selector arguments) selector := by
  constructor
  · rw [sent_length]
    exact Nat.le_add_right 4 _
  · have front : (uintToBytes 4 selector.toNat ++ arguments).take (uintToBytes 4 selector.toNat).length = uintToBytes 4 selector.toNat :=
      List.take_left
    rw [selector_length] at front
    have read : Functor.ofBytes (uintToBytes 4 selector.toNat) = selector := bitVec_ofBytes (by norm_num) selector
    unfold sent
    rw [front, read]

theorem words_read {tys : Tys} {values : tys.Values} {words : Nat} (static : tys.isTupleOfDynamicTypes = false) (unsigned : tys.Unsigned)
    (members : tys.MembersAligned values) (size : tys.headSizes = 32 * words) (few : words ≤ 4) :
    (encodeData tys values).length = 32 * words ∧ Decoder.decodeData tys (encodeData tys values) = .ok (tys.stored values) := by
  have length : (encodeData tys values).length = 32 * words := by
    have whole := encode_length (.tuple tys) static values
    rw [Ty.headSize, static, if_neg Bool.false_ne_true, size] at whole
    exact whole
  have own : tys.OwnOffsets := by
    intro dynamic
    rw [static] at dynamic
    cases dynamic
  exact ⟨length, decodeData_encodeData unsigned ⟨own, members⟩ (by omega)⟩

theorem ask_asked {msg : EvmcMessage} {request : Request} (asks : Asks msg request)
    (still : request.next vm.sha3 host.randomGen = host.randomGen) :
    ask vm lib execute msg host = (request.given vm.sha3 lib host.randomGen).map fun word => (word, host) := by
  have called := @call_asked msg vm lib execute host request asks
  unfold ask
  rw [called, still]
  cases request.given vm.sha3 lib host.randomGen with
  | none => rfl
  | some word =>
    have read : Hash.ofBytes word.get = word := BlockEntries.hash_ofBytes_get word
    unfold returned
    dsimp only [reply, Option.elim_some, Precompile.word]
    rw [if_pos rfl, read]

theorem pack_asked (tokenId : Uint256) (user : Address) (rarity : Uint256) :
    Asks (sent base ABI_PACK packSelector (encodeData packed (tokenId, user, rarity))) (.pack tokenId user rarity) := by
  have unsigned : packed.Unsigned := by simp [packed, Tys.Unsigned, Ty.Unsigned]
  have members : packed.MembersAligned (tokenId, user, rarity) := ⟨trivial, trivial, trivial⟩
  obtain ⟨length, read⟩ := @words_read packed (tokenId, user, rarity) 3 rfl unsigned members rfl (by decide)
  refine ⟨rfl, sent_selects, ?_, ?_⟩
  · rw [sent_length, length]
  · rw [sent_drop, read]
    rfl

theorem solSign_asked (hash : Hash) : Asks (sent base ABI_PACK solSignSelector (encodeData (.last (.word .hash)) hash)) (.solSign hash) := by
  have unsigned : (Tys.last (.word .hash)).Unsigned := by simp [Tys.Unsigned, Ty.Unsigned]
  have members : (Tys.last (.word .hash)).MembersAligned hash := trivial
  obtain ⟨length, read⟩ := @words_read (.last (.word .hash)) hash 1 rfl unsigned members rfl (by decide)
  refine ⟨rfl, sent_selects, ?_, ?_⟩
  · rw [sent_length, length]
  · rw [sent_drop, read]
    rfl

theorem recover_asked (hash : Hash) (v r s : Uint256) :
    Asks (sent base ECRECOVER_ADDRESS selector (encodeData recovered (hash, v, r, s))) (.recover hash v r s) := by
  have unsigned : recovered.Unsigned := by simp [recovered, Tys.Unsigned, Ty.Unsigned]
  have members : recovered.MembersAligned (hash, v, r, s) := ⟨trivial, trivial, trivial, trivial⟩
  obtain ⟨length, read⟩ := @words_read recovered (hash, v, r, s) 4 rfl unsigned members rfl (by decide)
  refine ⟨rfl, ?_, ?_⟩
  · rw [sent_length, length]
  · rw [sent_drop, read]
    rfl

theorem ask_bind {α : Type} {msg : EvmcMessage} {request : Request} (asks : Asks msg request)
    (still : request.next vm.sha3 host.randomGen = host.randomGen) (next : Hash → StateT EVMHost Option α) : (ask vm lib execute msg >>= next).run host =
      (request.given vm.sha3 lib host.randomGen).bind fun word => (next word).run host := by
  have asked := @ask_asked vm lib execute host msg request asks still
  rw [StateT.run_bind, StateT.run, asked]
  cases request.given vm.sha3 lib host.randomGen with
  | none => rfl
  | some word => rfl

/-- The three calls give the address that the curve has for the signature of the marked message, if its numbers are in range. -/
theorem chain_eq (tokenId : Uint256) (user : Address) (rarity : Uint256) (v : UInt8) (r s : Hash) :
    (chain vm lib execute base selector tokenId user rarity v r s).run host =
      if validSignature (BitVec.ofNat 256 v.toNat) r s then
        some (recoverAddress vm.sha3 lib r s (BitVec.ofNat 256 v.toNat == 28) (signedHash vm.sha3 (packedHash vm.sha3 tokenId user rarity)), host)
      else none := by
  unfold chain
  rw [ask_bind (pack_asked tokenId user rarity) rfl]
  unfold Request.given
  rw [Option.bind_some, ask_bind (solSign_asked _) rfl]
  unfold Request.given
  rw [Option.bind_some, ask_bind (recover_asked _ _ _ _) rfl]
  unfold Request.given
  dsimp only
  by_cases valid : validSignature (BitVec.ofNat 256 v.toNat) r s = true
  · rw [if_pos valid, if_pos valid, Option.bind_some, BitVec.setWidth_setWidth_of_le _ (by decide), BitVec.setWidth_eq]
    rfl
  · rw [if_neg valid, if_neg valid, Option.bind_none]

end Chain

/-- The curve recovers no key from numbers that are zero, or not less than its order. -/
def Refuses (lib : Secp256k1) : Prop :=
  ∀ sig hash, sig.r = 0 ∨ sig.s = 0 ∨ Secp256k1.ecConst ≤ sig.r ∨ Secp256k1.ecConst ≤ sig.s → lib.ecdsaRecover sig hash = none

section Agreement
variable (vm : Vm) (lib : Secp256k1) (execute : Bytes → EVMHost → EvmcResult × EVMHost) (host : EVMHost) (base : EvmcMessage)
  (selector : Functor) (creator : Address) (token : ERC721Mint) (tokenId : Uint256) (v : UInt8) (r s : Hash)

def surroundings : Surroundings := { contractCreator := creator, sha3 := vm.sha3, secp := lib }

/-- The contract burns the token for a signature exactly if the three calls give its signer. -/
def Agree : Prop :=
  (∃ after, token.burn (surroundings vm lib creator) tokenId v r s = .ok after) ↔
    ∃ later, (chain vm lib execute base selector tokenId (token.preBurnedTokens.value tokenId).user (token.tokenIdRarity.value tokenId) v r s).run
      host = some (token.signer, later)

/-- What goes on with numbers that are out of range: the contract takes the address of no key for the one that signed. -/
def Guarded : Prop :=
  v = 27 ∨ v = 28 → Secp256k1.verifySig r s (v - 27) = false → token.signer ≠ Secp256k1.toAddress vm.sha3 0

variable {vm lib execute host base selector creator token tokenId v r s}

theorem unverified {parity : Bool} (failed : Secp256k1.verifySig r s parity.toUInt8 = false) :
    r = 0 ∨ s = 0 ∨ Secp256k1.ecConst ≤ r ∨ Secp256k1.ecConst ≤ s := by
  have small : parity.toUInt8 ≤ 1 := by
    cases parity
    · decide
    · decide
  by_contra fine
  simp only [not_or] at fine
  obtain ⟨nonzero, nonzero', below, below'⟩ := fine
  have positive : 0 < r := BitVec.lt_def.mpr (Nat.pos_of_ne_zero fun zero => nonzero (BitVec.eq_of_toNat_eq zero))
  have positive' : 0 < s := BitVec.lt_def.mpr (Nat.pos_of_ne_zero fun zero => nonzero' (BitVec.eq_of_toNat_eq zero))
  have valid : Secp256k1.verifySig r s parity.toUInt8 = true := by
    unfold Secp256k1.verifySig
    simp only [small, positive, positive', BitVec.not_le.mp below, BitVec.not_le.mp below', decide_true, Bool.and_self]
  rw [valid] at failed
  cases failed

theorem widened_ne {number : UInt8} (apart : v ≠ number) : ((BitVec.ofNat 256 v.toNat : Uint256) == BitVec.ofNat 256 number.toNat) = false := by
  have wide {byte : UInt8} : byte.toNat < 2 ^ 256 := byte.toNat_lt.trans (by norm_num)
  apply beq_false_of_ne
  intro same
  have same := congrArg BitVec.toNat same
  rw [BitVec.toNat_ofNat, BitVec.toNat_ofNat, Nat.mod_eq_of_lt wide, Nat.mod_eq_of_lt wide] at same
  exact apart (UInt8.toNat_inj.mp same)

theorem agree_iff (refuses : Refuses lib) (marked : (token.preBurnedTokens.value tokenId).exists_ = true)
    (rated : tokenId ∈ token.tokenIdRarity.keys) : Agree vm lib execute host base selector creator token tokenId v r s ↔
      Guarded vm token v r s := by
  unfold Agree
  rw [burn_done_iff marked rated, chain_eq]
  by_cases known : v = 27 ∨ v = 28
  · have parity : ∃ parity : Bool, v - 27 = parity.toUInt8 ∧ (BitVec.ofNat 256 v.toNat == 28) = parity ∧
        validSignature (BitVec.ofNat 256 v.toNat) r s = Secp256k1.verifySig r s parity.toUInt8 := by
      rcases known with rfl | rfl
      · exact ⟨false, rfl, rfl, rfl⟩
      · exact ⟨true, rfl, rfl, rfl⟩
    obtain ⟨parity, exponent, odd, valid⟩ := parity
    have burns : Secp256k1.toAddress (surroundings vm lib creator).sha3 ((surroundings vm lib creator).secp.recover
        (Secp256k1.makeSig r s (v - 27)) (burnHash (surroundings vm lib creator).sha3 token tokenId)) =
          recoverAddress vm.sha3 lib r s parity (burnHash vm.sha3 token tokenId) := by
      rw [exponent]
      rfl
    unfold Guarded
    rw [burns, odd, valid, exponent]
    simp only [known, true_and, forall_const]
    by_cases verified : Secp256k1.verifySig r s parity.toUInt8 = true
    · have other : ¬ Secp256k1.verifySig r s parity.toUInt8 = false := ne_false_of_eq_true verified
      rw [if_pos verified]
      refine iff_of_true ?_ fun failed => absurd failed other
      constructor
      · intro same
        exact ⟨host, congrArg (fun address => some (address, host)) same⟩
      · rintro ⟨later, same⟩
        exact congrArg Prod.fst (Option.some.inj same)
    · have failed : Secp256k1.verifySig r s parity.toUInt8 = false := Bool.eq_false_of_not_eq_true verified
      have nothing : recoverAddress vm.sha3 lib r s parity (burnHash vm.sha3 token tokenId) = Secp256k1.toAddress vm.sha3 0 := by
        rw [recoverAddress_eq, refuses _ _ (unverified failed)]
        rfl
      rw [if_neg verified, nothing]
      simp only [failed, forall_const, exists_false, iff_false, reduceCtorEq]
      exact ne_comm
  · have unknown : validSignature (BitVec.ofNat 256 v.toNat) r s = false := by
      obtain ⟨low, high⟩ := not_or.mp known
      have low : ((BitVec.ofNat 256 v.toNat : Uint256) == 27) = false := widened_ne low
      have high : ((BitVec.ofNat 256 v.toNat : Uint256) == 28) = false := widened_ne high
      unfold validSignature
      rw [low, high]
      rfl
    unfold Guarded
    simp only [known, unknown, false_and, Bool.false_eq_true, if_false, exists_false, reduceCtorEq, IsEmpty.forall_iff]

end Agreement

/-- Exactly when a message to a precompile is answered as it should be, and exactly when three calls agree with the contract. -/
theorem precompiles_compute_iff (vm : Vm) (lib : Secp256k1) (refuses : Refuses lib) :
    (∀ msg execute host, Known msg → (Computes msg vm lib execute host ↔ Served lib msg)) ∧
      ∀ execute host base selector creator token tokenId v r s,
        Reached (call (surroundings vm lib creator)) New (fun _ _ => True) token → (token.preBurnedTokens.value tokenId).exists_ = true →
          (Agree vm lib execute host base selector creator token tokenId v r s ↔ Guarded vm token v r s) := by
  constructor
  · exact fun msg execute host known => computes_iff known
  · intro execute host base selector creator token tokenId v r s reached marked
    exact agree_iff refuses marked (reached_rated reached tokenId marked)

/-- A curve on which every signature with numbers in range is made by one key. -/
def rangedCurve : Secp256k1 where
  pubkeyCreate _ := some 2
  signRecoverable _ _ := some ⟨1, 1, 0⟩
  ecdsaRecover sig _ :=
    if sig.r = 0 ∨ sig.s = 0 ∨ Secp256k1.ecConst ≤ sig.r ∨ Secp256k1.ecConst ≤ sig.s then none else some 2

private theorem rangedCurve_refuses : Refuses rangedCurve := fun _ _ outside => if_pos outside

/-- A machine that stops at once. -/
def idleVm : Vm where
  sha3 := Hash.ofBytes
  evmcExecute _ _ := .done .success 0 []
  verifySig _ _ _ := false
  recover _ _ _ _ := .ok 0
  pastInput _ := []
  statusCodeToString _ := ""

def idleRun (_ : Bytes) (host : EVMHost) : EvmcResult × EVMHost := (⟨.success, 0, []⟩, host)

def anyMessage : EvmcMessage where
  kind := .call
  flags := 0
  depth := 1
  gas := 21000
  recipient := 0
  sender := 9
  inputData := []
  value := 0
  create2Salt := 0
  codeAddress := 0

/-- A contract for which the one key signs. -/
def unburned : ERC721Mint := create "Token" "TKN" 10 (Secp256k1.toAddress Hash.ofBytes (Secp256k1.serialize 2)) ""

/-- A token that its owner has burned to the first half. -/
def halfBurned : ERC721Mint := [Call.mint 9 7, .preBurn 9 0].foldl (attempt (call (surroundings idleVm rangedCurve 8))) unburned

def recovering : EvmcMessage := sent anyMessage ECRECOVER_ADDRESS 0 (encodeData recovered (5, 27, 1, 1))

theorem signature_accepted : Computes recovering idleVm rangedCurve idleRun {} ∧
    (∃ after, halfBurned.burn (surroundings idleVm rangedCurve 8) 0 27 1 1 = .ok after) ∧
    ∃ later, (chain idleVm rangedCurve idleRun anyMessage 0 0 (halfBurned.preBurnedTokens.value 0).user
      (halfBurned.tokenIdRarity.value 0) 27 1 1).run {} = some (halfBurned.signer, later) := by
  obtain ⟨served, agrees⟩ := precompiles_compute_iff idleVm rangedCurve rangedCurve_refuses
  have start : Reached (call (surroundings idleVm rangedCurve 8)) New (fun _ _ => True) unburned := .start ⟨_, _, _, _, _, rfl⟩
  have reached := Reached.foldl (fun _ _ => trivial) [Call.mint 9 7, .preBurn 9 0] start
  have guarded : Guarded idleVm halfBurned 27 1 1 := fun _ failed => by cases failed
  have accepted : ∃ after, halfBurned.burn (surroundings idleVm rangedCurve 8) 0 27 1 1 = .ok after :=
    (burn_done_iff rfl (by decide)).mpr ⟨.inl rfl, rfl⟩
  refine ⟨(served recovering idleRun {} (.inl rfl)).mpr ⟨?_, ?_, ?_⟩, accepted,
    ((agrees idleRun {} anyMessage 0 8 halfBurned 0 27 1 1 reached rfl).mpr guarded).mp accepted⟩
  · rintro ⟨impossible, _⟩
    cases impossible
  · rintro data ⟨impossible, _⟩
    cases impossible
  · rintro hash v r s ⟨_, _, read⟩ _
    have own := (@recover_asked anyMessage 0 5 27 1 1).2.2
    cases own.symm.trans read
    rfl

/-- No bytes to be hashed. -/
def hashing : EvmcMessage := sent anyMessage ABI_PACK keccakSelector (encodeData (.last .bytes) [])

theorem hashing_refused : Known hashing ∧ Asks hashing (.keccak []) ∧ ¬ Computes hashing idleVm rangedCurve idleRun {} := by
  have known : Known hashing := .inr (.inr rfl)
  have asks : Asks hashing (.keccak []) := by
    have own : (Tys.last .bytes).OwnOffsets := fun _ => rfl
    have read := @decodeData_encodeData (.last .bytes) [] trivial ⟨own, trivial⟩ (by decide +kernel)
    refine ⟨rfl, sent_selects, ?_⟩
    unfold hashing
    rw [sent_drop, read]
    rfl
  refine ⟨known, asks, ?_⟩
  intro computes
  exact ((computes_iff known).mp computes).packed [] asks

end OrbiterSDK.Proofs.SignedBurns
