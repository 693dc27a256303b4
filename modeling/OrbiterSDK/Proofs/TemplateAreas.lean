import OrbiterSDK.Proofs.Canonical
import OrbiterSDK.Proofs.IntegerCodecs
import OrbiterSDK.Proofs.Saved
import OrbiterSDK.Templates.Saves

/-! Contracts as areas of the database: what is written for each of their variables, and that the variables are read
back from exactly these entries. -/

namespace OrbiterSDK.Proofs.TemplateAreas
open Lib Lib.PrefixStore Utils DB BaseContract ByteStrings TxItems Saved IntegerCodecs

theorem toList_loop (bytes : ByteArray) (i : Nat) (before : List UInt8) :
    ByteArray.toList.loop bytes i before = before.reverse ++ bytes.data.toList.drop i := by
  rw [ByteArray.toList.loop]
  split
  case isTrue inside =>
    have entry : bytes.get! i = bytes.data.toList[i] := getElem!_pos bytes.data i inside
    rw [toList_loop bytes (i + 1), List.reverse_cons, List.append_assoc, entry, List.drop_eq_getElem_cons inside]
    rfl
  case isFalse outside =>
    rw [List.drop_eq_nil_of_le (Nat.le_of_not_lt outside), List.append_nil]
termination_by bytes.size - i

theorem bytesToString_keyFromStr (text : String) : bytesToString (keyFromStr text) = text := by
  have whole : (⟨text.toUTF8.toList.toArray⟩ : ByteArray) = text.toUTF8 := by
    rw [ByteArray.toList, toList_loop]
    rfl
  rw [bytesToString, keyFromStr, whole, String.fromUTF8?, String.toUTF8_eq_toByteArray, dif_pos text.isValidUTF8]
  rfl

private theorem uint8_read (value : UInt8) : bytesToUint8 (uintToBytes 1 value.toNat) = .ok value := by
  have length : (uintToBytes 1 value.toNat).length = 1 := uintToBytes_length 1 _
  rw [bytesToUint8, if_neg (not_not.mpr length), bytesToUint_uintToBytes value.toNat_lt, UInt8.ofNat_toNat]

private theorem uint32_read (value : UInt32) : bytesToUint32 (uintToBytes 4 value.toNat) = .ok value := by
  have length : (uintToBytes 4 value.toNat).length = 4 := uintToBytes_length 4 _
  rw [bytesToUint32, if_neg (not_not.mpr length), bytesToUint_uintToBytes value.toNat_lt, UInt32.ofNat_toNat]

theorem uint112_read (value : Uint112) : bytesToUint112 (uintToBytes 14 value.toNat) = .ok value := by
  have length : (uintToBytes 14 value.toNat).length = 14 := uintToBytes_length 14 _
  rw [bytesToUint112, if_neg (not_not.mpr length), bytesToUint_uintToBytes (lt_of_lt_of_eq value.isLt (by norm_num)),
    BitVec.ofNat_toNat, BitVec.setWidth_eq]

theorem fromBigEndian256_of {bytes : Bytes} {value : Uint256} (same : bytesToUint bytes = value.toNat) : fromBigEndian256 bytes = .ok value := by
  rw [fromBigEndian256, same, if_pos value.isLt, BitVec.ofNat_toNat, BitVec.setWidth_eq]

theorem fromBigEndian256_unpadded (value : Uint256) : fromBigEndian256 (unpadded value.toNat) = .ok value :=
  fromBigEndian256_of (bytesToUint_unpadded _)

theorem fromBigEndian256_bytes (value : Uint256) : fromBigEndian256 (uint256ToBytes value) = .ok value :=
  fromBigEndian256_of (bytesToUint_uintToBytes (lt_of_lt_of_eq value.isLt (by norm_num)))

private theorem fromBigEndian256_hash (hash : Hash) : fromBigEndian256 hash.get = .ok hash := fromBigEndian256_bytes hash

theorem uint256ToBytes_length (value : Uint256) : (uint256ToBytes value).length = 32 := uintToBytes_length 32 _

theorem address_length (address : Address) : address.get.length = 20 := uintToBytes_length 20 _

theorem readBalance_entry (item : Address × Uint256) : readBalance (balanceEntry item) = .ok item := by
  unfold readBalance balanceEntry
  rw [address_read_get, fromBigEndian256_unpadded]
  rfl

theorem take_address (address : Address) (rest : Bytes) : (address.get ++ rest).take 20 = address.get := by
  rw [← address_length address, List.take_left]

theorem drop_address (address : Address) (rest : Bytes) : (address.get ++ rest).drop 20 = rest := by
  rw [← address_length address, List.drop_left]

theorem readAllowance_entry (item : Address × Address × Uint256) : ERC20.readAllowance (ERC20.allowanceEntry item) = .ok item := by
  unfold ERC20.readAllowance ERC20.allowanceEntry
  have amount : Utils.bytesToUint256 (uint256ToBytes item.2.2) = .ok item.2.2 := uint256_read.mpr rfl
  rw [take_address, drop_address, address_read_get, address_read_get, amount]
  rfl

theorem readUser_entry (item : Address × Address × Uint256) : ERC20Wrapper.readUser (ERC20Wrapper.userEntry item) = .ok item := by
  unfold ERC20Wrapper.readUser ERC20Wrapper.userEntry
  rw [take_address, drop_address, address_read_get, address_read_get, fromBigEndian256_unpadded]
  rfl

theorem readOwner_entry (item : Uint256 × Address) : ERC721.readOwner (ERC721.ownerEntry item) = .ok item := by
  have whole : item.2.get.take 20 = item.2.get := List.take_of_length_le (address_length item.2).le
  unfold ERC721.readOwner ERC721.ownerEntry
  rw [fromBigEndian256_unpadded, whole, address_read_get]
  rfl

theorem readApproval_entry (item : Uint256 × Address) : ERC721.readApproval (ERC721.ownerEntry item) = .ok item := by
  unfold ERC721.readApproval ERC721.ownerEntry
  rw [fromBigEndian256_unpadded, address_read_get]
  rfl

theorem readOperator_entry (item : Address × Address × Bool) : ERC721.readOperator (ERC721.operatorEntry item) = .ok item := by
  unfold ERC721.readOperator ERC721.operatorEntry
  rw [take_address, drop_address, address_read_get, address_read_get]
  obtain ⟨owner, operatorAddress, approved⟩ := item
  cases approved with
  | false => rfl
  | true => rfl

theorem readBurned_entry {item : Uint256 × BurnedToken} (exists_ : item.2.exists_ = true) :
    ERC721Mint.readBurned (ERC721Mint.burnedEntry item) = .ok item := by
  obtain ⟨tokenId, isThere, user, v, r, s, rarity⟩ := item
  obtain rfl : isThere = true := exists_
  have sizeU : user.get.length = 20 := address_length user
  have sizeR : r.get.length = 32 := Hash.get_length r
  have sizeS : s.get.length = 32 := Hash.get_length s
  have sizeT : (uint256ToBytes rarity).length = 32 := uint256ToBytes_length rarity
  let value := user.get ++ [v] ++ r.get ++ s.get ++ uint256ToBytes rarity
  have first : value.take 20 = user.get := by
    simp only [value, List.append_assoc]
    exact take_address user _
  have second : value.getD 20 0 = v := by
    simp only [value, List.append_assoc]
    rw [List.getD_eq_getElem?_getD, List.getElem?_append_right sizeU.le, sizeU]
    rfl
  have third : (value.drop 21).take 32 = r.get := by
    have whole : value = user.get ++ [v] ++ (r.get ++ (s.get ++ uint256ToBytes rarity)) := by simp only [value, List.append_assoc]
    rw [whole, List.drop_left' (by simp [sizeU]), List.take_left' sizeR]
  have fourth : (value.drop 53).take 32 = s.get := by
    have whole : value = user.get ++ [v] ++ r.get ++ (s.get ++ uint256ToBytes rarity) := by simp only [value, List.append_assoc]
    rw [whole, List.drop_left' (by simp [sizeU, sizeR]), List.take_left' sizeS]
  have fifth : (value.drop 85).take 32 = uint256ToBytes rarity := by
    rw [List.drop_left' (by simp [sizeU, sizeR, sizeS]), List.take_of_length_le sizeT.le]
  unfold ERC721Mint.readBurned ERC721Mint.burnedEntry
  simp only [value] at first second third fourth fifth
  rw [first, second, third, fourth, fifth, address_read_get, fromBigEndian256_bytes, fromBigEndian256_bytes,
    fromBigEndian256_hash, fromBigEndian256_hash]
  rfl

theorem readRarity_entry (item : Uint256 × Uint256) : ERC721Mint.readRarity (ERC721Mint.rarityEntry item) = .ok item := by
  unfold ERC721Mint.readRarity ERC721Mint.rarityEntry
  rw [fromBigEndian256_bytes, fromBigEndian256_bytes]
  rfl

theorem readURI_entry (item : Uint256 × String) : ERC721Mint.readURI (ERC721Mint.uriEntry item) = .ok item := by
  unfold ERC721Mint.readURI ERC721Mint.uriEntry
  rw [fromBigEndian256_bytes, bytesToString_keyFromStr]
  rfl

theorem readOwned_entry (item : Address × Uint256 × Uint256) : ERC721Mint.readOwned (ERC721Mint.ownedEntry item) = .ok item := by
  have whole : (uint256ToBytes item.2.1).take 32 = uint256ToBytes item.2.1 := List.take_of_length_le (uint256ToBytes_length _).le
  unfold ERC721Mint.readOwned ERC721Mint.ownedEntry
  rw [take_address, drop_address, whole, address_read_get, fromBigEndian256_bytes, fromBigEndian256_bytes]
  rfl

theorem flatMap_word (tokens : List Uint256) : (tokens.flatMap uint256ToBytes).length = 32 * tokens.length := by
  induction tokens with
  | nil => rfl
  | cons token rest ih =>
    rw [List.flatMap_cons, List.length_append, ih, uint256ToBytes_length, List.length_cons]
    omega

theorem drop_words (tokens : List Uint256) (i : Nat) : (tokens.flatMap uint256ToBytes).drop (32 * i) = (tokens.drop i).flatMap uint256ToBytes := by
  induction tokens generalizing i with
  | nil => rw [List.flatMap_nil, List.drop_nil, List.drop_nil, List.flatMap_nil]
  | cons token rest ih =>
    cases i with
    | zero => rfl
    | succ i =>
      have next : 32 * (i + 1) = (uint256ToBytes token).length + 32 * i := by
        rw [uint256ToBytes_length]
        omega
      rw [List.flatMap_cons, List.drop_succ_cons, ← ih, next, ← List.drop_drop, List.drop_left]

theorem readList_entry (item : Address × List Uint256) : ERC721Mint.readList (ERC721Mint.listEntry item) = .ok item := by
  obtain ⟨user, tokens⟩ := item
  have count : ((tokens.flatMap uint256ToBytes).length + 31) / 32 = tokens.length := by
    rw [flatMap_word]
    omega
  have words : (List.range tokens.length).mapM (fun i => fromBigEndian256 (((tokens.flatMap uint256ToBytes).drop (32 * i)).take 32)) =
      .ok tokens := by
    have each : ∀ i ∈ List.range tokens.length, fromBigEndian256 (((tokens.flatMap uint256ToBytes).drop (32 * i)).take 32) =
        .ok (tokens[i]?.getD 0) := by
      intro i member
      have inside := List.mem_range.mp member
      rw [drop_words, List.drop_eq_getElem_cons inside, List.flatMap_cons, List.take_left' (uint256ToBytes_length _),
        fromBigEndian256_bytes, List.getElem?_eq_getElem inside, Option.getD_some]
    have whole : (List.range tokens.length).map (fun i => tokens[i]?.getD 0) = tokens := by
      apply List.ext_getElem
      · rw [List.length_map, List.length_range]
      · intro i _ inside
        rw [List.getElem_map, List.getElem_range, List.getElem?_eq_getElem inside, Option.getD_some]
    rw [mapM_ok_map each, whole]
  unfold ERC721Mint.readList ERC721Mint.listEntry
  rw [count, words, address_read_get]
  rfl

private theorem readListed_entry (pair : Address) : DEXV2Factory.readListed (DEXV2Factory.listedEntry pair) = .ok pair := address_read_get pair

theorem readPair_entry (item : Address × Address × Address) : DEXV2Factory.readPair (DEXV2Factory.pairEntry item) = .ok item := by
  unfold DEXV2Factory.readPair DEXV2Factory.pairEntry
  rw [take_address, drop_address, address_read_get, address_read_get, address_read_get]
  rfl

abbrev Areas := List (Area UInt8 Bytes)

variable {db after : DB} {address : Address} {name : String}

theorem get_one {value : Bytes} (exact_ : Exact db (dbPrefix address) (.one (keyFromStr name) value)) :
    db.get (keyFromStr name) (dbPrefix address) = value := by
  rw [DB.get, lookup_one exact_]
  rfl

theorem writes_batch {α : Type} {entry : α → Bytes × Bytes} {walk : List α} {items : Set α} (walked : ∀ item, item ∈ walk ↔ item ∈ items) :
    Writes (dbPrefix address) [.of (keyFromStr name) entry items] (batchUnder address name entry walk) := writes_of walked

theorem fill_read {κ ν : Type} [Inhabited ν] [DecidableEq κ] {table : Table κ ν} {entry : κ × ν → Bytes × Bytes}
    {read : Bytes × Bytes → Except Exception (κ × ν)} (exact_ : Exact db (dbPrefix address) (.of (keyFromStr name) entry table.items))
    (reads : ∀ item ∈ table.items, read (entry item) = .ok item) :
    ∃ items, (db.getBatch (getNewPrefix address name)).mapM read = .ok items ∧ .fill items = table := by
  obtain ⟨items, done, listed⟩ := decode_items exact_ reads
  exact ⟨items, done, Table.fill_items listed⟩

theorem fillNested_read {κ ι ν : Type} [Inhabited ν] [DecidableEq κ] [DecidableEq ι] {table : Table κ (Table ι ν)}
    {entry : κ × ι × ν → Bytes × Bytes} {read : Bytes × Bytes → Except Exception (κ × ι × ν)} (filled : table.Filled)
    (exact_ : Exact db (dbPrefix address) (.of (keyFromStr name) entry table.nestedItems))
    (reads : ∀ item ∈ table.nestedItems, read (entry item) = .ok item) :
    ∃ items, (db.getBatch (getNewPrefix address name)).mapM read = .ok items ∧ .fillNested items = table := by
  obtain ⟨items, done, listed⟩ := decode_items exact_ reads
  exact ⟨items, done, Table.fillNested_items filled listed⟩

def baseAreas (base : BaseContract) (address : Address) : Areas :=
  [.one (keyFromStr "contractName_") (keyFromStr base.contractName), .one (keyFromStr "contractAddress_") address.get,
    .one (keyFromStr "contractCreator_") base.contractCreator.get,
    .one (keyFromStr "contractChainId_") (uintToBytes 8 base.contractChainId.toNat)]

theorem create_stores (base : BaseContract) : Stores db (dbPrefix address) (baseAreas base address) (base.create address db) :=
  (((stores_one _ _).trans (stores_one _ _)).trans (stores_one _ _)).trans (stores_one _ _)

theorem base_load {base : BaseContract} (exact_ : ∀ area ∈ baseAreas base address, Exact db (dbPrefix address) area) :
    BaseContract.load db address = .ok base := by
  simp only [baseAreas, List.forall_mem_cons] at exact_
  obtain ⟨name, _, creator, chainId, _⟩ := exact_
  unfold BaseContract.load
  dsimp only
  rw [get_one name, get_one creator, get_one chainId, bytesToString_keyFromStr, address_read_get, uint64_read.mpr rfl]
  rfl

def erc20Areas (token : ERC20) : Areas :=
  [.one (keyFromStr "name_") (keyFromStr token.name), .one (keyFromStr "symbol_") (keyFromStr token.symbol),
    .one (keyFromStr "decimals_") (uintToBytes 1 token.decimals.toNat),
    .one (keyFromStr "totalSupply_") (uint256ToBytes token.totalSupply),
    .of (keyFromStr "balances_") balanceEntry token.balances.items, .of (keyFromStr "allowed_") ERC20.allowanceEntry token.allowed.nestedItems]

theorem erc20_stores (token : ERC20) (walk : token.Walk) :
    Stores db (dbPrefix address) (erc20Areas token) (token.save walk address db) :=
  ((((stores_one _ _).trans (stores_one _ _)).trans (stores_one _ _)).trans (stores_one _ _)).trans
    ⟨_, (writes_batch walk.mem_balances).append (writes_batch walk.mem_allowed), rfl⟩

theorem erc20_load {token : ERC20} (filled : token.allowed.Filled) (exact_ : ∀ area ∈ erc20Areas token, Exact db (dbPrefix address) area) :
    ERC20.load db address = .ok token := by
  simp only [erc20Areas, List.forall_mem_cons] at exact_
  obtain ⟨name, symbol, decimals, totalSupply, balances, allowed, _⟩ := exact_
  obtain ⟨someBalances, readBalances, filledBalances⟩ := fill_read balances fun item _ => readBalance_entry item
  obtain ⟨someAllowed, readAllowed, filledAllowed⟩ := fillNested_read filled allowed fun item _ => readAllowance_entry item
  have supply : Utils.bytesToUint256 (uint256ToBytes token.totalSupply) = .ok token.totalSupply := uint256_read.mpr rfl
  unfold ERC20.load
  dsimp only
  rw [get_one name, get_one symbol, get_one decimals, get_one totalSupply, readBalances, readAllowed, bytesToString_keyFromStr,
    bytesToString_keyFromStr, uint8_read, supply]
  refine congrArg Except.ok ?_
  rw [filledBalances, filledAllowed]

def wrapperAreas (wrapper : ERC20Wrapper) : Areas :=
  [.of (keyFromStr "tokensAndBalances_") ERC20Wrapper.userEntry wrapper.tokensAndBalances.nestedItems]

theorem wrapper_stores (wrapper : ERC20Wrapper) (walk : wrapper.Walk) :
    Stores db (dbPrefix address) (wrapperAreas wrapper) (wrapper.save walk address db) :=
  ⟨_, writes_batch walk.mem_tokensAndBalances, rfl⟩

theorem wrapper_load {wrapper : ERC20Wrapper} (filled : wrapper.tokensAndBalances.Filled)
    (exact_ : ∀ area ∈ wrapperAreas wrapper, Exact db (dbPrefix address) area) : ERC20Wrapper.load db address = .ok wrapper := by
  have entries := exact_ _ (List.mem_singleton_self _)
  obtain ⟨some, read, filledTable⟩ := fillNested_read filled entries fun item _ => readUser_entry item
  unfold ERC20Wrapper.load
  rw [read]
  refine congrArg Except.ok ?_
  rw [filledTable]

def erc721Areas (token : ERC721) : Areas :=
  [.one (keyFromStr "name_") (keyFromStr token.name), .one (keyFromStr "symbol_") (keyFromStr token.symbol),
    .of (keyFromStr "owners_") ERC721.ownerEntry token.owners.items, .of (keyFromStr "balances_") balanceEntry token.balances.items,
    .of (keyFromStr "tokenApprovals_") ERC721.ownerEntry token.tokenApprovals.items,
    .of (keyFromStr "operatorAddressApprovals_") ERC721.operatorEntry token.operatorAddressApprovals.nestedItems]

theorem erc721_stores (token : ERC721) (walk : token.Walk) :
    Stores db (dbPrefix address) (erc721Areas token) (token.save walk address db) :=
  ((stores_one _ _).trans (stores_one _ _)).trans ⟨_, (((writes_batch walk.mem_owners).append (writes_batch walk.mem_balances)).append
    (writes_batch walk.mem_tokenApprovals)).append (writes_batch walk.mem_operatorAddressApprovals), rfl⟩

theorem erc721_load {token : ERC721} (filled : token.operatorAddressApprovals.Filled)
    (exact_ : ∀ area ∈ erc721Areas token, Exact db (dbPrefix address) area) : ERC721.load db address = .ok token := by
  simp only [erc721Areas, List.forall_mem_cons] at exact_
  obtain ⟨name, symbol, owners, balances, tokenApprovals, operators, _⟩ := exact_
  obtain ⟨someOwners, readOwners, filledOwners⟩ := fill_read owners fun item _ => readOwner_entry item
  obtain ⟨someBalances, readBalances, filledBalances⟩ := fill_read balances fun item _ => readBalance_entry item
  obtain ⟨someApprovals, readApprovals, filledApprovals⟩ := fill_read tokenApprovals fun item _ => readApproval_entry item
  obtain ⟨someOperators, readOperators, filledOperators⟩ := fillNested_read filled operators fun item _ => readOperator_entry item
  unfold ERC721.load
  dsimp only
  rw [get_one name, get_one symbol, readOwners, readBalances, readApprovals, readOperators, bytesToString_keyFromStr,
    bytesToString_keyFromStr]
  refine congrArg Except.ok ?_
  rw [filledOwners, filledBalances, filledApprovals, filledOperators]

def preBurnedName : Bytes := keyFromStr "preBurnedTokens_"

def mintAreas (token : ERC721Mint) : Areas :=
  [.one (keyFromStr "tokenIdCounter_") (uint256ToBytes token.tokenIdCounter),
    .one (keyFromStr "totalSupply_") (uint256ToBytes token.totalSupply), .one (keyFromStr "maxSupply_") (uint256ToBytes token.maxSupply),
    .one (keyFromStr "signer_") token.signer.get, .one (keyFromStr "_tokenBaseURI") (keyFromStr token.tokenBaseURI),
    .of preBurnedName ERC721Mint.burnedEntry token.preBurnedTokens.items,
    .of (keyFromStr "burnedTokens_") ERC721Mint.burnedEntry token.burnedTokens.items,
    .of (keyFromStr "tokenIdRarity_") ERC721Mint.rarityEntry token.tokenIdRarity.items,
    .of (keyFromStr "tokenURI_") ERC721Mint.uriEntry token.tokenURI.items,
    .of (keyFromStr "_ownedTokens_") ERC721Mint.ownedEntry token.ownedTokens.nestedItems,
    .of (keyFromStr "_ownedTokensIndex_") ERC721Mint.ownedEntry token.ownedTokensIndex.nestedItems,
    .of (keyFromStr "preburnedTokensByOwner_") ERC721Mint.listEntry token.preburnedTokensByOwner.items] ++ erc721Areas token.toERC721

theorem mint_stores (token : ERC721Mint) (walk : token.Walk) :
    Stores db (dbPrefix address) (mintAreas token) (token.save walk address db) :=
  ((((((stores_one _ _).trans (stores_one _ _)).trans (stores_one _ _)).trans (stores_one _ _)).trans (stores_one _ _)).trans
    ⟨_, ((((((writes_batch walk.mem_preBurnedTokens).append (writes_batch walk.mem_burnedTokens)).append
      (writes_batch walk.mem_tokenIdRarity)).append (writes_batch walk.mem_tokenURI)).append (writes_batch walk.mem_ownedTokens)).append
      (writes_batch walk.mem_ownedTokensIndex)).append (writes_batch walk.mem_preburnedTokensByOwner), rfl⟩).trans
    (erc721_stores token.toERC721 walk.toWalk)

/-- What is read back: the entries of both kinds of burned tokens all exist, and no inner map is empty. -/
structure MintReadable (token : ERC721Mint) : Prop where
  operators : token.operatorAddressApprovals.Filled
  owned : token.ownedTokens.Filled
  index : token.ownedTokensIndex.Filled
  preBurned : ∀ tokenId ∈ token.preBurnedTokens.keys, (token.preBurnedTokens.value tokenId).exists_ = true
  burned : ∀ tokenId ∈ token.burnedTokens.keys, (token.burnedTokens.value tokenId).exists_ = true

theorem mint_load {token : ERC721Mint} (readable : MintReadable token)
    (exact_ : ∀ area ∈ mintAreas token, Exact db (dbPrefix address) area) : ERC721Mint.load db address = .ok token := by
  have inherited := erc721_load readable.operators fun area member => exact_ area (List.mem_append_right _ member)
  have own := fun area member => exact_ area (List.mem_append_left (erc721Areas token.toERC721) member)
  simp only [List.forall_mem_cons] at own
  obtain ⟨counter, supply, most, signer, baseURI, preBurned, burned, rarity, uri, owned, index, lists, _⟩ := own
  obtain ⟨somePre, readPre, filledPre⟩ := fill_read preBurned fun item member =>
    readBurned_entry (by rw [member.2]; exact readable.preBurned item.1 member.1)
  obtain ⟨someBurned, readBurned, filledBurned⟩ := fill_read burned fun item member =>
    readBurned_entry (by rw [member.2]; exact readable.burned item.1 member.1)
  obtain ⟨someRarity, readRarity, filledRarity⟩ := fill_read rarity fun item _ => readRarity_entry item
  obtain ⟨someURI, readURI, filledURI⟩ := fill_read uri fun item _ => readURI_entry item
  obtain ⟨someOwned, readOwned, filledOwned⟩ := fillNested_read readable.owned owned fun item _ => readOwned_entry item
  obtain ⟨someIndex, readIndex, filledIndex⟩ := fillNested_read readable.index index fun item _ => readOwned_entry item
  obtain ⟨someLists, readLists, filledLists⟩ := fill_read lists fun item _ => readList_entry item
  have words (value : Uint256) : Utils.bytesToUint256 (uint256ToBytes value) = .ok value := uint256_read.mpr rfl
  unfold ERC721Mint.load
  dsimp only
  rw [inherited, get_one counter, get_one supply, get_one most, get_one signer, get_one baseURI, readPre, readBurned, readRarity, readURI,
    readOwned, readIndex, readLists, words, words, words, address_read_get, bytesToString_keyFromStr]
  refine congrArg Except.ok ?_
  rw [filledPre, filledBurned, filledRarity, filledURI, filledOwned, filledIndex, filledLists]

def factoryAreas (factory : DEXV2Factory) : Areas :=
  [.one (keyFromStr "feeTo_") factory.feeTo.get, .one (keyFromStr "feeToSetter_") factory.feeToSetter.get,
    .of (keyFromStr "allPairs_") DEXV2Factory.listedEntry {pair | pair ∈ factory.allPairs},
    .of (keyFromStr "getPair_") DEXV2Factory.pairEntry factory.getPairs.nestedItems]

theorem factory_stores (factory : DEXV2Factory) (walk : factory.Walk) :
    Stores db (dbPrefix address) (factoryAreas factory) (factory.save walk address db) :=
  ⟨_, (((writes_one _ _ _).append (writes_one _ _ _)).append (writes_batch fun _ => Iff.rfl)).append (writes_batch walk.mem_getPairs), rfl⟩

/-- One pair at most is read back: all of them are written under one key. -/
theorem factory_load {factory : DEXV2Factory} (filled : factory.getPairs.Filled) (few : factory.allPairs.length ≤ 1)
    (exact_ : ∀ area ∈ factoryAreas factory, Exact db (dbPrefix address) area) : DEXV2Factory.load db address = .ok factory := by
  simp only [factoryAreas, List.forall_mem_cons] at exact_
  obtain ⟨feeTo, feeToSetter, allPairs, getPairs, _⟩ := exact_
  obtain ⟨somePairs, readPairs, filledPairs⟩ := fillNested_read filled getPairs fun item _ => readPair_entry item
  have listed : (db.getBatch (getNewPrefix address "allPairs_")).mapM DEXV2Factory.readListed = .ok factory.allPairs := by
    have scanned : db.scan (getNewPrefix address "allPairs_") = factory.allPairs.map DEXV2Factory.listedEntry := by
      apply scan_eq_of_length_le_one
      · rw [List.length_map]
        exact few
      · intro entry
        exact (mem_scan_iff allPairs).trans List.mem_map.symm
    unfold getBatch
    rw [scanned]
    exact mapM_map_ok fun pair _ => readListed_entry pair
  unfold DEXV2Factory.load
  dsimp only
  rw [get_one feeTo, get_one feeToSetter, listed, readPairs, address_read_get, address_read_get]
  refine congrArg Except.ok ?_
  rw [filledPairs]

def pairAreas (pair : DEXV2Pair) : Areas :=
  [.one (keyFromStr "factory_") pair.factory.get, .one (keyFromStr "token0_") pair.token0.get, .one (keyFromStr "token1_") pair.token1.get,
    .one (keyFromStr "reserve0_") (uintToBytes 14 pair.reserve0.toNat), .one (keyFromStr "reserve1_") (uintToBytes 14 pair.reserve1.toNat),
    .one (keyFromStr "blockTimestampLast_") (uintToBytes 4 pair.blockTimestampLast.toNat),
    .one (keyFromStr "price0CumulativeLast_") (uint256ToBytes pair.price0CumulativeLast),
    .one (keyFromStr "price1CumulativeLast_") (uint256ToBytes pair.price1CumulativeLast),
    .one (keyFromStr "kLast_") (uint256ToBytes pair.kLast)] ++ erc20Areas pair.toERC20

theorem writes_ones (pfx : Bytes) (values : List (Bytes × Bytes)) :
    Writes pfx (values.map fun value => .one value.1 value.2) (values.map fun value => (pfx ++ value.1, value.2)) := by
  induction values with
  | nil =>
    intro entry
    simp
  | cons value rest ih => exact (writes_one pfx value.1 value.2).append ih

/-- A reserve that fills the array leaves nothing of what was there. -/
theorem reserve_written {reserve : Uint112} {array : Bytes} (large : 256 ^ 13 ≤ reserve.toNat) (size : array.length = 14) :
    Codecs.uint112ToBytes array reserve = uintToBytes 14 reserve.toNat :=
  (copied_over_all_iff (lt_of_lt_of_eq reserve.isLt (by norm_num)) (by decide)).mpr large array size

/-- The variables with the bytes that are written for the reserves. -/
def writtenAreas (pair : DEXV2Pair) (bytes0 bytes1 : Bytes) : Areas :=
  ([("factory_", pair.factory.get), ("token0_", pair.token0.get), ("token1_", pair.token1.get), ("reserve0_", bytes0), ("reserve1_", bytes1),
    ("blockTimestampLast_", uintToBytes 4 pair.blockTimestampLast.toNat), ("price0CumulativeLast_", uint256ToBytes pair.price0CumulativeLast),
    ("price1CumulativeLast_", uint256ToBytes pair.price1CumulativeLast), ("kLast_", uint256ToBytes pair.kLast)].map fun value =>
      .one (keyFromStr value.1) value.2) ++ erc20Areas pair.toERC20

theorem written_stores (pair : DEXV2Pair) (walk : pair.toERC20.Walk) (array0 array1 : Bytes) :
    Stores db (dbPrefix address) (writtenAreas pair (Codecs.uint112ToBytes array0 pair.reserve0) (Codecs.uint112ToBytes array1 pair.reserve1))
      (pair.save walk array0 array1 address db) := by
  refine Stores.trans ⟨_, writes_ones _ [(keyFromStr "factory_", pair.factory.get), (keyFromStr "token0_", pair.token0.get),
    (keyFromStr "token1_", pair.token1.get), (keyFromStr "reserve0_", Codecs.uint112ToBytes array0 pair.reserve0),
    (keyFromStr "reserve1_", Codecs.uint112ToBytes array1 pair.reserve1),
    (keyFromStr "blockTimestampLast_", uintToBytes 4 pair.blockTimestampLast.toNat),
    (keyFromStr "price0CumulativeLast_", uint256ToBytes pair.price0CumulativeLast),
    (keyFromStr "price1CumulativeLast_", uint256ToBytes pair.price1CumulativeLast), (keyFromStr "kLast_", uint256ToBytes pair.kLast)], rfl⟩ ?_
  exact erc20_stores pair.toERC20 walk

theorem pair_stores (pair : DEXV2Pair) (walk : pair.toERC20.Walk) {array0 array1 : Bytes} (sizes : array0.length = 14 ∧ array1.length = 14)
    (large : 256 ^ 13 ≤ pair.reserve0.toNat ∧ 256 ^ 13 ≤ pair.reserve1.toNat) :
    Stores db (dbPrefix address) (pairAreas pair) (pair.save walk array0 array1 address db) := by
  have written : Stores db (dbPrefix address) _ (pair.save walk array0 array1 address db) := written_stores pair walk array0 array1
  rw [reserve_written large.1 sizes.1, reserve_written large.2 sizes.2] at written
  exact written

theorem pair_load {pair : DEXV2Pair} (filled : pair.allowed.Filled) (exact_ : ∀ area ∈ pairAreas pair, Exact db (dbPrefix address) area) :
    DEXV2Pair.load db address = .ok pair := by
  have inherited := erc20_load filled fun area member => exact_ area (List.mem_append_right _ member)
  have own := fun area member => exact_ area (List.mem_append_left (erc20Areas pair.toERC20) member)
  simp only [List.forall_mem_cons] at own
  obtain ⟨factory, token0, token1, reserve0, reserve1, timestamp, price0, price1, kLast, _⟩ := own
  have words (value : Uint256) : Utils.bytesToUint256 (uint256ToBytes value) = .ok value := uint256_read.mpr rfl
  unfold DEXV2Pair.load
  dsimp only
  rw [inherited, get_one factory, get_one token0, get_one token1, get_one reserve0, get_one reserve1, get_one timestamp, get_one price0,
    get_one price1, get_one kLast, address_read_get, address_read_get, address_read_get, uint112_read, uint112_read, uint32_read, words,
    words, words]
  rfl

/-- What makes a class of contracts last, where its states are fine. The loose areas may also lose keys. -/
structure Durable {τ : Type} (template : Template τ) (fine : Address → τ → DB → Prop) (areas : τ → Areas) (loose : List Bytes)
    (sound : τ → Prop) : Prop where
  apart : ∀ (base : BaseContract) (address : Address) (contract : τ),
    (baseAreas base address ++ areas contract).Pairwise fun first second => Apart first.name second.name
  stores : ∀ {address contract db saved}, template.Saved address contract db saved → fine address contract db →
    Stores db (dbPrefix address) (areas contract) saved
  single : ∀ {address contract db}, fine address contract db → ∀ area ∈ areas contract, area.Single
  covers : ∀ {address contract db}, fine address contract db → ∀ area ∈ areas contract, area.name ∈ loose →
    Within db (dbPrefix address) area
  loads : ∀ {address contract db saved}, sound contract → fine address contract db →
    (∀ area ∈ areas contract, Exact saved (dbPrefix address) area) → template.load saved address = .ok contract
  new : ∀ {contract}, template.New contract → sound contract
  called : ∀ {before after}, template.Called before after → sound before → sound after
  grows : ∀ {before after}, template.Called before after → ∀ late ∈ areas after, late.name ∉ loose →
    ∃ early ∈ areas before, late.name = early.name ∧ early.keys ⊆ late.keys

variable {τ : Type} {template : Template τ} {fine : Address → τ → DB → Prop} {areas : τ → Areas} {loose : List Bytes} {sound : τ → Prop}
  {base : BaseContract} {contract : τ} {saved db' : DB}

/-- What the database of a contract holds between its restarts. -/
structure Held (areas : τ → Areas) (loose : List Bytes) (sound : τ → Prop) (address : Address) (base : BaseContract) (contract : τ)
    (db : DB) : Prop where
  sound : sound contract
  base : ∀ area ∈ baseAreas base address, Exact db (dbPrefix address) area
  older : ∀ area ∈ areas contract, area.name ∉ loose → Within db (dbPrefix address) area

theorem Held.elsewhere (held : Held areas loose sound address base contract db) (same : SameUnder address db db') :
    Held areas loose sound address base contract db' where
  sound := held.sound
  base := fun area member => (held.base area member).congr same
  older := fun area member tight => (held.older area member tight).congr same

variable (durable : Durable template fine areas loose sound)
include durable

theorem held_new (fresh : ∀ key, db.lookup (dbPrefix address ++ key) = none)
    (new : template.New contract) : Held areas loose sound address base contract (base.create address db) := by
  obtain ⟨batch, writes, stored⟩ := @create_stores db address base
  have apart := List.pairwise_append.mp (durable.apart base address contract)
  have empty (area : Area UInt8 Bytes) : Within db (dbPrefix address) area := by
    intro key value found
    rw [fresh] at found
    cases found
  rw [stored]
  refine ⟨durable.new new, ?_, ?_⟩
  · apply exact_putAll writes apart.1
    · intro area member
      simp only [baseAreas, List.mem_cons, List.not_mem_nil, or_false] at member
      rcases member with rfl | rfl | rfl | rfl
      · exact Area.single_one _ _
      · exact Area.single_one _ _
      · exact Area.single_one _ _
      · exact Area.single_one _ _
    · exact fun area _ => empty area
  · intro area member _
    have none : Exact db (dbPrefix address) ⟨area.name, ∅⟩ := by
      intro key value
      rw [fresh]
      simp
    have elsewhere : ∀ written ∈ baseAreas base address, Apart area.name written.name := by
      intro written listed
      obtain ⟨forth, back⟩ := apart.2.2 written listed area member
      exact ⟨back, forth⟩
    have still : Exact (db.putAll batch) (dbPrefix address) ⟨area.name, ∅⟩ := exact_putAll_of_apart writes elsewhere none
    intro key value found
    cases (still key value).mp found

theorem Held.called {before after : τ}
    (held : Held areas loose sound address base before db) (called : template.Called before after) :
    Held areas loose sound address base after db where
  sound := durable.called called held.sound
  base := held.base
  older := by
    intro late member tight
    obtain ⟨early, there, name, keys⟩ := durable.grows called late member tight
    exact (held.older early there (name ▸ tight)).mono name keys

/-- A save over what the database holds of earlier ones. -/
theorem held_saved (held : Held areas loose sound address base contract db)
    (fit : fine address contract db) (stopped : template.Saved address contract db saved) (same : SameUnder address saved db') :
    (∀ area ∈ baseAreas base address, Exact db' (dbPrefix address) area) ∧ ∀ area ∈ areas contract, Exact db' (dbPrefix address) area := by
  obtain ⟨batch, writes, rfl⟩ := durable.stores stopped fit
  have apart := List.pairwise_append.mp (durable.apart base address contract)
  have within : ∀ area ∈ areas contract, Within db (dbPrefix address) area := by
    intro area member
    by_cases tight : area.name ∈ loose
    · exact durable.covers fit area member tight
    · exact held.older area member tight
  constructor
  · intro area member
    exact (exact_putAll_of_apart writes (fun written listed => apart.2.2 area member written listed) (held.base area member)).congr same
  · intro area member
    exact (exact_putAll writes apart.2.1 (durable.single fit) within area member).congr same

/-- A contract whose states are fine whenever it is saved. -/
theorem lived_held (lived : template.Lived fine address base contract db) :
    Held areas loose sound address base contract db := by
  induction lived with
  | start fresh new => exact held_new durable fresh new
  | call lived called ih => exact ih.called durable called
  | elsewhere lived same ih => exact ih.elsewhere same
  | restart lived fit stopped same loaded ih =>
    obtain ⟨stored, own⟩ := held_saved durable ih fit stopped same
    obtain rfl := Except.ok.inj (loaded.symm.trans (durable.loads ih.sound fit own))
    exact ⟨ih.sound, stored, fun area member _ => (own area member).within⟩

theorem lived_survives (lived : template.Lived fine address base contract db)
    (fit : fine address contract db) : template.Survives address base contract db := by
  intro saved db' stopped same
  have held := lived_held durable lived
  obtain ⟨stored, own⟩ := held_saved durable held fit stopped same
  exact ⟨base_load stored, durable.loads held.sound fit own⟩

theorem shaped_new {area : Area UInt8 Bytes} (member : area ∈ areas contract)
    {shape : Set Bytes} (fresh : ∀ key, db.lookup (dbPrefix address ++ key) = none) :
    Shaped (base.create address db) (dbPrefix address) area.name shape := by
  obtain ⟨batch, writes, stored⟩ := @create_stores db address base
  have apart := List.pairwise_append.mp (durable.apart base address contract)
  rw [stored]
  apply shaped_putAll_of_apart writes
  · intro written listed
    obtain ⟨forth, back⟩ := apart.2.2 written listed area member
    exact ⟨back, forth⟩
  · intro key value found
    rw [fresh] at found
    cases found

/-- What a database holds under the name of a variable was written for it, when the contract was new or was saved. -/
theorem lived_shaped {own : τ → Area UInt8 Bytes} {name : Bytes} {shape : Set Bytes}
    (member : ∀ contract, own contract ∈ areas contract) (named : ∀ contract, (own contract).name = name)
    (shaped : ∀ contract, (own contract).keys ⊆ shape) (lived : template.Lived fine address base contract db) :
    Shaped db (dbPrefix address) name shape := by
  induction lived with
  | @start contract db fresh new => exact named contract ▸ shaped_new durable (member contract) fresh
  | call _ _ ih => exact ih
  | elsewhere _ same ih => exact ih.congr same
  | @restart before after db saved db' _ fit stopped same _ ih =>
    obtain ⟨batch, writes, rfl⟩ := durable.stores stopped fit
    have apart := (List.pairwise_append.mp (durable.apart base address before)).2.1
    rw [← named before] at ih ⊢
    exact (shaped_putAll writes apart (member before) (shaped before) ih).congr same

end OrbiterSDK.Proofs.TemplateAreas
