import OrbiterSDK.Proofs.SignedBurns
import OrbiterSDK.Proofs.TemplateAreas
import OrbiterSDK.Proofs.TemplateKeys

/-! The classes of contracts, and which of their states are loaded as they were. -/

namespace OrbiterSDK
open Lib DB

def ERC20.template : Template ERC20 where
  New token := ∃ name symbol decimals mintValue creator, ERC20.create name symbol decimals mintValue creator = .ok token
  Called before after := ∃ request, before.call request = .ok after
  Saved address token db saved := ∃ walk : token.Walk, saved = token.save walk address db
  load := ERC20.load

/-- Tokens may do anything in between. -/
def ERC20Wrapper.template : Template ERC20Wrapper where
  New wrapper := wrapper = {}
  Called before after := ∃ self vault vault' request, ERC20Wrapper.call self vault request = .ok vault' ∧
    vault.wrapper = before ∧ vault'.wrapper = after
  Saved address wrapper db saved := ∃ walk : wrapper.Walk, saved = wrapper.save walk address db
  load := ERC20Wrapper.load

def ERC721.template : Template ERC721 where
  New token := ∃ name symbol, token = ERC721.create name symbol
  Called before after := ∃ request, before.call request = .ok after
  Saved address token db saved := ∃ walk : token.Walk, saved = token.save walk address db
  load := ERC721.load

def ERC721Mint.template : Template ERC721Mint where
  New := ERC721Mint.New
  Called before after := ∃ around request, before.call around request = .ok after
  Saved address token db saved := ∃ walk : token.Walk, saved = token.save walk address db
  load := ERC721Mint.load

/-- What a call of any contract of an exchange makes of one of them. -/
def ExchangeCalled {τ : Type} (as_ : DEXV2.Cast τ) (before after : τ) : Prop :=
  ∃ world world' request address, Proofs.PairSolvency.call world request = .ok world' ∧ world.at_ as_ address = some before ∧
    world'.at_ as_ address = some after

def DEXV2Factory.template : Template DEXV2Factory where
  New factory := ∃ feeToSetter, factory = { feeToSetter }
  Called := ExchangeCalled DEXV2.asFactory
  Saved address factory db saved := ∃ walk : factory.Walk, saved = factory.save walk address db
  load := DEXV2Factory.load

/-- The arrays hold whatever was in the memory. -/
def DEXV2Pair.template : Template DEXV2Pair where
  New pair := ∃ creator, DEXV2Pair.create creator = .ok pair
  Called := ExchangeCalled DEXV2.asPair
  Saved address pair db saved := ∃ (walk : pair.toERC20.Walk) (array0 array1 : Bytes), (array0.length = 14 ∧ array1.length = 14) ∧
    saved = pair.save walk array0 array1 address db
  load := DEXV2Pair.load

/-- Nobody else has a balance in the same token. -/
def ERC20Wrapper.Fine (_ : Address) (wrapper : ERC20Wrapper) (_ : DB) : Prop := wrapper.tokensAndBalances.Lone

/-- No token was pre-burned when the contract was saved before and is not so any more. -/
def ERC721Mint.Fine (address : Address) (token : ERC721Mint) (db : DB) : Prop :=
  ∀ key value, db.lookup (BaseContract.getNewPrefix address "preBurnedTokens_" ++ key) = some value →
    ∃ tokenId ∈ token.preBurnedTokens.keys, key = Utils.uint256ToBytes tokenId

/-- There is one pair at most, and no token is in two. -/
def DEXV2Factory.Fine (_ : Address) (factory : DEXV2Factory) (_ : DB) : Prop :=
  factory.allPairs.length ≤ 1 ∧ factory.getPairs.Lone

/-- The reserves fill their arrays. -/
def DEXV2Pair.Fine (_ : Address) (pair : DEXV2Pair) (_ : DB) : Prop :=
  256 ^ 13 ≤ pair.reserve0.toNat ∧ 256 ^ 13 ≤ pair.reserve1.toNat

/-- In all lives in which the contract is fine each time it is saved, it is loaded as it was if and only if it is fine. -/
def Template.Lasts {τ : Type} (template : Template τ) (fine : Address → τ → DB → Prop) (address : Address) (base : BaseContract) : Prop :=
  ∀ {contract db}, template.Lived fine address base contract db → (template.Survives address base contract db ↔ fine address contract db)

namespace Proofs.TemplateSurvival
open Lib.PrefixStore BaseContract TemplateAreas TemplateKeys Utils Saved SignedBurns TokenLists

def Grown (loose : List Bytes) (early late : Area UInt8 Bytes) : Prop :=
  late.name = early.name ∧ (late.name ∉ loose → early.keys ⊆ late.keys)

variable {loose : List Bytes} {name : Bytes}

theorem grown_one (value value' : Bytes) : Grown loose (.one name value) (.one name value') := by
  refine ⟨rfl, fun _ => ?_⟩
  rintro _ ⟨_, rfl, rfl⟩
  exact ⟨_, rfl, rfl⟩

private theorem grown_loose {κ ν : Type} {entry : κ × ν → Bytes × Bytes} (items items' : Set (κ × ν)) (free : name ∈ loose) :
    Grown loose (.of name entry items) (.of name entry items') := ⟨rfl, fun tight => absurd free tight⟩

theorem grown_mem {before after : Areas} (grown : List.Forall₂ (Grown loose) before after) :
    ∀ late ∈ after, late.name ∉ loose → ∃ early ∈ before, late.name = early.name ∧ early.keys ⊆ late.keys := by
  induction grown with
  | nil =>
    intro late member
    cases member
  | @cons early late rest rest' first _ ih =>
    intro other member tight
    cases List.mem_cons.mp member with
    | inl same =>
      subst same
      exact ⟨early, List.mem_cons_self, first.1, first.2 tight⟩
    | inr later =>
      obtain ⟨found, there, grown⟩ := ih other later tight
      exact ⟨found, List.mem_cons_of_mem _ there, grown⟩

theorem apart_of_names {areas : Areas} {names : List Bytes} (named : areas.map Area.name = names) (apart : names.Pairwise Apart) :
    AllApart areas := by
  rw [← named] at apart
  exact List.pairwise_map.mp apart

theorem address_code : Function.Injective Address.get := fun _ _ => Saved.address_get_inj

theorem word_code : Function.Injective uint256ToBytes := by
  intro first second same
  have read := fromBigEndian256_bytes first
  rw [same, fromBigEndian256_bytes] at read
  exact (Except.ok.inj read).symm

theorem unpadded_code : Function.Injective fun value : Uint256 => unpadded value.toNat := by
  intro first second same
  have read := fromBigEndian256_unpadded first
  rw [show unpadded first.toNat = unpadded second.toNat from same, fromBigEndian256_unpadded] at read
  exact (Except.ok.inj read).symm

theorem behind_address {ι : Type} {code : ι → Bytes} (apart : Function.Injective code) :
    Function.Injective fun key : Address × ι => key.1.get ++ code key.2 := by
  intro first second same
  obtain ⟨left, right⟩ := List.append_inj same ((address_length first.1).trans (address_length second.1).symm)
  exact Prod.ext (address_code left) (apart right)

def allowanceCode (key : Address × Address) : Bytes := key.1.get ++ key.2.get

def ownedCode (key : Address × Uint256) : Bytes := key.1.get ++ uint256ToBytes key.2

def baseNames : List String := ["contractName_", "contractAddress_", "contractCreator_", "contractChainId_"]

def erc20Names : List String := ["name_", "symbol_", "decimals_", "totalSupply_", "balances_", "allowed_"]

def erc721Names : List String := ["name_", "symbol_", "owners_", "balances_", "tokenApprovals_", "operatorAddressApprovals_"]

def mintNames : List String :=
  ["tokenIdCounter_", "totalSupply_", "maxSupply_", "signer_", "_tokenBaseURI", "preBurnedTokens_", "burnedTokens_", "tokenIdRarity_",
    "tokenURI_", "_ownedTokens_", "_ownedTokensIndex_", "preburnedTokensByOwner_"]

def pairNames : List String :=
  ["factory_", "token0_", "token1_", "reserve0_", "reserve1_", "blockTimestampLast_", "price0CumulativeLast_", "price1CumulativeLast_", "kLast_"]

theorem pair_names_apart : ((baseNames ++ (pairNames ++ erc20Names)).map keyFromStr).Pairwise Apart := by decide +kernel

theorem mint_names_apart : ((baseNames ++ (mintNames ++ erc721Names)).map keyFromStr).Pairwise Apart := by decide +kernel

theorem registry_names_apart : ((baseNames ++ ["tokensAndBalances_", "feeTo_", "feeToSetter_", "allPairs_", "getPair_"]).map
    keyFromStr).Pairwise Apart := by
  decide +kernel

theorem apart_of_part {areas : Areas} {part whole : List String} (apart : (whole.map keyFromStr).Pairwise Apart) (fewer : part.Sublist whole)
    (named : areas.map Area.name = part.map keyFromStr) : AllApart areas :=
  apart_of_names named (apart.sublist (fewer.map keyFromStr))

theorem erc20_grown {loose : List Bytes} {before after : ERC20} (spread : Token.Spread before after) :
    List.Forall₂ (Grown loose) (erc20Areas before) (erc20Areas after) := by
  refine .cons (grown_one _ _) (.cons (grown_one _ _) (.cons (grown_one _ _) (.cons (grown_one _ _) (.cons ⟨rfl, fun _ => ?_⟩
    (.cons ⟨rfl, fun _ => ?_⟩ .nil)))))
  · exact Area.keys_items Address.get (fun _ => rfl) spread.balances
  · exact Area.keys_nestedItems allowanceCode (fun _ => rfl) spread.allowed

theorem erc20_single (token : ERC20) : ∀ area ∈ erc20Areas token, area.Single := by
  simp only [erc20Areas, List.forall_mem_cons]
  refine ⟨Area.single_one _ _, Area.single_one _ _, Area.single_one _ _, Area.single_one _ _, ?_, ?_, fun _ none => by cases none⟩
  · apply Area.single_items Address.get address_code
    exact fun _ => rfl
  · apply Area.single_nestedItems allowanceCode (behind_address address_code)
    exact fun _ => rfl

theorem erc20_durable : Durable ERC20.template (fun _ _ _ => True) erc20Areas [] fun token => token.allowed.Filled where
  apart _ _ _ := apart_of_part pair_names_apart ((List.sublist_append_right pairNames erc20Names).append_left baseNames) rfl
  stores := by
    rintro address token db _ ⟨walk, rfl⟩ _
    exact erc20_stores token walk
  single := fun _ => erc20_single _
  covers := fun _ area _ free => by cases free
  loads := fun filled _ entries => erc20_load filled entries
  new := by
    rintro token ⟨name, symbol, decimals, mintValue, creator, created⟩
    exact Token.create_filled created
  called := by
    rintro before after ⟨request, done⟩ filled
    exact (Token.call_spread done).allowed.filled filled
  grows := by
    rintro before after ⟨request, done⟩
    exact grown_mem (erc20_grown (Token.call_spread done))

theorem wrapper_larger {before after : ERC20Wrapper} (called : ERC20Wrapper.template.Called before after) :
    before.tokensAndBalances.Larger after.tokensAndBalances := by
  obtain ⟨self, vault, vault', request, done, rfl, rfl⟩ := called
  obtain ⟨answer, yields⟩ := Atomic.run_eq_ok.mp done
  exact Wrapper.perform_keeps request _ _ _ (.refl _) yields

theorem wrapper_grown {loose : List Bytes} {before after : ERC20Wrapper} (larger : before.tokensAndBalances.Larger after.tokensAndBalances) :
    List.Forall₂ (Grown loose) (wrapperAreas before) (wrapperAreas after) := by
  refine .cons ⟨rfl, fun _ => ?_⟩ .nil
  exact Area.keys_nestedItems (fun key : Address × Address => key.1.get) (fun _ => rfl) larger

theorem wrapper_single {wrapper : ERC20Wrapper} (lone : wrapper.tokensAndBalances.Lone) : ∀ area ∈ wrapperAreas wrapper, area.Single := by
  simp only [wrapperAreas, List.forall_mem_cons]
  refine ⟨?_, fun _ none => by cases none⟩
  apply Area.single_loneItems Address.get address_code
  · exact fun _ => rfl
  · exact lone

theorem wrapper_durable : Durable ERC20Wrapper.template ERC20Wrapper.Fine wrapperAreas [] fun wrapper => wrapper.tokensAndBalances.Filled where
  apart _ _ _ := apart_of_part registry_names_apart (((List.nil_sublist _).cons_cons "tokensAndBalances_").append_left baseNames) rfl
  stores := by
    rintro address wrapper db _ ⟨walk, rfl⟩ _
    exact wrapper_stores wrapper walk
  single := wrapper_single
  covers := fun _ area _ free => by cases free
  loads := fun filled _ entries => wrapper_load filled entries
  new := by
    rintro _ rfl
    exact Token.filled_default
  called := fun called filled => (wrapper_larger called).filled filled
  grows := fun called => grown_mem (wrapper_grown (wrapper_larger called))

def tokenCode (tokenId : Uint256) : Bytes := unpadded tokenId.toNat

theorem erc721_grown {loose : List Bytes} {before after : ERC721} (spread : Collectible.Spread before after) :
    List.Forall₂ (Grown loose) (erc721Areas before) (erc721Areas after) := by
  refine .cons (grown_one _ _) (.cons (grown_one _ _) (.cons ⟨rfl, fun _ => ?_⟩ (.cons ⟨rfl, fun _ => ?_⟩ (.cons ⟨rfl, fun _ => ?_⟩
    (.cons ⟨rfl, fun _ => ?_⟩ .nil)))))
  · exact Area.keys_items tokenCode (fun _ => rfl) spread.owners
  · exact Area.keys_items Address.get (fun _ => rfl) spread.balances
  · exact Area.keys_items tokenCode (fun _ => rfl) spread.tokenApprovals
  · exact Area.keys_nestedItems allowanceCode (fun _ => rfl) spread.operators

theorem erc721_single (token : ERC721) : ∀ area ∈ erc721Areas token, area.Single := by
  simp only [erc721Areas, List.forall_mem_cons]
  refine ⟨Area.single_one _ _, Area.single_one _ _, ?_, ?_, ?_, ?_, fun _ none => by cases none⟩
  · apply Area.single_items tokenCode unpadded_code
    exact fun _ => rfl
  · apply Area.single_items Address.get address_code
    exact fun _ => rfl
  · apply Area.single_items tokenCode unpadded_code
    exact fun _ => rfl
  · apply Area.single_nestedItems allowanceCode (behind_address address_code)
    exact fun _ => rfl

theorem erc721_durable : Durable ERC721.template (fun _ _ _ => True) erc721Areas [] fun token => token.operatorAddressApprovals.Filled where
  apart _ _ _ := apart_of_part mint_names_apart ((List.sublist_append_right mintNames erc721Names).append_left baseNames) rfl
  stores := by
    rintro address token db _ ⟨walk, rfl⟩ _
    exact erc721_stores token walk
  single := fun _ => erc721_single _
  covers := fun _ area _ free => by cases free
  loads := fun filled _ entries => erc721_load filled entries
  new := by
    rintro _ ⟨name, symbol, rfl⟩
    exact Token.filled_default
  called := by
    rintro before after ⟨request, done⟩ filled
    exact (Collectible.call_spread done).operators.filled filled
  grows := by
    rintro before after ⟨request, done⟩
    exact grown_mem (erc721_grown (Collectible.call_spread done))

/-- The pre-burned tokens are erased when they are burned. -/
def mintLoose : List Bytes := [preBurnedName]

theorem mint_grown {before after : ERC721Mint} (spread : Mint.Spread before after) :
    List.Forall₂ (Grown mintLoose) (mintAreas before) (mintAreas after) := by
  have free : preBurnedName ∈ mintLoose := List.mem_singleton_self _
  refine .cons (grown_one _ _) (.cons (grown_one _ _) (.cons (grown_one _ _) (.cons (grown_one _ _) (.cons (grown_one _ _)
    (.cons (grown_loose _ _ free) (.cons ⟨rfl, fun _ => ?_⟩ (.cons ⟨rfl, fun _ => ?_⟩ (.cons ⟨rfl, fun _ => ?_⟩
    (.cons ⟨rfl, fun _ => ?_⟩ (.cons ⟨rfl, fun _ => ?_⟩ (.cons ⟨rfl, fun _ => ?_⟩ (erc721_grown spread.toSpread))))))))))))
  · exact Area.keys_items uint256ToBytes (fun _ => rfl) spread.burnedTokens
  · exact Area.keys_items uint256ToBytes (fun _ => rfl) spread.tokenIdRarity
  · exact Area.keys_items uint256ToBytes (fun _ => rfl) spread.tokenURI
  · exact Area.keys_nestedItems ownedCode (fun _ => rfl) spread.ownedTokens
  · exact Area.keys_nestedItems ownedCode (fun _ => rfl) spread.ownedTokensIndex
  · exact Area.keys_items Address.get (fun _ => rfl) spread.preburnedTokensByOwner

theorem mint_single (token : ERC721Mint) : ∀ area ∈ mintAreas token, area.Single := by
  have own {ν : Type} [Inhabited ν] {name : Bytes} {entry : Uint256 × ν → Bytes × Bytes} {table : Table Uint256 ν}
      (keyed : ∀ item, (entry item).1 = uint256ToBytes item.1) : (Area.of name entry table.items).Single :=
    Area.single_items uint256ToBytes word_code keyed
  have owned {name : Bytes} {table : Table Address (Table Uint256 Uint256)} : (Area.of name ERC721Mint.ownedEntry table.nestedItems).Single := by
    apply Area.single_nestedItems ownedCode (behind_address word_code)
    exact fun _ => rfl
  rw [mintAreas, List.forall_mem_append]
  refine ⟨?_, erc721_single token.toERC721⟩
  simp only [List.forall_mem_cons]
  refine ⟨Area.single_one _ _, Area.single_one _ _, Area.single_one _ _, Area.single_one _ _, Area.single_one _ _, ?_, ?_, ?_, ?_, owned,
    owned, ?_, fun _ none => by cases none⟩
  · apply own
    exact fun _ => rfl
  · apply own
    exact fun _ => rfl
  · apply own
    exact fun _ => rfl
  · apply own
    exact fun _ => rfl
  · apply Area.single_items Address.get address_code
    exact fun _ => rfl

/-- What makes the contract readable, in terms of its keys. -/
theorem readable_called {before after : ERC721Mint} (called : ERC721Mint.template.Called before after) (readable : MintReadable before) :
    MintReadable after := by
  obtain ⟨around, request, done⟩ := called
  obtain ⟨spread, marked⟩ := Mint.call_spread done
  obtain ⟨preBurned, burned⟩ := marked ⟨readable.preBurned, readable.burned⟩
  exact {
    operators := spread.operators.filled readable.operators
    owned := spread.ownedTokens.filled readable.owned
    index := spread.ownedTokensIndex.filled readable.index
    preBurned := preBurned
    burned := burned }

theorem mint_apart (token : ERC721Mint) : AllApart (mintAreas token) :=
  apart_of_part mint_names_apart (List.sublist_append_right baseNames (mintNames ++ erc721Names)) rfl

/-- The pre-burned tokens, as a variable of the contract. -/
def preBurnedArea (token : ERC721Mint) : Area UInt8 Bytes := .of preBurnedName ERC721Mint.burnedEntry token.preBurnedTokens.items

theorem preBurnedArea_mem (token : ERC721Mint) : preBurnedArea token ∈ mintAreas token := by simp [mintAreas, preBurnedArea]

theorem preBurned_place {key : Bytes} :
    getNewPrefix address "preBurnedTokens_" ++ key = dbPrefix address ++ (preBurnedName ++ key) := by
  rw [← List.append_assoc]
  unfold getNewPrefix makeNewPrefix preBurnedName
  rfl

theorem mint_covers {address : Address} {token : ERC721Mint} {db : DB} (fit : ERC721Mint.Fine address token db) :
    Within db (dbPrefix address) (preBurnedArea token) := by
  intro key value found
  change db.lookup (dbPrefix address ++ (preBurnedName ++ key)) = some value at found
  rw [← preBurned_place] at found
  obtain ⟨tokenId, inside, same⟩ := fit key value found
  have item : (tokenId, token.preBurnedTokens.value tokenId) ∈ token.preBurnedTokens.items := ⟨inside, rfl⟩
  have keyed : (ERC721Mint.burnedEntry (tokenId, token.preBurnedTokens.value tokenId)).1 = key := same.symm
  exact ⟨_, Set.mem_image_of_mem ERC721Mint.burnedEntry item, keyed⟩

theorem mint_durable : Durable ERC721Mint.template ERC721Mint.Fine mintAreas mintLoose MintReadable where
  apart _ _ _ := apart_of_names rfl mint_names_apart
  stores := by
    rintro address token db _ ⟨walk, rfl⟩ _
    exact mint_stores token walk
  single := fun _ => mint_single _
  covers := by
    intro address token db fit area member free
    rw [eq_of_name (mint_apart token) member (preBurnedArea_mem token) (List.mem_singleton.mp free)]
    exact mint_covers fit
  loads := fun readable _ entries => mint_load readable entries
  new := by
    rintro _ ⟨name, symbol, maxSupply, signer, tokenBaseURI, rfl⟩
    refine ⟨Token.filled_default, Token.filled_default, Token.filled_default, ?_, ?_⟩
    · intro tokenId none
      cases none
    · intro tokenId none
      cases none
  called := readable_called
  grows := by
    rintro before after ⟨around, request, done⟩
    exact grown_mem (mint_grown (Mint.call_spread done).1)

theorem exchange_spreads {τ : Type} {as_ : DEXV2.Cast τ} {before after : τ} (called : ExchangeCalled as_ before after) :
    ∃ contract changed, as_.view contract = some before ∧ as_.view changed = some after ∧ Exchange.Spreads contract changed := by
  obtain ⟨world, world', request, address, done, here, there⟩ := called
  obtain ⟨contract, found, viewed⟩ := Markets.at_found here
  obtain ⟨changed, found', spreads⟩ := Exchange.call_wider done address contract found
  obtain ⟨other, again, viewed'⟩ := Markets.at_found there
  cases found'.symm.trans again
  exact ⟨contract, changed, viewed, viewed', spreads⟩

theorem factory_spreads {before after : DEXV2Factory} (called : DEXV2Factory.template.Called before after) :
    Exchange.FactorySpread before after := by
  obtain ⟨contract, changed, viewed, viewed', spreads⟩ := exchange_spreads called
  cases spreads with
  | factory spread =>
    cases viewed
    cases viewed'
    exact spread
  | erc20 | nativeWrapper | pair | router => cases viewed

theorem pair_spreads {before after : DEXV2Pair} (called : DEXV2Pair.template.Called before after) :
    Token.Spread before.toERC20 after.toERC20 := by
  obtain ⟨contract, changed, viewed, viewed', spreads⟩ := exchange_spreads called
  cases spreads with
  | pair spread =>
    cases viewed
    cases viewed'
    exact spread
  | erc20 | nativeWrapper | factory | router => cases viewed

theorem factory_grown {loose : List Bytes} {before after : DEXV2Factory} (spread : Exchange.FactorySpread before after) :
    List.Forall₂ (Grown loose) (factoryAreas before) (factoryAreas after) := by
  refine .cons (grown_one _ _) (.cons (grown_one _ _) (.cons ⟨rfl, fun _ => ?_⟩ (.cons ⟨rfl, fun _ => ?_⟩ .nil)))
  · rintro _ ⟨_, ⟨pair, member, rfl⟩, rfl⟩
    exact ⟨_, ⟨pair, spread.allPairs.subset member, rfl⟩, rfl⟩
  · exact Area.keys_nestedItems (fun key : Address × Address => key.1.get) (fun _ => rfl) spread.getPairs

theorem factory_single {factory : DEXV2Factory} (few : factory.allPairs.length ≤ 1) (lone : factory.getPairs.Lone) :
    ∀ area ∈ factoryAreas factory, area.Single := by
  simp only [factoryAreas, List.forall_mem_cons]
  refine ⟨Area.single_one _ _, Area.single_one _ _, ?_, ?_, fun _ none => by cases none⟩
  · apply Area.single_of
    intro first member second memberToo _
    cases pairs : factory.allPairs with
    | nil =>
      rw [pairs] at member
      cases member
    | cons pair rest =>
      rw [pairs] at few member memberToo
      obtain rfl : rest = [] := List.length_eq_zero_iff.mp (Nat.le_zero.mp (Nat.le_of_succ_le_succ few))
      rw [List.mem_singleton.mp member, List.mem_singleton.mp memberToo]
  · apply Area.single_loneItems Address.get address_code
    · exact fun _ => rfl
    · exact lone

theorem factory_durable : Durable DEXV2Factory.template DEXV2Factory.Fine factoryAreas [] fun factory => factory.getPairs.Filled where
  apart _ _ _ := apart_of_part registry_names_apart ((List.sublist_cons_self "tokensAndBalances_" _).append_left baseNames) rfl
  stores := by
    rintro address factory db _ ⟨walk, rfl⟩ _
    exact factory_stores factory walk
  single := fun fit => factory_single fit.1 fit.2
  covers := fun _ area _ free => by cases free
  loads := fun filled fit entries => factory_load filled fit.1 entries
  new := by
    rintro _ ⟨feeToSetter, rfl⟩
    exact Token.filled_default
  called := fun called filled => (factory_spreads called).getPairs.filled filled
  grows := fun called => grown_mem (factory_grown (factory_spreads called))

theorem pair_grown {loose : List Bytes} {before after : DEXV2Pair} (spread : Token.Spread before.toERC20 after.toERC20) :
    List.Forall₂ (Grown loose) (pairAreas before) (pairAreas after) :=
  .cons (grown_one _ _) (.cons (grown_one _ _) (.cons (grown_one _ _) (.cons (grown_one _ _) (.cons (grown_one _ _) (.cons (grown_one _ _)
    (.cons (grown_one _ _) (.cons (grown_one _ _) (.cons (grown_one _ _) (erc20_grown spread)))))))))

theorem pair_single (pair : DEXV2Pair) : ∀ area ∈ pairAreas pair, area.Single := by
  rw [pairAreas, List.forall_mem_append]
  refine ⟨?_, erc20_single pair.toERC20⟩
  simp only [List.forall_mem_cons]
  exact ⟨Area.single_one _ _, Area.single_one _ _, Area.single_one _ _, Area.single_one _ _, Area.single_one _ _, Area.single_one _ _,
    Area.single_one _ _, Area.single_one _ _, Area.single_one _ _, fun _ none => by cases none⟩

theorem pair_durable : Durable DEXV2Pair.template DEXV2Pair.Fine pairAreas [] fun pair => pair.allowed.Filled where
  apart _ _ _ := apart_of_names rfl pair_names_apart
  stores := by
    rintro address pair db _ ⟨walk, array0, array1, sizes, rfl⟩ large
    exact pair_stores pair walk sizes large
  single := fun _ => pair_single _
  covers := fun _ area _ free => by cases free
  loads := fun filled _ entries => pair_load filled entries
  new := by
    rintro pair ⟨creator, created⟩
    obtain ⟨token, made, rfl⟩ := build_eq_ok.mp created
    exact Token.create_filled made
  called := fun called filled => (pair_spreads called).allowed.filled filled
  grows := fun called => grown_mem (pair_grown (pair_spreads called))

variable {address : Address} {base : BaseContract} {db : DB}

theorem same_refl : SameUnder address db db := fun _ => rfl

theorem exists_tokenWalk (token : ERC20) : Nonempty token.Walk := by
  obtain ⟨balances, mem_balances⟩ := token.balances.exists_items
  obtain ⟨allowed, mem_allowed⟩ := token.allowed.exists_nestedItems
  exact ⟨{ balances, allowed, mem_balances, mem_allowed }⟩

def founded : BaseContract := { contractName := "Token", contractCreator := 7, contractChainId := 8080 }

theorem readUser_key {entry : Bytes × Bytes} {item : Address × Address × Uint256} (read : ERC20Wrapper.readUser entry = .ok item) :
    entry.1 = item.1.get := by
  obtain ⟨token, first, rest⟩ := bind_eq_ok.mp read
  obtain ⟨user, _, rest⟩ := bind_eq_ok.mp rest
  obtain ⟨balance, _, rfl⟩ := build_eq_ok.mp rest
  exact address_read.mp first

private theorem wrapper_load_lone {wrapper : ERC20Wrapper} (loaded : ERC20Wrapper.load db address = .ok wrapper) : wrapper.tokensAndBalances.Lone := by
  obtain ⟨items, read, rfl⟩ := build_eq_ok.mp loaded
  exact fillNested_lone read readUser_key

/-- Balances of two users in one token are written under one key. -/
theorem wrapper_lasts : ERC20Wrapper.template.Lasts ERC20Wrapper.Fine address base := by
  intro wrapper db lived
  constructor
  · intro survives
    obtain ⟨walk, walked⟩ := wrapper.tokensAndBalances.exists_nestedItems
    exact wrapper_load_lone (survives ⟨⟨walk, walked⟩, rfl⟩ same_refl).2
  · exact lived_survives wrapper_durable lived

/-- A wrapper to which some have brought ten of a token. -/
def brought (users : List Address) : ERC20Wrapper := ⟨.fillNested (users.map fun user => (2, user, 10))⟩

theorem second_user_is_lost : ¬ ERC20Wrapper.template.Survives 1 founded (brought [8, 9]) (founded.create 1 ∅) := by
  let vault (users) : ERC20Wrapper.Vault :=
    ⟨brought users, [(2, ⟨"", "", 18, 20, .fill [(8, 10), (9, 10)], .fillNested [(8, 1, 10), (9, 1, 10)]⟩)]⟩
  have first : ERC20Wrapper.template.Called (brought []) (brought [8]) := ⟨1, vault [], _, .deposit 8 2 10, rfl, rfl, rfl⟩
  have second : ERC20Wrapper.template.Called (brought [8]) (brought [8, 9]) := ⟨1, vault [8], _, .deposit 9 2 10, rfl, rfl, rfl⟩
  intro survives
  have lone := (wrapper_lasts (.call (.call (.start (fun _ => rfl) rfl) first) second)).mp survives
  exact absurd (lone 2 8 (by decide) 9 (by decide)) (by decide)

theorem readPair_key {entry : Bytes × Bytes} {item : Address × Address × Address} (read : DEXV2Factory.readPair entry = .ok item) :
    entry.1 = item.1.get := by
  obtain ⟨tokenA, first, rest⟩ := bind_eq_ok.mp read
  obtain ⟨tokenB, _, rest⟩ := bind_eq_ok.mp rest
  obtain ⟨pair, _, rfl⟩ := build_eq_ok.mp rest
  exact address_read.mp first

def listedKey : Bytes := uintToBytes 4 0

theorem factory_load_fine {factory : DEXV2Factory} (shaped : Shaped db (dbPrefix address) (keyFromStr "allPairs_") {listedKey})
    (loaded : DEXV2Factory.load db address = .ok factory) : factory.allPairs.length ≤ 1 ∧ factory.getPairs.Lone := by
  obtain ⟨feeTo, _, rest⟩ := bind_eq_ok.mp loaded
  obtain ⟨feeToSetter, _, rest⟩ := bind_eq_ok.mp rest
  obtain ⟨allPairs, listed, rest⟩ := bind_eq_ok.mp rest
  obtain ⟨getPairs, read, rfl⟩ := build_eq_ok.mp rest
  constructor
  · exact (mapM_length listed).trans_le (scan_of_shaped shaped)
  · exact fillNested_lone read readPair_key

/-- The pairs of the list, as a variable of the factory. -/
def listArea (factory : DEXV2Factory) : Area UInt8 Bytes :=
  .of (keyFromStr "allPairs_") DEXV2Factory.listedEntry {pair | pair ∈ factory.allPairs}

theorem listArea_keys (factory : DEXV2Factory) : (listArea factory).keys ⊆ {listedKey} := by
  rintro _ ⟨_, ⟨pair, _, rfl⟩, rfl⟩
  rfl

private theorem listArea_mem (factory : DEXV2Factory) : listArea factory ∈ factoryAreas factory := by simp [factoryAreas, listArea]

/-- All pairs are written under one key, and all pairs of one token as well. -/
theorem factory_lasts : DEXV2Factory.template.Lasts DEXV2Factory.Fine address base := by
  intro factory db lived
  constructor
  · intro survives
    obtain ⟨walk, walked⟩ := factory.getPairs.exists_nestedItems
    have stopped : DEXV2Factory.template.Saved address factory db (factory.save ⟨walk, walked⟩ address db) := ⟨_, rfl⟩
    have shaped := lived_shaped factory_durable listArea_mem (fun _ => rfl) listArea_keys lived
    obtain ⟨batch, writes, stored⟩ := @factory_stores db address factory ⟨walk, walked⟩
    have apart := (List.pairwise_append.mp (factory_durable.apart base address factory)).2.1
    have shaped := shaped_putAll writes apart (listArea_mem factory) (listArea_keys factory) shaped
    rw [← stored] at shaped
    exact factory_load_fine shaped (survives stopped same_refl).2
  · exact lived_survives factory_durable lived

/-- The chain is the factory's, as only then a creation that the factory asks for goes through. -/
def asked (token : Address) : PairSolvency.Call := ⟨⟨fun bytes => .ofNat 256 (bytesToUint bytes), 1, 1, 0⟩, 8, fun _ => 0, .createPair 1 2 token⟩

/-- An exchange after someone has asked for a pair of the token 2 with each of these. -/
def exchange (tokens : List Address) : DEXV2.World :=
  tokens.foldl (fun world token => (PairSolvency.call world (asked token)).toOption.getD world)
    { contracts := [(1, .factory { feeToSetter := 5 })], native := fun _ => 0 }

theorem second_pair_is_lost : ∃ factory, (exchange [3, 4]).at_ DEXV2.asFactory 1 = some factory ∧
    ¬ DEXV2Factory.template.Survives 1 founded factory (founded.create 1 ∅) := by
  refine ⟨_, rfl, fun survives => ?_⟩
  have first : DEXV2Factory.template.Called { feeToSetter := 5 } _ := ⟨exchange [], exchange [3], asked 3, 1, rfl, rfl, rfl⟩
  have second : DEXV2Factory.template.Called _ _ := ⟨exchange [3], exchange [3, 4], asked 4, 1, rfl, rfl, rfl⟩
  have few := (factory_lasts (.call (.call (.start (fun _ => rfl) ⟨5, rfl⟩) first) second)).mp survives
  exact absurd few.1 (by decide)

theorem preBurnedArea_keys (token : ERC721Mint) : (preBurnedArea token).keys ⊆ Set.range uint256ToBytes := by
  rintro _ ⟨_, ⟨item, _, rfl⟩, rfl⟩
  exact ⟨item.1, rfl⟩

theorem readBurned_tokenId {tokenId : Uint256} {value : Bytes} {item : Uint256 × BurnedToken}
    (read : ERC721Mint.readBurned (uint256ToBytes tokenId, value) = .ok item) : item.1 = tokenId := by
  obtain ⟨user, _, rest⟩ := bind_eq_ok.mp read
  obtain ⟨r, _, rest⟩ := bind_eq_ok.mp rest
  obtain ⟨s, _, rest⟩ := bind_eq_ok.mp rest
  obtain ⟨rarity, _, rest⟩ := bind_eq_ok.mp rest
  obtain ⟨found, number, rfl⟩ := build_eq_ok.mp rest
  exact (Except.ok.inj ((fromBigEndian256_bytes tokenId).symm.trans number)).symm

theorem mint_load_reads {token : ERC721Mint} (loaded : ERC721Mint.load db address = .ok token) {tokenId : Uint256} {value : Bytes}
    (found : db.lookup (dbPrefix address ++ (preBurnedName ++ uint256ToBytes tokenId)) = some value) :
    tokenId ∈ token.preBurnedTokens.keys := by
  simp only [ERC721Mint.load, bind_eq_ok, pure_eq_ok] at loaded
  obtain ⟨_, _, _, _, _, _, _, _, _, _, preBurned, read, _, _, _, _, _, _, _, _, _, _, _, _, rfl⟩ := loaded
  rw [← List.append_assoc] at found
  obtain ⟨item, member, decoded⟩ := mapM_mem read (mem_scan.mpr found)
  rw [← readBurned_tokenId decoded]
  exact Table.fill_keys member

theorem exists_mintWalk (token : ERC721Mint) : Nonempty token.Walk := by
  obtain ⟨owners, mem_owners⟩ := token.owners.exists_items
  obtain ⟨balances, mem_balances⟩ := token.balances.exists_items
  obtain ⟨tokenApprovals, mem_tokenApprovals⟩ := token.tokenApprovals.exists_items
  obtain ⟨operatorAddressApprovals, mem_operatorAddressApprovals⟩ := token.operatorAddressApprovals.exists_nestedItems
  obtain ⟨preBurnedTokens, mem_preBurnedTokens⟩ := token.preBurnedTokens.exists_items
  obtain ⟨burnedTokens, mem_burnedTokens⟩ := token.burnedTokens.exists_items
  obtain ⟨tokenIdRarity, mem_tokenIdRarity⟩ := token.tokenIdRarity.exists_items
  obtain ⟨tokenURI, mem_tokenURI⟩ := token.tokenURI.exists_items
  obtain ⟨ownedTokens, mem_ownedTokens⟩ := token.ownedTokens.exists_nestedItems
  obtain ⟨ownedTokensIndex, mem_ownedTokensIndex⟩ := token.ownedTokensIndex.exists_nestedItems
  obtain ⟨preburnedTokensByOwner, mem_preburnedTokensByOwner⟩ := token.preburnedTokensByOwner.exists_items
  exact ⟨{
    owners, balances, tokenApprovals, operatorAddressApprovals, preBurnedTokens, burnedTokens, tokenIdRarity, tokenURI, ownedTokens
    ownedTokensIndex, preburnedTokensByOwner, mem_owners, mem_balances, mem_tokenApprovals, mem_operatorAddressApprovals
    mem_preBurnedTokens, mem_burnedTokens, mem_tokenIdRarity, mem_tokenURI, mem_ownedTokens, mem_ownedTokensIndex
    mem_preburnedTokensByOwner }⟩

/-- Tokens that were pre-burned at an earlier save, and burned since, are pre-burned again. -/
theorem mint_lasts : ERC721Mint.template.Lasts ERC721Mint.Fine address base := by
  intro token db lived
  constructor
  · intro survives key value found
    obtain ⟨walk⟩ := exists_mintWalk token
    have loaded := (survives ⟨walk, rfl⟩ same_refl).2
    rw [preBurned_place] at found
    obtain ⟨tokenId, rfl⟩ := lived_shaped mint_durable preBurnedArea_mem (fun _ => rfl) preBurnedArea_keys lived key value found
    refine ⟨tokenId, ?_, rfl⟩
    by_contra erased
    have outside : uint256ToBytes tokenId ∉ (preBurnedArea token).keys := by
      rintro ⟨_, ⟨item, inside, rfl⟩, same⟩
      exact erased (word_code same ▸ inside.1)
    obtain ⟨batch, writes, stored⟩ := @mint_stores db address token walk
    have still := (lookup_putAll_of_outside writes (mint_apart token) (preBurnedArea_mem token) outside).trans found
    rw [← stored] at still
    exact erased (mint_load_reads loaded still)
  · exact lived_survives mint_durable lived

/-- A token is pre-burned, the contract saved and loaded, and the token burned. -/
theorem burned_token_returns : ∃ token db, ERC721Mint.template.Lived ERC721Mint.Fine 1 founded token db ∧
    token.preBurnedTokens.keys = ∅ ∧ ¬ ERC721Mint.template.Survives 1 founded token db := by
  let around : ERC721Mint.Surroundings := surroundings idleVm rangedCurve 8
  have new := @Template.Lived.start _ ERC721Mint.template ERC721Mint.Fine 1 founded unburned ∅ (fun _ => rfl) ⟨_, _, _, _, _, rfl⟩
  have half : ERC721Mint.template.Lived _ _ _ halfBurned _ := .call (.call new ⟨around, .mint 9 7, rfl⟩) ⟨around, .preBurn 9 0, rfl⟩
  have fine : ERC721Mint.Fine 1 halfBurned (founded.create 1 ∅) := by
    intro key value found
    rw [preBurned_place] at found
    have none : Shaped (founded.create 1 ∅) _ _ ∅ := shaped_new mint_durable (preBurnedArea_mem halfBurned) fun _ => rfl
    cases none key value found
  obtain ⟨walk⟩ := exists_mintWalk halfBurned
  have entries := (held_saved mint_durable (lived_held mint_durable half) fine ⟨walk, rfl⟩ same_refl).2 _ (preBurnedArea_mem _)
  obtain ⟨token, done⟩ : ∃ token, halfBurned.burn around 0 27 1 1 = .ok token := (burn_done_iff rfl (by decide)).mpr ⟨.inl rfl, rfl⟩
  have gone : token.preBurnedTokens.keys = ∅ := by
    rw [(burn_burns done).preBurned]
    decide
  have lived := Template.Lived.call (.restart half fine ⟨walk, rfl⟩ same_refl ((mint_lasts half).mpr fine ⟨walk, rfl⟩ same_refl).2)
    ⟨around, .burn 0 27 1 1, done⟩
  refine ⟨token, _, lived, gone, fun survives => ?_⟩
  have found := (entries _ _).mpr ⟨(0, halfBurned.preBurnedTokens.value 0), ⟨by decide, rfl⟩, rfl⟩
  rw [show (preBurnedArea halfBurned).name = preBurnedName from rfl, ← preBurned_place] at found
  obtain ⟨tokenId, inside, _⟩ := (mint_lasts lived).mp survives _ _ found
  rw [gone] at inside
  cases inside

private theorem writtenAreas_apart (pair : DEXV2Pair) (bytes0 bytes1 : Bytes) : AllApart (writtenAreas pair bytes0 bytes1) :=
  apart_of_part pair_names_apart (List.sublist_append_right baseNames (pairNames ++ erc20Names)) rfl

theorem written_get {pair : DEXV2Pair} {bytes0 bytes1 : Bytes} {saved : DB}
    (stored : Stores db (dbPrefix address) (writtenAreas pair bytes0 bytes1) saved) :
    saved.get (keyFromStr "reserve0_") (dbPrefix address) = bytes0 ∧ saved.get (keyFromStr "reserve1_") (dbPrefix address) = bytes1 := by
  obtain ⟨batch, writes, rfl⟩ := stored
  have apart := writtenAreas_apart pair bytes0 bytes1
  have first : .one (keyFromStr "reserve0_") bytes0 ∈ writtenAreas pair bytes0 bytes1 := by simp [writtenAreas]
  have second : .one (keyFromStr "reserve1_") bytes1 ∈ writtenAreas pair bytes0 bytes1 := by simp [writtenAreas]
  constructor
  · rw [DB.get, lookup_putAll_one writes apart first]
    rfl
  · rw [DB.get, lookup_putAll_one writes apart second]
    rfl

theorem uint112_bytes {bytes : Bytes} {value : Uint112} (read : bytesToUint112 bytes = .ok value) : bytes = uintToBytes 14 value.toNat := by
  unfold bytesToUint112 at read
  split at read
  case isTrue => cases read
  case isFalse size =>
    have power : (2 : Nat) ^ 112 = 256 ^ 14 := by norm_num
    rw [← Except.ok.inj read]
    exact (ByteStrings.bytes_ofBitVec power (not_not.mp size)).symm

theorem pair_load_reserves {pair : DEXV2Pair} (loaded : DEXV2Pair.load db address = .ok pair) :
    db.get (keyFromStr "reserve0_") (dbPrefix address) = uintToBytes 14 pair.reserve0.toNat ∧
      db.get (keyFromStr "reserve1_") (dbPrefix address) = uintToBytes 14 pair.reserve1.toNat := by
  simp only [DEXV2Pair.load, bind_eq_ok, pure_eq_ok] at loaded
  obtain ⟨_, _, _, _, _, _, _, _, _, first, _, second, _, _, _, _, _, _, _, _, rfl⟩ := loaded
  exact ⟨uint112_bytes first, uint112_bytes second⟩

theorem reserve_fills {reserve : Uint112}
    (always : ∀ array : Bytes, array.length = 14 → Codecs.uint112ToBytes array reserve = uintToBytes 14 reserve.toNat) :
    256 ^ 13 ≤ reserve.toNat :=
  (IntegerCodecs.copied_over_all_iff (lt_of_lt_of_eq reserve.isLt (by norm_num)) (by decide)).mp always

/-- Of a reserve that does not fill its array, what was in the memory before is saved as well. -/
theorem pair_lasts : DEXV2Pair.template.Lasts DEXV2Pair.Fine address base := by
  intro pair db lived
  constructor
  · intro survives
    obtain ⟨walk⟩ := exists_tokenWalk pair.toERC20
    have read {array0 array1 : Bytes} (size0 : array0.length = 14) (size1 : array1.length = 14) :
        Codecs.uint112ToBytes array0 pair.reserve0 = uintToBytes 14 pair.reserve0.toNat ∧
          Codecs.uint112ToBytes array1 pair.reserve1 = uintToBytes 14 pair.reserve1.toNat := by
      have loaded := (survives ⟨walk, array0, array1, ⟨size0, size1⟩, rfl⟩ same_refl).2
      obtain ⟨first, second⟩ := written_get (written_stores pair walk array0 array1)
      obtain ⟨first', second'⟩ := pair_load_reserves loaded
      exact ⟨first.symm.trans first', second.symm.trans second'⟩
    constructor
    · exact reserve_fills fun array size => (read size size).1
    · exact reserve_fills fun array size => (read size size).2
  · exact lived_survives pair_durable lived

theorem new_pair_is_lost : ∃ pair, DEXV2Pair.create 7 = .ok pair ∧
    ¬ DEXV2Pair.template.Survives 1 founded pair (founded.create 1 ∅) := by
  refine ⟨_, rfl, fun survives => ?_⟩
  have lived := @Template.Lived.start _ DEXV2Pair.template DEXV2Pair.Fine 1 founded _ ∅ (fun _ => rfl) ⟨7, rfl⟩
  exact absurd ((pair_lasts lived).mp survives).1 (by decide)

/-- Whatever is done to these tokens and however often they are loaded, nothing is lost. -/
theorem tokens_last : ERC20.template.Lasts (fun _ _ _ => True) address base ∧ ERC721.template.Lasts (fun _ _ _ => True) address base := by
  constructor
  · exact fun lived => iff_of_true (lived_survives erc20_durable lived trivial) trivial
  · exact fun lived => iff_of_true (lived_survives erc721_durable lived trivial) trivial

/-- A token of which 7 has paid something to 8 a few times. -/
def payments (values : List Uint256) : ERC20 :=
  values.foldl (fun token value => (token.transfer 7 8 value).toOption.getD token)
    ((ERC20.create "Token" "TKN" 18 1000 7).toOption.getD ⟨"", "", 0, 0, default, default⟩)

/-- Paid once, saved, loaded and paid once more. -/
theorem payments_last : ∃ db, ERC20.template.Lived (fun _ _ _ => True) 1 founded (payments [4, 5]) db ∧
    (payments [4, 5]).balanceOf 8 = 9 ∧ ERC20.template.Survives 1 founded (payments [4, 5]) db := by
  have new := @Template.Lived.start _ ERC20.template (fun _ _ _ => True) 1 founded (payments []) ∅ (fun _ => rfl)
    ⟨"Token", "TKN", 18, 1000, 7, rfl⟩
  have paid := @Template.Lived.call _ _ _ _ _ _ (payments [4]) _ new ⟨.transfer 7 8 4, rfl⟩
  obtain ⟨walk⟩ := exists_tokenWalk (payments [4])
  have loaded := ((tokens_last.1 paid).mpr trivial ⟨walk, rfl⟩ same_refl).2
  have again := @Template.Lived.call _ _ _ _ _ _ (payments [4, 5]) _ (.restart paid trivial ⟨walk, rfl⟩ same_refl loaded)
    ⟨.transfer 7 8 5, rfl⟩
  exact ⟨_, again, by decide, (tokens_last.1 again).mpr trivial⟩

end Proofs.TemplateSurvival
end OrbiterSDK
