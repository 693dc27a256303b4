import OrbiterSDK.Templates.ERC721Mint
import OrbiterSDK.Proofs.TokenOwners

/-! The lists that the minting contract keeps of its tokens. Only a mint writes them, under
the balance of the new owner, and the getter reads them by their keys. They are right as
long as one account has all tokens and keeps them. -/

namespace OrbiterSDK.Proofs.TokenLists
open Lib ERC721Mint TokenOwners

variable {around : Surroundings} {token after : ERC721Mint} {target : Address} {random : Uint256} {tokenId : Uint256}

/-- What a mint does. -/
structure Minted (token after : ERC721Mint) (target : Address) : Prop where
  room : token.tokenIdCounter < token.maxSupply
  someone : target ≠ 0
  updated : Updated token.toERC721 after.toERC721 target token.tokenIdCounter
  counter : after.tokenIdCounter.toNat = token.tokenIdCounter.toNat + 1
  supply : after.totalSupply.toNat = token.totalSupply.toNat + 1
  listed : after.ownedTokens = token.ownedTokens.modify target fun indices =>
    indices.modify (token.balances.value target) fun _ => token.tokenIdCounter
  preBurned : after.preBurnedTokens = token.preBurnedTokens
  burned : after.burnedTokens = token.burnedTokens
  byOwner : after.preburnedTokensByOwner = token.preburnedTokensByOwner
  rated : token.tokenIdRarity.keys ⊆ after.tokenIdRarity.keys

theorem balanceOf_eq_ok {balance : Uint256} :
    token.balanceOf target = .ok balance ↔ target ≠ 0 ∧ token.balances.value target = balance := by
  unfold ERC721.balanceOf
  rw [guard_eq_ok, Except.ok.injEq]
  exact and_congr_right fun _ => by rw [show (0 : Uint256) = default from rfl, Table.find_getD]

theorem ownerOf_eq_ok {token : ERC721} {owner : Address} :
    token.ownerOf tokenId = .ok owner ↔ token.ownerOf_ tokenId = owner ∧ owner ≠ 0 := by
  unfold ERC721.ownerOf
  rw [guard_eq_ok, Except.ok.injEq]
  constructor
  · rintro ⟨someone, same⟩
    exact ⟨same, same ▸ someone⟩
  · rintro ⟨same, someone⟩
    exact ⟨same ▸ someone, same⟩

theorem mint_minted (done : token.mint target random = .ok after) : Minted token after target := by
  obtain ⟨room, rest⟩ := guard_eq_ok.mp done
  obtain ⟨count, counted, rest⟩ := bind_eq_ok.mp rest
  obtain ⟨base, minted, rest⟩ := bind_eq_ok.mp rest
  obtain ⟨uri, _, rest⟩ := bind_eq_ok.mp rest
  obtain ⟨counter, next, rest⟩ := bind_eq_ok.mp rest
  obtain ⟨supply, more, rfl⟩ := build_eq_ok.mp rest
  obtain ⟨someone, update⟩ := mint_ok minted
  obtain ⟨_, rfl⟩ := balanceOf_eq_ok.mp counted
  exact {
    room := BitVec.not_le.mp room
    someone
    updated := (update_ok update).2.1
    counter := SafeUint.addAssign_eq_ok.mp next
    supply := SafeUint.addAssign_eq_ok.mp more
    listed := rfl
    preBurned := rfl
    burned := rfl
    byOwner := rfl
    rated := Finset.subset_insert _ _ }

theorem rarity_named (random : Uint256) : ∃ uri, getTokenRarity (rarityOf random) = .ok uri := by
  unfold rarityOf
  dsimp only
  split
  · exact ⟨"silver", rfl⟩
  · split
    · exact ⟨"gold", rfl⟩
    · exact ⟨"bronze", rfl⟩

theorem mint_done (room : token.tokenIdCounter < token.maxSupply) (someone : target ≠ 0)
    (new : token.ownerOf_ token.tokenIdCounter = 0) (fits : (token.balances.value target).toNat + 1 < 2 ^ 256)
    (supply : token.totalSupply.toNat + 1 < 2 ^ 256) : ∃ after, token.mint target random = .ok after := by
  obtain ⟨uri, named⟩ := rarity_named random
  have nobodyLeaves : ∀ between, ERC721.leave token.balances (token.ownerOf_ token.tokenIdCounter) = .ok between → target ≠ 0 →
      (between.value target).toNat + 1 < 2 ^ 256 := by
    intro between left _
    have taken := leave_takes left someone
    omega
  have unchecked : (0 : Address) ≠ 0 → token.isAuthorized_ (token.ownerOf_ token.tokenIdCounter) 0 token.tokenIdCounter = true :=
    fun given => absurd rfl given
  obtain ⟨base, updated⟩ := update_done unchecked (.inl new) nobodyLeaves
  have below : token.tokenIdCounter.toNat + (1 : Uint256).toNat < 2 ^ 256 := by
    have less := BitVec.lt_def.mp room
    have limit := token.maxSupply.isLt
    change token.tokenIdCounter.toNat + 1 < 2 ^ 256
    omega
  obtain ⟨next, counter⟩ := SafeUint.addAssign_done below
  have small : token.totalSupply.toNat + (1 : Uint256).toNat < 2 ^ 256 := supply
  obtain ⟨total, more⟩ := SafeUint.addAssign_done small
  have minted : token.toERC721.mint_ target token.tokenIdCounter = .ok base :=
    guard_eq_ok.mpr ⟨someone, bind_eq_ok.mpr ⟨_, updated, rfl⟩⟩
  have counted := balanceOf_eq_ok.mpr ⟨someone, (rfl : token.balances.value target = token.balances.value target)⟩
  exact ⟨_, guard_eq_ok.mpr ⟨BitVec.not_le.mpr room, bind_eq_ok.mpr ⟨_, counted, bind_eq_ok.mpr ⟨base, minted,
    bind_eq_ok.mpr ⟨uri, named, bind_eq_ok.mpr ⟨next, counter, bind_eq_ok.mpr ⟨total, more, rfl⟩⟩⟩⟩⟩⟩⟩

/-- What the lists are for. -/
structure Exact (token : ERC721Mint) : Prop where
  owned : ∀ user tokenId, tokenId ∈ token.getAllTokensOwnedByUser user ↔ token.ownerOf tokenId = .ok user
  preBurned : ∀ user tokenId, tokenId ∈ token.getPreburnedTokensByOwner user ↔
    (token.getPreBurned tokenId).exists_ = true ∧ (token.getPreBurned tokenId).user = user
  once : ∀ user, (token.getPreburnedTokensByOwner user).Nodup
  supply : token.totalSupply.toNat = Set.ncard {tokenId | token.ownerOf_ tokenId ≠ 0}
  apart : ∀ tokenId, ¬ ((token.getPreBurned tokenId).exists_ = true ∧ (token.getBurned tokenId).exists_ = true)

/-- One account has all tokens that there ever were. -/
structure Hoard (token : ERC721Mint) (holder : Address) : Prop where
  someone : holder ≠ 0
  owners : ∀ tokenId, token.ownerOf_ tokenId = if tokenId.toNat < token.tokenIdCounter.toNat then holder else 0
  balances : ∀ account, account ≠ 0 →
    (token.balances.value account).toNat = if account = holder then token.tokenIdCounter.toNat else 0
  listed : ∀ account index, index ∈ (token.ownedTokens.value account).keys ↔
    account = holder ∧ index.toNat < token.tokenIdCounter.toNat
  supply : token.totalSupply.toNat = token.tokenIdCounter.toNat
  preBurned : ∀ tokenId, (token.preBurnedTokens.value tokenId).exists_ = false
  byOwner : ∀ user, token.preburnedTokensByOwner.value user = []

theorem below_ncard {count : ℕ} (fits : count < 2 ^ 256) : Set.ncard {tokenId : Uint256 | tokenId.toNat < count} = count := by
  have range : {tokenId : Uint256 | tokenId.toNat < count} = (Finset.range count).image (BitVec.ofNat 256) := by
    ext tokenId
    simp only [Set.mem_ofPred_eq, Finset.coe_image, Set.mem_image, Finset.coe_range, Set.mem_Iio]
    constructor
    · intro below
      exact ⟨tokenId.toNat, below, BitVec.ofNat_toNat 256 tokenId ▸ BitVec.setWidth_eq tokenId⟩
    · rintro ⟨number, below, same⟩
      rw [← same, BitVec.toNat_ofNat, Nat.mod_eq_of_lt (below.trans fits)]
      exact below
  rw [range, Set.ncard_coe_finset, Finset.card_image_of_injOn, Finset.card_range]
  intro first firstIn second secondIn same
  have numbers := congrArg BitVec.toNat same
  simp only [Finset.coe_range, Set.mem_Iio] at firstIn secondIn
  rwa [BitVec.toNat_ofNat, BitVec.toNat_ofNat, Nat.mod_eq_of_lt (firstIn.trans fits),
    Nat.mod_eq_of_lt (secondIn.trans fits)] at numbers

theorem getAll_eq (token : ERC721Mint) (user : Address) : token.getAllTokensOwnedByUser user = (token.ownedTokens.value user).keys := by
  unfold getAllTokensOwnedByUser
  cases found : token.ownedTokens.find user with
  | none =>
    rw [Table.find_eq_none found]
    rfl
  | some userTokens => rw [(Table.find_eq_some found).2]

private theorem getByOwner_eq (token : ERC721Mint) (user : Address) :
    token.getPreburnedTokensByOwner user = token.preburnedTokensByOwner.value user :=
  token.preburnedTokensByOwner.find_getD user

private theorem getPreBurned_eq (token : ERC721Mint) (tokenId : Uint256) :
    token.getPreBurned tokenId = token.preBurnedTokens.value tokenId := token.preBurnedTokens.find_getD tokenId

section Hoards
variable {holder : Address} (hoard : Hoard token holder)
include hoard

theorem Hoard.exact : Exact token where
  owned user tokenId := by
    rw [getAll_eq, hoard.listed, ownerOf_eq_ok, hoard.owners]
    constructor
    · rintro ⟨same, below⟩
      rw [if_pos below, same]
      exact ⟨rfl, hoard.someone⟩
    · rintro ⟨owner, someone⟩
      by_cases below : tokenId.toNat < token.tokenIdCounter.toNat
      · rw [if_pos below] at owner
        exact ⟨owner.symm, below⟩
      · rw [if_neg below] at owner
        exact absurd owner.symm someone
  preBurned user tokenId := by
    rw [getByOwner_eq, hoard.byOwner, getPreBurned_eq, hoard.preBurned]
    simp
  once user := by
    rw [getByOwner_eq, hoard.byOwner]
    exact List.nodup_nil
  supply := by
    have existing : {tokenId | token.ownerOf_ tokenId ≠ 0} = {tokenId | tokenId.toNat < token.tokenIdCounter.toNat} := by
      ext tokenId
      simp only [Set.mem_ofPred_eq, hoard.owners]
      constructor
      · intro owned
        by_contra above
        exact owned (if_neg above)
      · intro below
        rw [if_pos below]
        exact hoard.someone
    rw [existing, below_ncard token.tokenIdCounter.isLt, hoard.supply]
  apart tokenId := by
    rintro ⟨present, _⟩
    rw [getPreBurned_eq, hoard.preBurned] at present
    cases present

theorem Hoard.other (none : token.tokenIdCounter.toNat = 0) {other : Address} (someone : other ≠ 0) : Hoard token other where
  someone
  owners tokenId := by
    rw [hoard.owners, none]
    simp
  balances account present := by
    rw [hoard.balances account present, none, ite_self, ite_self]
  listed account index := by
    rw [hoard.listed, none]
    simp
  supply := hoard.supply
  preBurned := hoard.preBurned
  byOwner := hoard.byOwner

/-- The holder gets one more token, whose identifier is the holder's balance. -/
theorem Hoard.minted (minted : Minted token after holder) : Hoard after holder := by
  have balance : (token.balances.value holder).toNat = token.tokenIdCounter.toNat := by
    rw [hoard.balances holder hoard.someone, if_pos rfl]
  have new : token.ownerOf_ token.tokenIdCounter = 0 := by
    rw [hoard.owners, if_neg (lt_irrefl _)]
  refine ⟨hoard.someone, ?_, ?_, ?_, ?_, ?_, ?_⟩
  · intro tokenId
    have was := hoard.owners tokenId
    rw [ownerOf_eq] at was ⊢
    rw [minted.updated.owners, minted.counter, Table.modify_value]
    by_cases same : tokenId = token.tokenIdCounter
    · rw [if_pos same, same, if_pos (Nat.lt_succ_self _)]
    · have apart : tokenId.toNat ≠ token.tokenIdCounter.toNat := fun numbers => same (BitVec.eq_of_toNat_eq numbers)
      rw [if_neg same, was]
      exact if_congr (by omega) rfl rfl
  · intro account present
    have shift := minted.updated.shift account present
    have was := hoard.balances account present
    rw [new, if_neg present] at shift
    rw [minted.counter]
    split_ifs at shift was ⊢ <;> omega
  · intro account index
    rw [minted.listed, minted.counter, Table.modify_value]
    by_cases same : account = holder
    · rw [if_pos same, Table.modify_keys, Finset.mem_insert, hoard.listed]
      have place : index = token.balances.value holder ↔ index.toNat = token.tokenIdCounter.toNat := by
        rw [← balance, BitVec.toNat_inj]
      rw [place]
      simp only [same, true_and]
      omega
    · rw [if_neg same, hoard.listed]
      simp only [same, false_and]
  · rw [minted.supply, minted.counter, hoard.supply]
  · rw [minted.preBurned]
    exact hoard.preBurned
  · rw [minted.byOwner]
    exact hoard.byOwner

/-- Functions of the base class that leave the owners and their balances as they are. -/
theorem Hoard.inherited {base : ERC721} (owners : base.ownerOf_ = token.ownerOf_)
    (balances : ∀ account, account ≠ 0 → base.balances.value account = token.balances.value account) :
    Hoard { token with toERC721 := base } holder where
  someone := hoard.someone
  owners tokenId := by
    dsimp only
    rw [owners]
    exact hoard.owners tokenId
  balances account present := by
    dsimp only
    rw [balances account present]
    exact hoard.balances account present
  listed := hoard.listed
  supply := hoard.supply
  preBurned := hoard.preBurned
  byOwner := hoard.byOwner

end Hoards

theorem inherited_ok {result : Except Exception ERC721} (done : token.inherited result = .ok after) :
    ∃ base, result = .ok base ∧ after = { token with toERC721 := base } := by
  obtain ⟨base, given, same⟩ := bind_eq_ok.mp done
  exact ⟨base, given, (pure_eq_ok.mp same).symm⟩

/-- What the first half of burning a token does. -/
structure PreBurned (token after : ERC721Mint) (caller : Address) (tokenId : Uint256) : Prop where
  owner : token.ownerOf tokenId = .ok caller
  updated : Updated token.toERC721 after.toERC721 0 tokenId
  counter : after.tokenIdCounter = token.tokenIdCounter
  ownedTokens : after.ownedTokens = token.ownedTokens
  marked : after.preBurnedTokens = token.preBurnedTokens.modify tokenId fun _ =>
    { exists_ := true, user := caller, rarity := token.tokenIdRarity.value tokenId }
  burned : after.burnedTokens = token.burnedTokens
  rated : after.tokenIdRarity.keys = insert tokenId token.tokenIdRarity.keys

theorem preBurn_marks {caller : Address} (done : token.preBurn caller tokenId = .ok after) :
    PreBurned token after caller tokenId := by
  obtain ⟨owner, owns, rest⟩ := bind_eq_ok.mp done
  by_cases other : owner ≠ caller
  · simp only [if_pos other] at rest
    cases rest
  · simp only [if_neg other] at rest
    obtain ⟨base, gone, rfl⟩ := build_eq_ok.mp rest
    exact ⟨not_not.mp other ▸ owns, (update_ok (burn_ok gone).2).2.1, rfl, rfl, rfl, rfl, rfl⟩

/-- What the second half does. -/
structure Burned (token after : ERC721Mint) (tokenId : Uint256) : Prop where
  marked : (token.preBurnedTokens.value tokenId).exists_ = true
  base : after.toERC721 = token.toERC721
  counter : after.tokenIdCounter = token.tokenIdCounter
  preBurned : after.preBurnedTokens = token.preBurnedTokens.erase tokenId
  burned : ∃ entry : BurnedToken, after.burnedTokens = token.burnedTokens.modify tokenId fun _ => entry
  rated : after.tokenIdRarity.keys = insert tokenId token.tokenIdRarity.keys

theorem burn_burns {v : UInt8} {r s : Hash} (done : token.burn around tokenId v r s = .ok after) :
    Burned token after tokenId := by
  unfold ERC721Mint.burn at done
  by_cases unmarked : (!(token.preBurnedTokens.value tokenId).exists_) = true
  · simp only [if_pos unmarked] at done
    cases done
  · simp only [if_neg unmarked] at done
    obtain ⟨text, _, rest⟩ := bind_eq_ok.mp done
    by_cases strange : v ≠ 27 ∧ v ≠ 28
    · simp only [if_pos strange] at rest
      cases rest
    · simp only [if_neg strange] at rest
      split at rest
      case isTrue => cases rest
      case isFalse =>
        cases pure_eq_ok.mp rest
        exact ⟨by simpa using unmarked, rfl, rfl, rfl, ⟨_, rfl⟩, rfl⟩

/-- What a call may be without leaving the lists wrong: mints go to an account that has all
tokens so far, and what would move or burn a token fails. -/
def Harmless (token : ERC721Mint) : Call → Prop
  | .mint «to» _ => «to» = 0 ∨ token.maxSupply ≤ token.tokenIdCounter ∨ token.balanceOf «to» = .ok token.tokenIdCounter
  | .preBurn caller tokenId => token.ownerOf tokenId ≠ .ok caller
  | .transferFrom caller «from» «to» tokenId =>
    «to» = 0 ∨ «from» = «to» ∨ token.ownerOf tokenId ≠ .ok «from» ∨ caller ≠ 0 ∧ token.isAuthorized_ «from» caller tokenId = false
  | .burn _ _ _ _ | .approve _ _ _ | .setApprovalForAll _ _ _ | .setBaseURI _ _ => True

section Steps
variable {holder : Address} (hoard : Hoard token holder)
include hoard

theorem transfer_home {base : ERC721} {caller source tokenId}
    (done : token.toERC721.transferFrom caller source source tokenId = .ok base) :
    Hoard { token with toERC721 := base } holder := by
  obtain ⟨_, owner, _, update⟩ := transferFrom_ok done
  obtain ⟨_, updated, _⟩ := update_ok update
  apply hoard.inherited
  · rw [ownerOf_eq, ownerOf_eq, updated.owners]
    rw [ownerOf_eq] at owner
    exact Function.update_eq_self_iff.mpr owner.symm
  · intro account present
    have shift := updated.shift account present
    rw [owner] at shift
    exact BitVec.eq_of_toNat_eq (Nat.add_right_cancel shift)

theorem harmless_keeps (request : Call) (harmless : Harmless token request)
    (done : token.call around request = .ok after) : ∃ next, Hoard after next := by
  cases request with
  | mint target random =>
    have minted := mint_minted done
    rcases harmless with nobody | full | balance
    · exact absurd nobody minted.someone
    · exact absurd minted.room (BitVec.not_lt.mpr full)
    · by_cases same : target = holder
      · rw [same] at minted
        exact ⟨holder, hoard.minted minted⟩
      · have nothing := hoard.balances target minted.someone
        rw [(balanceOf_eq_ok.mp balance).2, if_neg same] at nothing
        exact ⟨target, (hoard.other nothing minted.someone).minted minted⟩
  | preBurn caller tokenId => exact absurd (preBurn_marks done).owner harmless
  | burn tokenId v r s =>
    have marked := (burn_burns done).marked
    rw [hoard.preBurned] at marked
    cases marked
  | transferFrom caller source target tokenId =>
    obtain ⟨base, moved, rfl⟩ := inherited_ok done
    obtain ⟨someone, owner, owned, update⟩ := transferFrom_ok moved
    rcases harmless with nobody | home | other | refused
    · exact absurd nobody someone
    · cases home
      exact ⟨holder, transfer_home hoard moved⟩
    · exact absurd (ownerOf_eq_ok.mpr ⟨owner, owned⟩) other
    · have authorized := (update_ok update).2.2 refused.1
      rw [refused.2] at authorized
      cases authorized
  | approve caller target tokenId =>
    obtain ⟨base, approved, rfl⟩ := inherited_ok done
    obtain ⟨owners, balances⟩ := approve_keeps approved
    refine ⟨holder, hoard.inherited ?_ ?_⟩
    · rw [ownerOf_eq, ownerOf_eq, owners]
    · intro account _
      rw [balances]
  | setApprovalForAll caller operatorAddress approved =>
    obtain ⟨base, changed, rfl⟩ := inherited_ok done
    obtain ⟨_, same⟩ := guard_eq_ok.mp changed
    cases same
    exact ⟨holder, hoard.inherited rfl fun _ _ => rfl⟩
  | setBaseURI caller baseURI =>
    obtain ⟨_, same⟩ := guard_eq_ok.mp done
    cases same
    exact ⟨holder, ⟨hoard.someone, hoard.owners, hoard.balances, hoard.listed, hoard.supply, hoard.preBurned, hoard.byOwner⟩⟩

/-- A mint to someone else is listed under an identifier that the holder has. -/
theorem stray_mint {random : Uint256} (stray : ¬ Harmless token (.mint target random)) :
    ∃ after, token.mint target random = .ok after ∧ ¬ Exact after := by
  simp only [Harmless, not_or] at stray
  obtain ⟨someone, room, unequal⟩ := stray
  have unequal : token.balances.value target ≠ token.tokenIdCounter :=
    fun same => unequal (balanceOf_eq_ok.mpr ⟨someone, same⟩)
  have balance := hoard.balances target someone
  have apart : target ≠ holder := by
    intro same
    rw [if_pos same] at balance
    exact unequal (BitVec.eq_of_toNat_eq balance)
  rw [if_neg apart] at balance
  have positive : 0 < token.tokenIdCounter.toNat := by
    apply Nat.pos_of_ne_zero
    intro none
    exact unequal (BitVec.eq_of_toNat_eq (balance.trans none.symm))
  have free := BitVec.not_le.mp room
  have new : token.ownerOf_ token.tokenIdCounter = 0 := by
    rw [hoard.owners, if_neg (lt_irrefl _)]
  have fits : (token.balances.value target).toNat + 1 < 2 ^ 256 := by omega
  have supply : token.totalSupply.toNat + 1 < 2 ^ 256 := by
    have below := BitVec.lt_def.mp free
    have limit := token.maxSupply.isLt
    rw [hoard.supply]
    omega
  obtain ⟨after, done⟩ := mint_done free someone new fits supply
  refine ⟨after, done, fun exact_ => ?_⟩
  have minted := mint_minted done
  have listed : token.balances.value target ∈ after.getAllTokensOwnedByUser target := by
    rw [getAll_eq, minted.listed, Table.modify_value_self, Table.modify_keys]
    exact Finset.mem_insert_self _ _
  have owner := (ownerOf_eq_ok.mp ((exact_.owned target _).mp listed)).1
  have was := hoard.owners (token.balances.value target)
  rw [balance, if_pos positive] at was
  rw [ownerOf_eq, minted.updated.owners, Table.modify_value_of_ne _ _ unequal] at owner
  rw [ownerOf_eq] at was
  exact apart (owner.symm.trans was)

theorem Hoard.owner {owner : Address} (owns : token.ownerOf tokenId = .ok owner) :
    owner = holder ∧ 0 < (token.balances.value owner).toNat := by
  obtain ⟨same, someone⟩ := ownerOf_eq_ok.mp owns
  rw [hoard.owners] at same
  split at same
  case isTrue below =>
    refine ⟨same.symm, ?_⟩
    rw [hoard.balances owner someone, if_pos same.symm]
    exact Nat.zero_lt_of_lt below
  case isFalse => exact absurd same.symm someone

/-- A transfer is not entered into the list of the new owner. -/
theorem stray_transfer {caller source : Address}
    (stray : ¬ Harmless token (.transferFrom caller source target tokenId)) :
    ∃ after, token.inherited (token.toERC721.transferFrom caller source target tokenId) = .ok after ∧ ¬ Exact after := by
  simp only [Harmless, not_or, not_and, Bool.not_eq_false, not_not] at stray
  obtain ⟨someone, apart, owns, authorized⟩ := stray
  obtain ⟨rfl, present⟩ := hoard.owner owns
  obtain ⟨owner, _⟩ := ownerOf_eq_ok.mp owns
  have fits : ∀ between, ERC721.leave token.balances (token.ownerOf_ tokenId) = .ok between → target ≠ 0 →
      (between.value target).toNat + 1 < 2 ^ 256 := by
    intro between left _
    have taken := leave_takes left someone
    rw [hoard.balances target someone, if_neg (Ne.symm apart)] at taken
    omega
  rw [← owner] at authorized present
  obtain ⟨base, update⟩ := update_done authorized (.inr present) fits
  have moved : token.toERC721.transferFrom caller source target tokenId = .ok base := by
    rw [owner] at update
    refine guard_eq_ok.mpr ⟨someone, bind_eq_ok.mpr ⟨_, update, ?_⟩⟩
    simp only [if_neg hoard.someone, ne_eq, not_true_eq_false, if_false]
    rfl
  refine ⟨_, bind_eq_ok.mpr ⟨base, moved, rfl⟩, fun exact_ => ?_⟩
  have owned : base.ownerOf tokenId = .ok target := by
    rw [ownerOf_eq_ok, ownerOf_eq, (update_ok update).2.1.owners, Table.modify_value_self]
    exact ⟨rfl, someone⟩
  have listed := (exact_.owned target tokenId).mpr owned
  rw [getAll_eq] at listed
  exact apart ((hoard.listed target tokenId).mp listed).1.symm

/-- A token that is burned stays in the list of its owner. -/
theorem stray_preBurn {caller : Address} (stray : ¬ Harmless token (.preBurn caller tokenId)) :
    ∃ after, token.preBurn caller tokenId = .ok after ∧ ¬ Exact after := by
  have owns : token.ownerOf tokenId = .ok caller := not_not.mp stray
  obtain ⟨rfl, present⟩ := hoard.owner owns
  obtain ⟨owner, someone⟩ := ownerOf_eq_ok.mp owns
  have unchecked : (0 : Address) ≠ 0 → token.isAuthorized_ (token.ownerOf_ tokenId) 0 tokenId = true :=
    fun given => absurd rfl given
  rw [← owner] at present
  obtain ⟨base, update⟩ := update_done unchecked (.inr present) fun _ _ given => absurd rfl given
  have gone : token.toERC721.burn_ tokenId = .ok base := by
    rw [owner] at update
    refine bind_eq_ok.mpr ⟨_, update, ?_⟩
    simp only [if_neg someone]
    rfl
  have done : ∃ after, token.preBurn caller tokenId = .ok after := by
    cases result : token.preBurn caller tokenId with
    | ok after => exact ⟨after, rfl⟩
    | error what => simp [ERC721Mint.preBurn, owns, gone, bind, Except.bind, pure, Except.pure] at result
  obtain ⟨after, done⟩ := done
  refine ⟨after, done, fun exact_ => ?_⟩
  have marked := preBurn_marks done
  have listed : tokenId ∈ after.getAllTokensOwnedByUser caller := by
    rw [getAll_eq, marked.ownedTokens, ← getAll_eq]
    exact (hoard.exact.owned caller tokenId).mpr owns
  have owned := (ownerOf_eq_ok.mp ((exact_.owned caller tokenId).mp listed)).1
  rw [ownerOf_eq, marked.updated.owners, Table.modify_value_self] at owned
  exact someone owned.symm

end Steps

theorem new_hoard (new : New token) : ∃ holder, Hoard token holder := by
  obtain ⟨name, symbol, maxSupply, signer, tokenBaseURI, rfl⟩ := new
  refine ⟨1, by decide, ?_, ?_, ?_, rfl, fun _ => rfl, fun _ => rfl⟩
  · intro tokenId
    exact (if_neg (Nat.not_lt_zero _)).symm
  · intro account _
    exact (ite_self 0).symm
  · intro account index
    refine ⟨fun impossible => absurd impossible (Finset.notMem_empty index), fun ⟨_, below⟩ => ?_⟩
    exact absurd below (Nat.not_lt_zero _)

theorem stray_spoils {holder : Address} (request : Call) (hoard : Hoard token holder) (stray : ¬ Harmless token request) :
    ∃ after, token.call around request = .ok after ∧ ¬ Exact after := by
  cases request with
  | mint target random => exact stray_mint hoard stray
  | preBurn caller tokenId => exact stray_preBurn hoard stray
  | transferFrom caller source target tokenId => exact stray_transfer hoard stray
  | burn tokenId v r s => exact absurd trivial stray
  | approve caller target tokenId => exact absurd trivial stray
  | setApprovalForAll caller operatorAddress approved => exact absurd trivial stray
  | setBaseURI caller baseURI => exact absurd trivial stray

/-- While all calls are harmless the lists are exact, and the first one that is not spoils them. -/
theorem lists_exact_iff (reached : Reached (call around) New Harmless token) :
    Exact token ∧ ∀ request, Exact (attempt (call around) token request) ↔ Harmless token request := by
  have hoarded : ∃ holder, Hoard token holder := by
    apply reached.keeps
    · intro token new
      exact new_hoard new
    · intro token request after before harmless done
      obtain ⟨holder, hoard⟩ := before
      exact harmless_keeps hoard request harmless done
  obtain ⟨holder, hoard⟩ := hoarded
  refine ⟨hoard.exact, fun request => ?_⟩
  constructor
  · intro exact_
    by_contra stray
    obtain ⟨after, done, spoiled⟩ : ∃ after, token.call around request = .ok after ∧ ¬ Exact after := stray_spoils request hoard stray
    rw [attempt_ok done] at exact_
    exact spoiled exact_
  · intro harmless
    exact attempt_keeps hoard.exact fun after done =>
      let ⟨_, later⟩ := harmless_keeps hoard request harmless done
      later.exact

theorem erased_value {tokenId other : Uint256} (table : Table Uint256 BurnedToken) :
    (table.erase tokenId).value other = if other = tokenId then default else table.value other :=
  Function.update_apply _ _ _ _

def quiet : Surroundings where
  contractCreator := 9
  sha3 _ := 0
  secp := ⟨fun _ => none, fun _ _ => none, fun _ _ => none⟩

/-- Two tokens for one account. -/
def collection : ERC721Mint :=
  [.mint 1 0, .mint 1 0].foldl (attempt (call quiet)) (create "Token" "TKN" 10 8 "")

theorem collection_exact : Exact collection ∧
    (Exact (attempt (call quiet) collection (.mint 1 0)) ↔ Harmless collection (.mint 1 0)) := by
  have new : Reached (call quiet) New Harmless (create "Token" "TKN" 10 8 "") := .start ⟨"Token", "TKN", 10, 8, "", rfl⟩
  have one : Harmless (create "Token" "TKN" 10 8 "") (.mint 1 0) := .inr (.inr rfl)
  have two : Harmless (attempt (call quiet) (create "Token" "TKN" 10 8 "") (.mint 1 0)) (.mint 1 0) := .inr (.inr rfl)
  have exact_ := lists_exact_iff ((new.step (.mint 1 0) one).step (.mint 1 0) two)
  exact ⟨exact_.1, exact_.2 _⟩

/-- A token for each of two accounts, one of which burns its token. -/
def scattered : ERC721Mint :=
  [.mint 1 0, .mint 2 0, .preBurn 1 0].foldl (attempt (call quiet)) (create "Token" "TKN" 10 8 "")

/-- The second account has token 1 and is said to have token 0, which does not exist any more
but is counted. -/
theorem scattered_not_exact : Reached (call quiet) New (fun _ _ => True) scattered ∧
    scattered.ownerOf 1 = .ok 2 ∧ scattered.getAllTokensOwnedByUser 2 = {0} ∧ scattered.ownerOf_ 0 = 0 ∧
    scattered.totalSupply = 2 ∧ ¬ Exact scattered := by
  have owner : scattered.ownerOf 1 = .ok 2 := by decide
  have listed : scattered.getAllTokensOwnedByUser 2 = {0} := by decide
  refine ⟨Reached.foldl (fun _ _ => trivial) _ (.start ⟨"Token", "TKN", 10, 8, "", rfl⟩), owner, listed, by decide, by decide, ?_⟩
  intro exact_
  have inside := (exact_.owned 2 1).mpr owner
  rw [listed] at inside
  exact absurd inside (by decide)

end OrbiterSDK.Proofs.TokenLists
