import OrbiterSDK.Templates.ERC721
import Mathlib.Data.Set.Card

/-! Owners of tokens. An update moves one token, and the balances count how many tokens
each account owns. The checks of a transfer come after the update and read what the
update found, so they are as good as checks before it. -/

namespace OrbiterSDK.Proofs.TokenOwners
open Lib ERC721

variable {token after : ERC721} {target auth previous : Address} {tokenId : Uint256}

section Balances
variable {balances later : Table Address Uint256} {account : Address}

theorem leave_takes (done : leave balances account = .ok later) {other : Address} (someone : other ≠ 0) :
    (later.value other).toNat + (if other = account then 1 else 0) = (balances.value other).toNat := by
  unfold leave at done
  split at done
  case isTrue nobody =>
    cases done
    rw [if_neg fun same => someone (same.trans nobody), Nat.add_zero]
  case isFalse =>
    obtain ⟨rest, taken, same⟩ := bind_eq_ok.mp done
    have one := Uint256.sub_eq_ok.mp taken
    cases pure_eq_ok.mp same
    by_cases here : other = account
    · rw [here, Table.modify_value_self, if_pos rfl]
      exact one.symm
    · rw [Table.modify_value_of_ne _ _ here, if_neg here, Nat.add_zero]

theorem arrive_adds (done : arrive balances account = .ok later) {other : Address} (someone : other ≠ 0) :
    (later.value other).toNat = (balances.value other).toNat + if other = account then 1 else 0 := by
  unfold arrive at done
  split at done
  case isTrue nobody =>
    cases done
    rw [if_neg fun same => someone (same.trans nobody), Nat.add_zero]
  case isFalse =>
    obtain ⟨sum, added, same⟩ := bind_eq_ok.mp done
    have one := Uint256.add_eq_ok.mp added
    cases pure_eq_ok.mp same
    by_cases here : other = account
    · rw [here, Table.modify_value_self, if_pos rfl]
      exact one
    · rw [Table.modify_value_of_ne _ _ here, if_neg here, Nat.add_zero]

theorem leave_done (present : account = 0 ∨ 0 < (balances.value account).toNat) : ∃ later, leave balances account = .ok later := by
  unfold leave
  split
  case isTrue => exact ⟨_, rfl⟩
  case isFalse someone =>
    have positive : (1 : Uint256).toNat ≤ (balances.value account).toNat := present.resolve_left someone
    obtain ⟨rest, taken⟩ := Uint256.sub_done positive
    exact ⟨_, bind_eq_ok.mpr ⟨rest, taken, rfl⟩⟩

theorem arrive_done (fits : account ≠ 0 → (balances.value account).toNat + 1 < 2 ^ 256) :
    ∃ later, arrive balances account = .ok later := by
  unfold arrive
  split
  case isTrue => exact ⟨_, rfl⟩
  case isFalse someone =>
    have one : (balances.value account).toNat + (1 : Uint256).toNat < 2 ^ 256 := fits someone
    obtain ⟨sum, added⟩ := Uint256.add_done one
    exact ⟨_, bind_eq_ok.mpr ⟨sum, added, rfl⟩⟩

end Balances

theorem ownerOf_eq (token : ERC721) : token.ownerOf_ = token.owners.value := by
  funext tokenId
  exact token.owners.find_getD tokenId

private theorem getApproved_eq (token : ERC721) : token.getApproved_ = token.tokenApprovals.value := by
  funext tokenId
  exact token.tokenApprovals.find_getD tokenId

/-- What an update does. -/
structure Updated (token after : ERC721) (target : Address) (tokenId : Uint256) : Prop where
  owners : after.owners = token.owners.modify tokenId fun _ => target
  shift : ∀ account, account ≠ 0 →
    (after.balances.value account).toNat + (if account = token.ownerOf_ tokenId then 1 else 0) =
      (token.balances.value account).toNat + if account = target then 1 else 0
  cleared : token.ownerOf_ tokenId ≠ 0 → after.getApproved_ tokenId = 0

theorem checkAuthorized_eq_ok {owner spender : Address} :
    token.checkAuthorized_ owner spender tokenId = .ok () ↔ token.isAuthorized_ owner spender tokenId = true := by
  unfold checkAuthorized_
  by_cases authorized : token.isAuthorized_ owner spender tokenId = true
  · simp only [authorized, if_true]
  · simp only [authorized, Bool.false_eq_true, if_false, iff_false]
    intro impossible
    split at impossible <;> cases impossible

/-- The balances of an update, whatever was checked before it. -/
theorem moved_updates {between balances : Table Address Uint256}
    (left : leave token.balances (token.ownerOf_ tokenId) = .ok between) (arrived : arrive between target = .ok balances) :
    Updated token
      { token with
        tokenApprovals := if token.ownerOf_ tokenId = 0 then token.tokenApprovals else token.tokenApprovals.modify tokenId fun _ => 0
        balances
        owners := token.owners.modify tokenId fun _ => target } target tokenId where
  owners := rfl
  shift account someone := by
    have here := leave_takes left someone
    have there := arrive_adds arrived someone
    dsimp only
    omega
  cleared owned := by
    rw [getApproved_eq]
    dsimp only
    rw [if_neg owned]
    exact Table.modify_value_self _ _ _

theorem update_ok (done : token.update_ target tokenId auth = .ok (after, previous)) :
    previous = token.ownerOf_ tokenId ∧ Updated token after target tokenId ∧
      (auth ≠ 0 → token.isAuthorized_ previous auth tokenId = true) := by
  unfold update_ at done
  by_cases guarded : auth ≠ 0
  · simp only [if_pos guarded] at done
    obtain ⟨_, checked, rest⟩ := bind_eq_ok.mp done
    obtain ⟨between, left, rest⟩ := bind_eq_ok.mp rest
    obtain ⟨balances, arrived, same⟩ := bind_eq_ok.mp rest
    cases pure_eq_ok.mp same
    exact ⟨rfl, moved_updates left arrived, fun _ => checkAuthorized_eq_ok.mp checked⟩
  · simp only [if_neg guarded] at done
    obtain ⟨between, left, rest⟩ := bind_eq_ok.mp done
    obtain ⟨balances, arrived, same⟩ := bind_eq_ok.mp rest
    cases pure_eq_ok.mp same
    exact ⟨rfl, moved_updates left arrived, fun given => absurd given guarded⟩

theorem update_done (authorized : auth ≠ 0 → token.isAuthorized_ (token.ownerOf_ tokenId) auth tokenId = true)
    (present : token.ownerOf_ tokenId = 0 ∨ 0 < (token.balances.value (token.ownerOf_ tokenId)).toNat)
    (fits : ∀ between, leave token.balances (token.ownerOf_ tokenId) = .ok between → target ≠ 0 →
      (between.value target).toNat + 1 < 2 ^ 256) :
    ∃ after, token.update_ target tokenId auth = .ok (after, token.ownerOf_ tokenId) := by
  obtain ⟨between, left⟩ := leave_done present
  obtain ⟨balances, arrived⟩ := arrive_done (fits between left)
  unfold update_
  by_cases guarded : auth ≠ 0
  · simp only [if_pos guarded]
    have checked := checkAuthorized_eq_ok.mpr (authorized guarded)
    exact ⟨_, bind_eq_ok.mpr ⟨(), checked, bind_eq_ok.mpr ⟨between, left, bind_eq_ok.mpr ⟨balances, arrived, rfl⟩⟩⟩⟩
  · simp only [if_neg guarded]
    exact ⟨_, bind_eq_ok.mpr ⟨between, left, bind_eq_ok.mpr ⟨balances, arrived, rfl⟩⟩⟩

/-- What an entry counts for an account. -/
def share (account owner : Address) : ℕ := if owner = account then 1 else 0

/-- The tokens of an account, counted over the entries. -/
def owned (token : ERC721) (account : Address) : ℕ := token.owners.total (share account)

theorem owned_eq_ncard {account : Address} (someone : account ≠ 0) :
    owned token account = Set.ncard {tokenId | token.ownerOf_ tokenId = account} := by
  have tokens : {tokenId | token.ownerOf_ tokenId = account} =
      (token.owners.keys.filter fun tokenId => token.owners.value tokenId = account : Finset Uint256) := by
    ext tokenId
    simp only [Set.mem_ofPred_eq, Finset.coe_filter, ownerOf_eq]
    constructor
    · intro owns
      refine ⟨?_, owns⟩
      by_contra outside
      exact someone (owns.symm.trans (token.owners.absent tokenId outside))
    · rintro ⟨_, owns⟩
      exact owns
  rw [tokens, Set.ncard_coe_finset, Finset.card_filter]
  rfl

/-- The balances are right. -/
def Counted (token : ERC721) : Prop :=
  ∀ account, account ≠ 0 → (token.balances.value account).toNat = owned token account

theorem Updated.counted (updated : Updated token after target tokenId) (before : Counted token) : Counted after := by
  intro account someone
  have shift := updated.shift account someone
  have was := before account someone
  have nobody : share account default = 0 := if_neg fun same => someone same.symm
  have moved := Table.total_modify nobody token.owners tokenId fun _ => target
  unfold owned at was ⊢
  rw [updated.owners]
  rw [ownerOf_eq] at shift
  simp only [share, eq_comm] at shift moved was ⊢
  omega

theorem mint_ok (done : token.mint_ target tokenId = .ok after) :
    target ≠ 0 ∧ token.update_ target tokenId 0 = .ok (after, token.ownerOf_ tokenId) := by
  obtain ⟨someone, rest⟩ := guard_eq_ok.mp done
  obtain ⟨⟨updated, previous⟩, update, rfl⟩ := build_eq_ok.mp rest
  rw [← (update_ok update).1]
  exact ⟨someone, update⟩

theorem burn_ok (done : token.burn_ tokenId = .ok after) :
    token.ownerOf_ tokenId ≠ 0 ∧ token.update_ 0 tokenId 0 = .ok (after, token.ownerOf_ tokenId) := by
  obtain ⟨⟨updated, previous⟩, update, rest⟩ := bind_eq_ok.mp done
  rw [← (update_ok update).1]
  by_cases nobody : previous = 0
  · simp only [if_pos nobody] at rest
    cases rest
  · simp only [if_neg nobody] at rest
    cases pure_eq_ok.mp rest
    exact ⟨nobody, update⟩

theorem transferFrom_ok {caller source : Address} (done : token.transferFrom caller source target tokenId = .ok after) :
    target ≠ 0 ∧ token.ownerOf_ tokenId = source ∧ source ≠ 0 ∧ token.update_ target tokenId caller = .ok (after, source) := by
  obtain ⟨someone, rest⟩ := guard_eq_ok.mp done
  obtain ⟨⟨updated, previous⟩, update, rest⟩ := bind_eq_ok.mp rest
  have was := (update_ok update).1
  by_cases nobody : previous = 0
  · simp only [if_pos nobody] at rest
    cases rest
  · by_cases other : previous ≠ source
    · simp only [if_neg nobody, if_pos other] at rest
      cases rest
    · simp only [if_neg nobody, if_neg other] at rest
      cases pure_eq_ok.mp rest
      cases not_not.mp other
      exact ⟨someone, was.symm, nobody, update⟩

theorem approve_keeps {caller : Address} (done : token.approve caller target tokenId = .ok after) :
    after.owners = token.owners ∧ after.balances = token.balances := by
  obtain ⟨owner, _, rest⟩ := bind_eq_ok.mp done
  by_cases refused : caller ≠ 0 ∧ owner ≠ caller ∧ !token.isApprovedForAll owner caller
  · simp only [if_pos refused] at rest
    cases rest
  · simp only [if_neg refused] at rest
    cases pure_eq_ok.mp rest
    exact ⟨rfl, rfl⟩

theorem Counted.of_same (before : Counted token) (owners : after.owners = token.owners)
    (balances : after.balances = token.balances) : Counted after := by
  intro account someone
  unfold owned
  rw [owners, balances]
  exact before account someone

theorem call_counted (request : Call) (before : Counted token) (done : token.call request = .ok after) : Counted after := by
  cases request with
  | mint_ target tokenId => exact (update_ok (mint_ok done).2).2.1.counted before
  | burn_ tokenId => exact (update_ok (burn_ok done).2).2.1.counted before
  | transferFrom caller source target tokenId =>
    obtain ⟨_, _, _, update⟩ := transferFrom_ok done
    exact (update_ok update).2.1.counted before
  | approve caller target tokenId =>
    obtain ⟨owners, balances⟩ := approve_keeps done
    exact before.of_same owners balances
  | setApprovalForAll caller operatorAddress approved =>
    obtain ⟨_, same⟩ := guard_eq_ok.mp done
    cases same
    exact before.of_same rfl rfl

theorem reachable_counted (reachable : Reachable token) : Counted token := by
  apply reachable.keeps
  · intro token created
    obtain ⟨name, symbol, rfl⟩ := created
    intro account someone
    rfl
  · intro token request after before _ done
    exact call_counted request before done

theorem isAuthorized_cases {owner spender : Address} (authorized : token.isAuthorized_ owner spender tokenId = true) :
    spender = owner ∨ token.isApprovedForAll owner spender = true ∨ token.getApproved_ tokenId = spender := by
  unfold isAuthorized_ at authorized
  split at authorized
  case isTrue same => exact .inl same
  case isFalse =>
    split at authorized
    case isTrue => cases authorized
    case isFalse =>
      split at authorized
      case isTrue approved => exact .inr (.inl approved)
      case isFalse => exact .inr (.inr (of_decide_eq_true authorized))

/-- Balances count tokens, and a transfer by an account other than the zero address was
authorised, moved the token of its owner and cleared its approval. -/
theorem ownership_counted (reachable : Reachable token) :
    (∀ account, account ≠ 0 →
      (token.balances.value account).toNat = Set.ncard {tokenId | token.ownerOf_ tokenId = account}) ∧
    ∀ caller «from» «to» tokenId after, caller ≠ 0 → token.transferFrom caller «from» «to» tokenId = .ok after →
      (caller = «from» ∨ token.isApprovedForAll «from» caller = true ∨ token.getApproved_ tokenId = caller) ∧
      token.ownerOf_ tokenId = «from» ∧ «from» ≠ 0 ∧ «to» ≠ 0 ∧
      after.ownerOf_ = Function.update token.ownerOf_ tokenId «to» ∧ after.getApproved_ tokenId = 0 := by
  constructor
  · intro account someone
    rw [← owned_eq_ncard someone]
    exact reachable_counted reachable account someone
  · intro caller source target tokenId after given done
    obtain ⟨someone, owner, owned, update⟩ := transferFrom_ok done
    obtain ⟨_, updated, authorized⟩ := update_ok update
    refine ⟨isAuthorized_cases (authorized given), owner, owned, someone, ?_, updated.cleared (owner ▸ owned)⟩
    rw [ownerOf_eq, ownerOf_eq, updated.owners]
    rfl

/-- A token of account 1 that account 2 may move. -/
def approvedToken : ERC721 :=
  [.mint_ 1 7, .approve 1 2 7].foldl (attempt call) (create "Token" "TKN")

private theorem approvedToken_reachable : Reachable approvedToken :=
  Reached.foldl (fun _ _ => trivial) _ (.start ⟨"Token", "TKN", rfl⟩)

theorem approvedToken_counted :
    (approvedToken.balances.value 1).toNat = Set.ncard {tokenId | approvedToken.ownerOf_ tokenId = 1} ∧
    ∃ after, approvedToken.transferFrom 2 1 3 7 = .ok after ∧ after.getApproved_ 7 = 0 := by
  have counted := ownership_counted approvedToken_reachable
  refine ⟨counted.1 1 (by decide), _, rfl, ?_⟩
  exact (counted.2 2 1 3 7 _ (by decide) rfl).2.2.2.2.2

/-- An update without an account to check is not checked, so the zero address may move every token. -/
theorem zero_address_moves : Reachable approvedToken ∧
    (approvedToken.transferFrom 0 1 3 7).toOption.any (fun after => decide (after.ownerOf_ 7 = 3)) = true ∧
    approvedToken.isApprovedForAll 1 0 = false ∧ approvedToken.getApproved_ 7 = 2 :=
  ⟨Reached.foldl (fun _ _ => trivial) _ (.start ⟨"Token", "TKN", rfl⟩), by decide, by decide, by decide⟩

end OrbiterSDK.Proofs.TokenOwners
