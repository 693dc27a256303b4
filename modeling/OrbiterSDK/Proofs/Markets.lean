import OrbiterSDK.Proofs.DexCalls
import OrbiterSDK.Proofs.PairSteps

/-! A pair among the other contracts. Whatever contract is written to, the pair and its two
tokens stay what they are, and nobody but the pair itself takes tokens away from it. -/

namespace OrbiterSDK.Proofs.Markets
open Lib DEXV2 DexCalls TokenSupply PairSteps

/-- Nobody may spend what the holder has. -/
def Unapproved (holder : Address) (token : ERC20) : Prop := ∀ spender, token.allowance holder spender = 0

/-- What a call of someone else does to the holder. -/
structure Spares (holder : Address) (before after : ERC20) : Prop where
  unapproved : Unapproved holder after
  kept : (before.balanceOf holder).toNat ≤ (after.balanceOf holder).toNat

section Tokens
variable {holder caller source target account spender : Address} {amount : Uint256} {token after : ERC20}

theorem Unapproved.same (unapproved : Unapproved holder token) (same : after.allowed = token.allowed) : Unapproved holder after := by
  intro spender
  rw [allowance_eq, same, ← allowance_eq]
  exact unapproved spender

theorem grown_spares (unapproved : Unapproved holder token) (grown : Grown token after) : Spares holder token after :=
  ⟨unapproved.same grown.allowed, grown.kept holder⟩

theorem moved_kept (moved : Moved token.balanceOf after.balanceOf source target amount) (free : holder = source → amount = 0) :
    (token.balanceOf holder).toNat ≤ (after.balanceOf holder).toNat := by
  have shift := moved.shift holder
  by_cases paying : holder = source
  · have zero : amount.toNat = 0 := congrArg BitVec.toNat (free paying)
    rw [zero, ite_self, ite_self] at shift
    omega
  · rw [if_neg paying] at shift
    omega

theorem transfer_spares (unapproved : Unapproved holder token) (apart : caller ≠ holder)
    (done : token.transfer caller target amount = .ok after) : Spares holder token after := by
  obtain ⟨moved, _, allowed⟩ := transfer_moves done
  exact ⟨unapproved.same allowed, moved_kept moved fun same => absurd same.symm apart⟩

theorem transferFrom_spares (unapproved : Unapproved holder token) (done : token.transferFrom caller source target amount = .ok after) :
    Spares holder token after := by
  obtain ⟨moved, _, allowed, lowered⟩ := transferFrom_moves done
  constructor
  · intro spender
    apply BitVec.eq_of_toNat_eq
    have before : (token.allowance holder spender).toNat = 0 := congrArg BitVec.toNat (unapproved spender)
    have bound := lowered holder spender
    change (after.allowance holder spender).toNat = 0
    omega
  · apply moved_kept moved
    intro same
    subst same
    have nothing : (token.allowance holder caller).toNat = 0 := congrArg BitVec.toNat (unapproved caller)
    apply BitVec.eq_of_toNat_eq
    change amount.toNat = 0
    omega

private theorem approve_allowance (token : ERC20) (apart : caller ≠ holder) (other : Address) :
    (token.approve caller spender amount).allowance holder other = token.allowance holder other := by
  rw [allowance_eq, allowance_eq]
  simp only [ERC20.approve, Table.modify_value_of_ne _ _ (Ne.symm apart)]

theorem approve_spares (unapproved : Unapproved holder token) (apart : caller ≠ holder) :
    Spares holder token (token.approve caller spender amount) := by
  constructor
  · intro other
    rw [approve_allowance token apart]
    exact unapproved other
  · exact Nat.le_refl _

theorem burn_spares (unapproved : Unapproved holder token) (apart : account ≠ holder)
    (done : token.burnValue_ account amount = .ok after) : Spares holder token after := by
  obtain ⟨debited, _, allowed⟩ := burn_takes done
  refine ⟨unapproved.same allowed, ?_⟩
  have taken := (debit_takes debited).2 holder
  rw [if_neg (Ne.symm apart)] at taken
  rw [balanceOf_eq, balanceOf_eq]
  omega

theorem Spares.refl (unapproved : Unapproved holder token) : Spares holder token token := ⟨unapproved, Nat.le_refl _⟩

theorem Spares.trans {between : ERC20} (first : Spares holder token between) (second : Spares holder between after) :
    Spares holder token after := ⟨second.unapproved, first.kept.trans second.kept⟩

end Tokens

section Views
variable {world : World} {address : Address}

theorem at_put {τ σ : Type} (as_ : Cast τ) (as_' : Cast σ) (value : τ) : (world.put as_ address value).at_ as_' address =
    (world.contracts.find address).bind fun contract => as_'.view (as_.write value contract) := by
  unfold World.at_ World.put
  simp only [Registry.find_update_self]
  cases world.contracts.find address with
  | none => rfl
  | some contract => rfl

theorem at_found {τ : Type} {as_ : Cast τ} {value : τ} (known : world.at_ as_ address = some value) :
    ∃ contract, world.contracts.find address = some contract ∧ as_.view contract = some value := by
  unfold World.at_ at known
  cases found : world.contracts.find address with
  | none =>
    rw [found] at known
    cases known
  | some contract =>
    rw [found] at known
    exact ⟨contract, rfl, known⟩

theorem pair_shares {pair : DEXV2Pair} (isPair : world.at_ asPair address = some pair) :
    world.at_ asERC20 address = some pair.toERC20 := by
  obtain ⟨contract, found, viewed⟩ := at_found isPair
  unfold World.at_
  rw [found]
  cases contract with
  | pair given =>
    cases viewed
    rfl
  | erc20 | nativeWrapper | factory | router => cases viewed

theorem shares_put_pair {old pair : DEXV2Pair} (isPair : world.at_ asPair address = some old) :
    (world.put asPair address pair).at_ asERC20 address = some pair.toERC20 := pair_shares (at_put_self isPair)

theorem pair_put_shares {pair : DEXV2Pair} {token : ERC20} (isPair : world.at_ asPair address = some pair) :
    (world.put asERC20 address token).at_ asPair address = some { pair with toERC20 := token } := by
  obtain ⟨contract, found, viewed⟩ := at_found isPair
  rw [at_put, found]
  cases contract with
  | pair given =>
    cases viewed
    rfl
  | erc20 | nativeWrapper | factory | router => cases viewed

theorem wrapper_token {token : ERC20} (isWrapper : world.at_ asNativeWrapper address = some token) :
    world.at_ asERC20 address = some token ∧ world.at_ asPair address = none := by
  obtain ⟨contract, found, viewed⟩ := at_found isWrapper
  unfold World.at_
  rw [found]
  cases contract with
  | nativeWrapper given => exact ⟨viewed, rfl⟩
  | erc20 | pair | factory | router => cases viewed

theorem factory_other {factory : DEXV2Factory} (isFactory : world.at_ asFactory address = some factory) :
    world.at_ asERC20 address = none ∧ world.at_ asPair address = none := by
  obtain ⟨contract, found, viewed⟩ := at_found isFactory
  unfold World.at_
  rw [found]
  cases contract with
  | factory given => exact ⟨rfl, rfl⟩
  | erc20 | nativeWrapper | pair | router => cases viewed

theorem token_not_factory {token : ERC20} (isToken : world.at_ asERC20 address = some token) : world.at_ asFactory address = none := by
  cases found : world.at_ asFactory address with
  | none => rfl
  | some factory =>
    rw [(factory_other found).1] at isToken
    cases isToken

end Views

/-- The addresses of a pair and of its tokens. -/
structure Market where
  pair : Address
  token0 : Address
  token1 : Address
  apart : token0 ≠ token1
  apart0 : token0 ≠ pair
  apart1 : token1 ≠ pair

/-- The pair and its tokens are there, and nobody may spend what the pair has. -/
structure Placed (market : Market) (world : World) (pair : DEXV2Pair) (first second : ERC20) : Prop where
  here : world.at_ asPair market.pair = some pair
  token0 : pair.token0 = market.token0
  token1 : pair.token1 = market.token1
  first : world.at_ asERC20 market.token0 = some first
  second : world.at_ asERC20 market.token1 = some second
  unapproved : ∀ token contract, world.at_ asERC20 token = some contract → Unapproved market.pair contract

/-- One token is written, and no other contract. -/
structure Written (world after : World) (address : Address) (token : ERC20) : Prop where
  token : after.at_ asERC20 address = some token
  others : ∀ {τ : Type} (as_ : Cast τ) other, other ≠ address → after.at_ as_ other = world.at_ as_ other

variable {market : Market} {world after : World} {pair changed : DEXV2Pair} {first second old new : ERC20} {address : Address}

theorem token_written (known : world.at_ asERC20 address = some old) : Written world (world.put asERC20 address new) address new :=
  ⟨at_put_self known, fun as_ _ apart => at_put_of_ne as_ apart⟩

theorem wrapper_written (known : world.at_ asNativeWrapper address = some old) :
    Written world (world.put asNativeWrapper address new) address new :=
  ⟨(wrapper_token (at_put_self known)).1, fun as_ _ apart => at_put_of_ne as_ apart⟩

theorem pair_written (known : world.at_ asPair address = some pair) :
    Written world (world.put asPair address changed) address changed.toERC20 :=
  ⟨shares_put_pair known, fun as_ _ apart => at_put_of_ne as_ apart⟩

theorem Placed.written (placed : Placed market world pair first second) (written : Written world after address new)
    (unapproved : Unapproved market.pair new) (here : after.at_ asPair market.pair = some changed) (places : SamePlaces pair changed) :
    Placed market after changed (if market.token0 = address then new else first) (if market.token1 = address then new else second) := by
  have look : ∀ {token contract}, world.at_ asERC20 token = some contract →
      after.at_ asERC20 token = some (if token = address then new else contract) := by
    intro token contract known
    by_cases same : token = address
    · rw [if_pos same, same]
      exact written.token
    · rw [if_neg same, written.others _ _ same]
      exact known
  refine ⟨here, places.token0.trans placed.token0, places.token1.trans placed.token1, look placed.first, look placed.second, ?_⟩
  intro token contract known
  by_cases same : token = address
  · rw [same, written.token] at known
    cases known
    exact unapproved
  · rw [written.others _ _ same] at known
    exact placed.unapproved token contract known

/-- The pair where a token is written: its shares, if it is that token. -/
theorem Placed.pair_after (placed : Placed market world pair first second) (known : world.at_ asERC20 address = some old)
    (done : after = world.put asERC20 address new) :
    ∃ changed, after.at_ asPair market.pair = some changed ∧ SamePool pair changed ∧
      changed = if market.pair = address then { pair with toERC20 := new } else pair := by
  subst done
  by_cases same : market.pair = address
  · subst same
    exact ⟨_, pair_put_shares placed.here, ⟨⟨rfl, rfl, rfl⟩, rfl, rfl⟩, (if_pos rfl).symm⟩
  · exact ⟨pair, (at_put_of_ne _ same).trans placed.here, .refl pair, (if_neg same).symm⟩

/-- The reserves are there. -/
structure Covered (market : Market) (pair : DEXV2Pair) (first second : ERC20) : Prop where
  first : pair.reserve0.toNat ≤ (first.balanceOf market.pair).toNat
  second : pair.reserve1.toNat ≤ (second.balanceOf market.pair).toNat

/-- A write that spares the pair keeps its tokens as they are, or makes them more. -/
theorem Placed.spared (placed : Placed market world pair first second) (known : world.at_ asERC20 address = some old)
    (written : Written world after address new) (spares : Spares market.pair old new)
    (here : after.at_ asPair market.pair = some changed) (places : SamePlaces pair changed) :
    ∃ first' second', Placed market after changed first' second' ∧
      (first.balanceOf market.pair).toNat ≤ (first'.balanceOf market.pair).toNat ∧
      (second.balanceOf market.pair).toNat ≤ (second'.balanceOf market.pair).toNat := by
  refine ⟨_, _, placed.written written spares.unapproved here places, ?_, ?_⟩
  · split
    case isTrue same =>
      cases (same ▸ placed.first).symm.trans known
      exact spares.kept
    case isFalse => exact Nat.le_refl _
  · split
    case isTrue same =>
      cases (same ▸ placed.second).symm.trans known
      exact spares.kept
    case isFalse => exact Nat.le_refl _

end OrbiterSDK.Proofs.Markets
