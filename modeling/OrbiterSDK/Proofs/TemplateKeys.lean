import OrbiterSDK.Lib.Areas
import OrbiterSDK.Proofs.PairSolvency
import OrbiterSDK.Templates.ERC20Wrapper
import OrbiterSDK.Templates.ERC721Mint

/-! Which keys the maps of the contracts have: calls add some, and only the pre-burned tokens are ever erased. -/

namespace OrbiterSDK.Proofs.TemplateKeys
open Lib Atomic

namespace Token
open ERC20

/-- No entry is lost. -/
structure Spread (before after : ERC20) : Prop where
  balances : before.balances.keys ⊆ after.balances.keys
  allowed : before.allowed.Larger after.allowed

variable {token after : ERC20} {account caller spender source target : Address} {value : Uint256} {balances changed : Table Address Uint256}
variable {around : Around}

theorem Spread.refl (token : ERC20) : Spread token token := ⟨subset_rfl, .refl _⟩

theorem Spread.trans {first second third : ERC20} (early : Spread first second) (late : Spread second third) : Spread first third :=
  ⟨early.balances.trans late.balances, early.allowed.trans late.allowed⟩

theorem credit_keys (done : credit balances account value = .ok changed) : changed.keys = insert account balances.keys := by
  obtain ⟨sum, _, rfl⟩ := build_eq_ok.mp done
  exact Table.modify_keys _ _ _

theorem debit_keys (done : debit balances account value = .ok changed) : changed.keys = insert account balances.keys := by
  obtain ⟨rest, _, rfl⟩ := build_eq_ok.mp done
  exact Table.modify_keys _ _ _

theorem paid_keys {between : Table Address Uint256} (out : debit balances source value = .ok between)
    (in_ : credit between target value = .ok changed) : balances.keys ⊆ changed.keys := by
  rw [credit_keys in_, debit_keys out]
  exact (Finset.subset_insert _ _).trans (Finset.subset_insert _ _)

theorem mint_spread (done : token.mintValue_ account value = .ok after) : Spread token after := by
  obtain ⟨balances, credited, rest⟩ := bind_eq_ok.mp done
  obtain ⟨supply, _, rfl⟩ := build_eq_ok.mp rest
  refine ⟨?_, .refl _⟩
  rw [credit_keys credited]
  exact Finset.subset_insert _ _

theorem burn_spread (done : token.burnValue_ account value = .ok after) : Spread token after := by
  obtain ⟨balances, debited, rest⟩ := bind_eq_ok.mp done
  obtain ⟨supply, _, rfl⟩ := build_eq_ok.mp rest
  refine ⟨?_, .refl _⟩
  rw [debit_keys debited]
  exact Finset.subset_insert _ _

theorem transfer_spread (done : token.transfer caller target value = .ok after) : Spread token after := by
  obtain ⟨between, out, rest⟩ := bind_eq_ok.mp done
  obtain ⟨balances, in_, rfl⟩ := build_eq_ok.mp rest
  exact ⟨paid_keys out in_, .refl _⟩

theorem approve_spread (token : ERC20) : Spread token (token.approve caller spender value) :=
  ⟨subset_rfl, Table.larger_entry _ _ _ _⟩

theorem transferFrom_spread (done : token.transferFrom caller source target value = .ok after) : Spread token after := by
  obtain ⟨spenders, allowed, rest⟩ := bind_eq_ok.mp done
  obtain ⟨between, out, rest⟩ := bind_eq_ok.mp rest
  obtain ⟨balances, in_, rfl⟩ := build_eq_ok.mp rest
  have keys := debit_keys allowed
  have larger : token.allowed.Larger (token.allowed.modify source fun _ => spenders) := by
    apply Table.larger_modify
    · rw [keys]
      exact Finset.subset_insert _ _
    · rw [keys]
      exact Finset.insert_nonempty _ _
  exact ⟨paid_keys out in_, larger⟩

theorem call_spread {request : ERC20.Call} (done : token.call request = .ok after) : Spread token after := by
  cases request with
  | transfer => exact transfer_spread done
  | approve =>
    cases done
    exact approve_spread token
  | transferFrom => exact transferFrom_spread done
  | mintValue_ => exact mint_spread done
  | burnValue_ => exact burn_spread done

theorem filled_default {κ ι ν : Type} [Inhabited ν] : (default : Table κ (Table ι ν)).Filled := by
  intro key inside
  cases inside

theorem create_filled {name symbol : String} {decimals : UInt8} (done : create name symbol decimals value account = .ok token) :
    token.allowed.Filled := (mint_spread done).allowed.filled filled_default

end Token

namespace Collectible
open ERC721

structure Spread (before after : ERC721) : Prop where
  owners : before.owners.keys ⊆ after.owners.keys
  balances : before.balances.keys ⊆ after.balances.keys
  tokenApprovals : before.tokenApprovals.keys ⊆ after.tokenApprovals.keys
  operators : before.operatorAddressApprovals.Larger after.operatorAddressApprovals

variable {token after : ERC721} {caller source target auth owner : Address} {tokenId : Uint256} {balances changed : Table Address Uint256}

theorem leave_keys (done : leave balances source = .ok changed) : balances.keys ⊆ changed.keys := by
  unfold leave at done
  split at done
  · cases done
    exact subset_rfl
  · obtain ⟨rest, _, rfl⟩ := build_eq_ok.mp done
    rw [Table.modify_keys]
    exact Finset.subset_insert _ _

theorem arrive_keys (done : arrive balances target = .ok changed) : balances.keys ⊆ changed.keys := by
  unfold arrive at done
  split at done
  · cases done
    exact subset_rfl
  · obtain ⟨sum, _, rfl⟩ := build_eq_ok.mp done
    rw [Table.modify_keys]
    exact Finset.subset_insert _ _

theorem moved_spread {approvals : Table Uint256 Address} (kept : token.tokenApprovals.keys ⊆ approvals.keys)
    (done : (do
      let balances ← leave token.balances source
      let balances ← arrive balances target
      pure ({ token with tokenApprovals := approvals, balances, owners := token.owners.modify tokenId fun _ => target }, source)) =
        Except.ok (after, owner)) : Spread token after := by
  obtain ⟨between, left, rest⟩ := bind_eq_ok.mp done
  obtain ⟨balances, arrived, same⟩ := bind_eq_ok.mp rest
  cases pure_eq_ok.mp same
  refine ⟨?_, (leave_keys left).trans (arrive_keys arrived), kept, .refl _⟩
  rw [Table.modify_keys]
  exact Finset.subset_insert _ _

theorem update_spread (done : token.update_ target tokenId auth = .ok (after, owner)) : Spread token after := by
  have kept : token.tokenApprovals.keys ⊆
      (if token.ownerOf_ tokenId = 0 then token.tokenApprovals else token.tokenApprovals.modify tokenId fun _ => 0).keys := by
    split
    · exact subset_rfl
    · rw [Table.modify_keys]
      exact Finset.subset_insert _ _
  unfold update_ at done
  dsimp only at done
  split at done
  · obtain ⟨_, _, rest⟩ := bind_eq_ok.mp done
    exact moved_spread kept rest
  · exact moved_spread kept done

theorem mint_spread (done : token.mint_ target tokenId = .ok after) : Spread token after := by
  obtain ⟨_, rest⟩ := guard_eq_ok.mp done
  obtain ⟨⟨minted, from_⟩, updated, rfl⟩ := build_eq_ok.mp rest
  exact update_spread updated

theorem burn_spread (done : token.burn_ tokenId = .ok after) : Spread token after := by
  obtain ⟨⟨burnt, prevOwner⟩, updated, rest⟩ := bind_eq_ok.mp done
  obtain ⟨_, same⟩ := guard_eq_ok.mp rest
  cases pure_eq_ok.mp same
  exact update_spread updated

theorem transferFrom_spread (done : token.transferFrom caller source target tokenId = .ok after) : Spread token after := by
  obtain ⟨_, rest⟩ := guard_eq_ok.mp done
  obtain ⟨⟨moved, prevOwner⟩, updated, rest⟩ := bind_eq_ok.mp rest
  obtain ⟨_, rest⟩ := guard_eq_ok.mp rest
  obtain ⟨_, same⟩ := guard_eq_ok.mp rest
  cases pure_eq_ok.mp same
  exact update_spread updated

theorem approve_spread (done : token.approve caller target tokenId = .ok after) : Spread token after := by
  obtain ⟨owner, _, rest⟩ := bind_eq_ok.mp done
  obtain ⟨_, same⟩ := guard_eq_ok.mp rest
  cases pure_eq_ok.mp same
  refine ⟨subset_rfl, subset_rfl, ?_, .refl _⟩
  rw [Table.modify_keys]
  exact Finset.subset_insert _ _

theorem operators_spread {approved : Bool} (done : token.setApprovalForAll caller target approved = .ok after) : Spread token after := by
  obtain ⟨_, same⟩ := guard_eq_ok.mp done
  cases same
  exact ⟨subset_rfl, subset_rfl, subset_rfl, Table.larger_entry _ _ _ _⟩

theorem call_spread {request : ERC721.Call} (done : token.call request = .ok after) : Spread token after := by
  cases request with
  | mint_ => exact mint_spread done
  | burn_ => exact burn_spread done
  | transferFrom => exact transferFrom_spread done
  | approve => exact approve_spread done
  | setApprovalForAll => exact operators_spread done

end Collectible

namespace Mint
open ERC721Mint

structure Spread (before after : ERC721Mint) : Prop extends Collectible.Spread before.toERC721 after.toERC721 where
  burnedTokens : before.burnedTokens.keys ⊆ after.burnedTokens.keys
  tokenIdRarity : before.tokenIdRarity.keys ⊆ after.tokenIdRarity.keys
  tokenURI : before.tokenURI.keys ⊆ after.tokenURI.keys
  ownedTokens : before.ownedTokens.Larger after.ownedTokens
  ownedTokensIndex : before.ownedTokensIndex.Larger after.ownedTokensIndex
  preburnedTokensByOwner : before.preburnedTokensByOwner.keys ⊆ after.preburnedTokensByOwner.keys

/-- Entries for burned tokens say that they are there. -/
structure Marked (token : ERC721Mint) : Prop where
  preBurned : ∀ tokenId ∈ token.preBurnedTokens.keys, (token.preBurnedTokens.value tokenId).exists_ = true
  burned : ∀ tokenId ∈ token.burnedTokens.keys, (token.burnedTokens.value tokenId).exists_ = true

variable {token after : ERC721Mint} {caller target : Address} {tokenId random : Uint256} {around : Surroundings}

theorem marked_modify {table : Table Uint256 BurnedToken} (marked : ∀ tokenId ∈ table.keys, (table.value tokenId).exists_ = true)
    {entry : BurnedToken} (there : entry.exists_ = true) :
    ∀ other ∈ (table.modify tokenId fun _ => entry).keys, ((table.modify tokenId fun _ => entry).value other).exists_ = true := by
  intro other inside
  rw [Table.modify_value]
  split
  · exact there
  case isFalse apart =>
    rw [Table.modify_keys] at inside
    exact marked other ((Finset.mem_insert.mp inside).resolve_left apart)

theorem modify_larger {κ ν : Type} [Inhabited ν] [DecidableEq κ] (table : Table κ ν) (key : κ) (update : ν → ν) :
    table.keys ⊆ (table.modify key update).keys := by
  rw [Table.modify_keys]
  exact Finset.subset_insert _ _

theorem mint_spread (done : token.mint target random = .ok after) : Spread token after ∧ (Marked token → Marked after) := by
  obtain ⟨_, rest⟩ := guard_eq_ok.mp done
  obtain ⟨tokenCount, _, rest⟩ := bind_eq_ok.mp rest
  obtain ⟨base, minted, rest⟩ := bind_eq_ok.mp rest
  obtain ⟨uri, _, rest⟩ := bind_eq_ok.mp rest
  obtain ⟨tokenIdCounter, _, rest⟩ := bind_eq_ok.mp rest
  obtain ⟨totalSupply, _, rfl⟩ := build_eq_ok.mp rest
  refine ⟨⟨Collectible.mint_spread minted, subset_rfl, modify_larger _ _ _, modify_larger _ _ _, ?_, ?_, subset_rfl⟩, ?_⟩
  · exact Table.larger_entry _ _ _ _
  · exact Table.larger_entry _ _ _ _
  · exact fun marked => ⟨marked.preBurned, marked.burned⟩

theorem preBurn_spread (done : token.preBurn caller tokenId = .ok after) : Spread token after ∧ (Marked token → Marked after) := by
  obtain ⟨owner, _, rest⟩ := bind_eq_ok.mp done
  obtain ⟨_, rest⟩ := guard_eq_ok.mp rest
  obtain ⟨base, burnt, rfl⟩ := build_eq_ok.mp rest
  refine ⟨⟨Collectible.burn_spread burnt, subset_rfl, modify_larger _ _ _, subset_rfl, .refl _, .refl _, modify_larger _ _ _⟩, ?_⟩
  exact fun marked => ⟨marked_modify marked.preBurned rfl, marked.burned⟩

theorem burn_spread {v : UInt8} {r s : Hash} (done : token.burn around tokenId v r s = .ok after) :
    Spread token after ∧ (Marked token → Marked after) := by
  obtain ⟨_, rest⟩ := guard_eq_ok.mp done
  obtain ⟨text, _, rest⟩ := bind_eq_ok.mp rest
  obtain ⟨_, rest⟩ := guard_eq_ok.mp rest
  obtain ⟨_, same⟩ := guard_eq_ok.mp rest
  cases pure_eq_ok.mp same
  refine ⟨⟨⟨subset_rfl, subset_rfl, subset_rfl, .refl _⟩, modify_larger _ _ _, modify_larger _ _ _, subset_rfl, .refl _, .refl _,
    subset_rfl⟩, ?_⟩
  refine fun marked => ⟨fun other inside => ?_, marked_modify marked.burned rfl⟩
  obtain ⟨apart, inside⟩ := Finset.mem_erase.mp inside
  have kept : (token.preBurnedTokens.erase tokenId).value other = token.preBurnedTokens.value other :=
    Function.update_of_ne apart _ _
  dsimp only
  rw [kept]
  exact marked.preBurned other inside

private theorem inherited_spread {result : Except Exception ERC721} (done : token.inherited result = .ok after)
    (spread : ∀ base, result = .ok base → Collectible.Spread token.toERC721 base) : Spread token after ∧ (Marked token → Marked after) := by
  obtain ⟨base, called, rfl⟩ := build_eq_ok.mp done
  exact ⟨⟨spread base called, subset_rfl, subset_rfl, subset_rfl, .refl _, .refl _, subset_rfl⟩, fun marked => ⟨marked.preBurned, marked.burned⟩⟩

theorem call_spread {request : ERC721Mint.Call} (done : token.call around request = .ok after) :
    Spread token after ∧ (Marked token → Marked after) := by
  cases request with
  | mint => exact mint_spread done
  | preBurn => exact preBurn_spread done
  | burn => exact burn_spread done
  | transferFrom => exact inherited_spread done fun base => Collectible.transferFrom_spread
  | approve => exact inherited_spread done fun base => Collectible.approve_spread
  | setApprovalForAll => exact inherited_spread done fun base => Collectible.operators_spread
  | setBaseURI =>
    obtain ⟨_, same⟩ := guard_eq_ok.mp done
    cases same
    exact ⟨⟨⟨subset_rfl, subset_rfl, subset_rfl, .refl _⟩, subset_rfl, subset_rfl, subset_rfl, .refl _, .refl _, subset_rfl⟩,
      fun marked => ⟨marked.preBurned, marked.burned⟩⟩

end Mint

namespace Wrapper
open ERC20Wrapper

variable {start : Table Address (Table Address Uint256)} {home caller token target : Address} {value : Uint256}

/-- The entries of the wrapper are there. -/
def Has (start : Table Address (Table Address Uint256)) (vault : Vault) : Prop := start.Larger vault.wrapper.tokensAndBalances

theorem callToken_keeps {function : ERC20 → Except Exception ERC20} : Keeps (Has start) (callToken token function) := by
  intro before answer after has done
  have rest := yields_get_bind.mp done
  split at rest
  · cases rest
  · obtain ⟨contract, _, rest⟩ := yields_checked_bind.mp rest
    rw [modify_yields rest]
    exact has

theorem entered {wrapper : ERC20Wrapper} (has : start.Larger wrapper.tokensAndBalances) (user : Address) (amount : Uint256) :
    start.Larger (wrapper.tokensAndBalances.modify token fun users => users.modify user fun _ => amount) :=
  has.trans (Table.larger_entry _ _ _ _)

theorem transferTo_keeps : Keeps (Has start) (transferTo home caller token target value) := by
  intro before answer after has done
  obtain ⟨wrapper, lowered, rest⟩ := yields_checked_bind.mp (yields_get_bind.mp done)
  have rest := yields_modify_bind.mp rest
  apply callToken_keeps _ _ _ _ rest
  unfold lower at lowered
  split at lowered
  · cases lowered
  · split at lowered
    · cases lowered
    · obtain ⟨_, rest⟩ := guard_eq_ok.mp lowered
      obtain ⟨left, _, rfl⟩ := build_eq_ok.mp rest
      exact entered has _ _

theorem deposit_keeps : Keeps (Has start) (deposit home caller token value) := by
  intro before answer after has done
  obtain ⟨_, between, paid, rest⟩ := yields_bind.mp done
  have has := callToken_keeps _ _ _ has paid
  obtain ⟨wrapper, raised, rest⟩ := yields_checked_bind.mp (yields_get_bind.mp rest)
  rw [modify_yields rest]
  obtain ⟨sum, _, rfl⟩ := build_eq_ok.mp raised
  exact entered has _ _

theorem perform_keeps (request : ERC20Wrapper.Call) : Keeps (Has start) (perform home request) := by
  cases request with
  | deposit => exact deposit_keeps
  | withdraw => exact transferTo_keeps
  | transferTo => exact transferTo_keeps
  | token => exact callToken_keeps
  | create =>
    intro before answer after has done
    obtain ⟨_, rest⟩ := yields_require_bind.mp (yields_get_bind.mp done)
    obtain ⟨contract, _, rest⟩ := yields_checked_bind.mp rest
    rw [modify_yields rest]
    exact has

end Wrapper

namespace Exchange
open DEXV2 DexCalls PairSteps PairCalls

/-- The pairs are listed one after another. -/
structure FactorySpread (before after : DEXV2Factory) : Prop where
  allPairs : before.allPairs <+: after.allPairs
  getPairs : before.getPairs.Larger after.getPairs

inductive Spreads : Contract → Contract → Prop where
  | erc20 {before after : ERC20} (spread : Token.Spread before after) : Spreads (.erc20 before) (.erc20 after)
  | nativeWrapper {before after : ERC20} (spread : Token.Spread before after) : Spreads (.nativeWrapper before) (.nativeWrapper after)
  | pair {before after : DEXV2Pair} (spread : Token.Spread before.toERC20 after.toERC20) : Spreads (.pair before) (.pair after)
  | factory {before after : DEXV2Factory} (spread : FactorySpread before after) : Spreads (.factory before) (.factory after)
  | router {before after : DEXV2Router02} : Spreads (.router before) (.router after)

theorem Spreads.refl (contract : Contract) : Spreads contract contract := by
  cases contract with
  | erc20 token => exact .erc20 (.refl token)
  | nativeWrapper token => exact .nativeWrapper (.refl token)
  | pair pair => exact .pair (.refl pair.toERC20)
  | factory factory => exact .factory ⟨List.prefix_rfl, .refl _⟩
  | router router => exact .router

theorem Spreads.trans {first second third : Contract} (early : Spreads first second) (late : Spreads second third) : Spreads first third := by
  cases early with
  | erc20 spread =>
    cases late with
    | erc20 again => exact .erc20 (spread.trans again)
  | nativeWrapper spread =>
    cases late with
    | nativeWrapper again => exact .nativeWrapper (spread.trans again)
  | pair spread =>
    cases late with
    | pair again => exact .pair (spread.trans again)
  | factory spread =>
    cases late with
    | factory again => exact .factory ⟨spread.allPairs.trans again.allPairs, spread.getPairs.trans again.getPairs⟩
  | router =>
    cases late with
    | router => exact .router

/-- What a class of contracts writes that loses nothing. -/
def Safe {τ : Type} (as_ : Cast τ) (old new : τ) : Prop :=
  ∀ contract, as_.view contract = some old → Spreads contract (as_.write new contract)

variable {start world after : World} {address caller target token : Address} {amount : Uint256}

theorem safe_token {old new : ERC20} (spread : Token.Spread old new) : Safe asERC20 old new := by
  intro contract viewed
  cases contract with
  | erc20 =>
    cases viewed
    exact .erc20 spread
  | nativeWrapper =>
    cases viewed
    exact .nativeWrapper spread
  | pair =>
    cases viewed
    exact .pair spread
  | factory | router => cases viewed

theorem safe_wrapper {old new : ERC20} (spread : Token.Spread old new) : Safe asNativeWrapper old new := by
  intro contract viewed
  cases contract with
  | nativeWrapper =>
    cases viewed
    exact .nativeWrapper spread
  | erc20 | pair | factory | router => cases viewed

theorem safe_pair {old new : DEXV2Pair} (spread : Token.Spread old.toERC20 new.toERC20) : Safe asPair old new := by
  intro contract viewed
  cases contract with
  | pair =>
    cases viewed
    exact .pair spread
  | erc20 | nativeWrapper | factory | router => cases viewed

theorem safe_factory {old new : DEXV2Factory} (spread : FactorySpread old new) : Safe asFactory old new := by
  intro contract viewed
  cases contract with
  | factory =>
    cases viewed
    exact .factory spread
  | erc20 | nativeWrapper | pair | router => cases viewed

/-- Every contract is still there, with all its entries. -/
def Wider (start world : World) : Prop :=
  ∀ address contract, start.contracts.find address = some contract →
    ∃ changed, world.contracts.find address = some changed ∧ Spreads contract changed

theorem Wider.put {τ : Type} {as_ : Cast τ} {old new : τ} (wider : Wider start world) (known : world.at_ as_ address = some old)
    (safe : Safe as_ old new) : Wider start (world.put as_ address new) := by
  intro other contract there
  obtain ⟨changed, found, spreads⟩ := wider other contract there
  by_cases same : other = address
  · subst same
    refine ⟨as_.write new changed, ?_, spreads.trans (safe changed ?_)⟩
    · rw [World.put, Registry.find_update_self, found, Option.map_some]
    · rw [World.at_, found] at known
      exact known
  · refine ⟨changed, ?_, spreads⟩
    rw [World.put, Registry.find_update_of_ne _ _ same, found]

theorem callContractFunction_keeps {τ : Type} {as_ : Cast τ} {function : τ → Except Exception τ}
    (safe : ∀ old new, function old = .ok new → Safe as_ old new) : Keeps (Wider start) (callContractFunction as_ address function) := by
  intro before answer after wider done
  obtain ⟨old, new, known, computed, written⟩ := callContractFunction_yields done
  rw [written]
  exact wider.put known (safe old new computed)

theorem sendTokens_keeps : Keeps (Wider start) (sendTokens caller target amount) := by
  intro before answer after wider done
  obtain ⟨_, rest⟩ := yields_require_bind.mp (yields_get_bind.mp done)
  obtain ⟨left, _, rest⟩ := yields_checked_bind.mp rest
  obtain ⟨sum, _, rest⟩ := yields_checked_bind.mp rest
  rw [modify_yields rest]
  exact wider

theorem transfer_keeps : Keeps (Wider start) (transfer caller token target amount) :=
  callContractFunction_keeps fun _ _ done => safe_token (Token.transfer_spread done)

theorem transferFrom_keeps {source : Address} : Keeps (Wider start) (transferFrom caller token source target amount) :=
  callContractFunction_keeps fun _ _ done => safe_token (Token.transferFrom_spread done)

theorem deposit_keeps : Keeps (Wider start) (NativeWrapper.deposit address caller amount) :=
  callContractFunction_keeps fun _ _ done => safe_wrapper (Token.mint_spread done)

theorem withdraw_keeps : Keeps (Wider start) (NativeWrapper.withdraw address caller amount) :=
  (callContractFunction_keeps fun _ _ done => safe_wrapper (Token.burn_spread done)).bind fun _ => sendTokens_keeps

theorem initialize_keeps {token0 token1 : Address} :
    Keeps (Wider start) (callContractFunction asPair address fun pair => pair.initializePair caller token0 token1) := by
  apply callContractFunction_keeps
  intro old new done
  obtain ⟨_, same⟩ := guard_eq_ok.mp done
  cases same
  exact safe_pair (.refl _)

private theorem register_spread (factory : DEXV2Factory) (token0 token1 pair : Address) :
    FactorySpread factory (factory.register token0 token1 pair) :=
  ⟨List.prefix_append _ _, (Table.larger_entry _ _ _ _).trans (Table.larger_entry _ _ _ _)⟩

theorem createPair_keeps {tokenA tokenB : Address} : Keeps (Wider start) (DEXV2Factory.createPair around address tokenA tokenB) := by
  apply Keeps.after_require
  apply Keeps.after_require
  refine getContract_keeps.bind fun factory => ?_
  apply Keeps.after_require
  apply Keeps.bind
  · intro before pair after wider done
    obtain ⟨_, contract, _, rfl⟩ := PairRegistry.callCreateContract_yields done
    intro other contract there
    obtain ⟨changed, found, spreads⟩ := wider other contract there
    refine ⟨changed, ?_, spreads⟩
    rw [Registry.find_add, found]
    rfl
  · intro pair
    apply initialize_keeps.bind
    intro _
    refine Keeps.bind (callContractFunction_keeps fun old new same => ?_) fun _ => .pure _
    cases same
    exact safe_factory (register_spread _ _ _ _)

theorem charged_spread {pair : DEXV2Pair} {feeTo : Address} {shares : ERC20} (charged : Charged pair feeTo shares) :
    Token.Spread pair.toERC20 shares := by
  cases charged with
  | free => exact .refl _
  | paid _ _ _ minted => exact Token.mint_spread minted

theorem provided_spread {pair : DEXV2Pair} {amount0 amount1 liquidity : Uint256} {shares : ERC20}
    (provided : Provided pair amount0 amount1 liquidity shares) : Token.Spread pair.toERC20 shares := by
  unfold Provided at provided
  split at provided
  · exact Token.mint_spread provided
  · rw [provided.1]
    exact .refl _

theorem callMint_keeps : Keeps (Wider start) (DEXV2Pair.callMint around address target) := by
  intro before liquidity after wider done
  obtain ⟨run⟩ := callMint_run done
  obtain ⟨charged, provided, _, fees, filled, made⟩ := (mint_minted run.minted).shares
  rw [run.written]
  exact wider.put run.trading.here
    (safe_pair ((charged_spread fees).trans ((provided_spread filled).trans (Token.mint_spread made))))

theorem callBurn_keeps : Keeps (Wider start) (DEXV2Pair.callBurn around address target) := by
  intro before amounts after wider done
  obtain ⟨run⟩ := callBurn_run done
  obtain ⟨charged, fees, _, burnt, _⟩ := (burnShares_ok run.burnt).shares
  have burning := wider.put run.trading.here (safe_pair ((charged_spread fees).trans (Token.burn_spread burnt)))
  have paid := transfer_keeps _ _ _ (transfer_keeps _ _ _ burning run.paidFirst) run.paidSecond
  rw [run.written]
  apply paid.put run.foundLast
  apply safe_pair
  rw [(settle_ok run.settled).2]
  exact .refl _

theorem paid_keeps (wider : Wider start world) (paid : Paid caller token target amount world after) : Wider start after := by
  unfold Paid at paid
  split at paid
  · exact transfer_keeps _ _ _ wider paid
  · rw [paid]
    exact wider

theorem callSwap_keeps {amount0Out amount1Out : Uint256} :
    Keeps (Wider start) (DEXV2Pair.callSwap around address amount0Out amount1Out target) := by
  intro before answer after wider done
  obtain ⟨run⟩ := callSwap_run done
  have paid := paid_keeps (paid_keeps wider run.paidFirst) run.paidSecond
  rw [run.written]
  apply paid.put run.foundLast
  apply safe_pair
  rw [(swapEnd_ok run.ended).2.1]
  exact .refl _

private theorem callSkim_keeps : Keeps (Wider start) (DEXV2Pair.callSkim address target) := by
  intro before answer after wider done
  obtain ⟨run⟩ := callSkim_run done
  exact transfer_keeps _ _ _ (transfer_keeps _ _ _ wider run.paidFirst) run.paidSecond

theorem callSync_keeps : Keeps (Wider start) (DEXV2Pair.callSync around address) := by
  intro before answer after wider done
  obtain ⟨run⟩ := callSync_run done
  rw [run.written]
  apply wider.put run.trading.here
  apply safe_pair
  rw [(update_ok run.updated).2]
  exact .refl _

theorem router_keeps (entry : DEXV2Router02.Entry) (call : DEXV2Router02.Call) : Keeps (Wider start) (DEXV2Router02.perform entry call) := by
  apply RouterKeeps.perform_keeps
  exact {
    transferFrom := fun _ _ _ _ => transferFrom_keeps
    transfer := fun _ _ _ => transfer_keeps
    deposit := fun _ _ => deposit_keeps
    withdraw := fun _ _ => withdraw_keeps
    sendTokens := fun _ _ => sendTokens_keeps
    createPair := fun _ _ => createPair_keeps
    callMint := fun _ _ => callMint_keeps
    callBurn := fun _ _ => callBurn_keeps
    callSwap := fun _ _ _ _ => callSwap_keeps }

private theorem dropped {α : Type} {code : Run α} (keeps : Keeps (Wider start) code) :
    Keeps (Wider start) (do
      let _ ← code
      pure ()) := keeps.bind fun _ => .pure _

theorem perform_keeps (around : Around) (caller : Address) (request : PairSolvency.Request) :
    Keeps (Wider start) (PairSolvency.perform around caller request) := by
  cases request with
  | transfer => exact transfer_keeps
  | transferFrom => exact transferFrom_keeps
  | approve token spender value =>
    apply callContractFunction_keeps
    intro old new same
    cases same
    exact safe_token (Token.approve_spread old)
  | deposit => exact deposit_keeps
  | withdraw => exact withdraw_keeps
  | initializePair => exact initialize_keeps
  | mint => exact dropped callMint_keeps
  | burn => exact dropped callBurn_keeps
  | swap => exact callSwap_keeps
  | skim => exact callSkim_keeps
  | sync => exact callSync_keeps
  | createPair => exact dropped createPair_keeps
  | setFeeTo | setFeeToSetter =>
    apply callContractFunction_keeps
    intro old new same
    cases same
    exact safe_factory ⟨List.prefix_rfl, .refl _⟩
  | router address value call => exact getContract_keeps.bind fun _ => dropped (router_keeps _ call)

/-- Contracts of an exchange before and after a call of any of its functions. -/
theorem call_wider {request : PairSolvency.Call} (done : PairSolvency.call world request = .ok after) : Wider world after := by
  obtain ⟨answer, yields⟩ := PairSolvency.call_yields done
  have first : Wider world { world with native := request.native } := fun address contract there => ⟨contract, there, .refl _⟩
  exact perform_keeps _ _ _ _ _ _ first yields

end Exchange
end OrbiterSDK.Proofs.TemplateKeys
