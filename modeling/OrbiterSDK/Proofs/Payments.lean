import OrbiterSDK.Lib.Flow
import OrbiterSDK.Proofs.Markets

/-! The books of all native coins and all tokens, and what the calls between contracts do to
them. -/

namespace OrbiterSDK.Proofs.Payments
open Lib Atomic DEXV2 DexCalls TokenSupply PairSteps Markets Flow

/-- The coins of the chain, or a token. -/
abbrev Asset := Option Address

def holding (world : World) : Asset → Address → ℕ
  | none, holder => (world.native holder).toNat
  | some token, holder => ((world.at_ asERC20 token).map fun contract => (contract.balanceOf holder).toNat).getD 0

abbrev Booked (flow : Flow Asset Address) (before after : World) : Prop := Books flow (holding before) (holding after)

/-- What a pair's fee depends on. -/
structure SameDue (before after : DEXV2Pair) : Prop extends SamePool before after where
  kLast : after.kLast = before.kLast
  supply : after.totalSupply = before.totalSupply

/-- No contract is added, factories and routers stay as they are, and pairs change at most in
what the relation leaves open. -/
structure Framed (same : DEXV2Pair → DEXV2Pair → Prop) (before after : World) : Prop where
  keys : after.contracts.keys = before.contracts.keys
  factories : ∀ address, after.at_ asFactory address = before.at_ asFactory address
  routers : ∀ address, after.at_ asRouter address = before.at_ asRouter address
  pairs : ∀ address pair, before.at_ asPair address = some pair →
    ∃ changed, after.at_ asPair address = some changed ∧ same pair changed

/-- Pairs do nothing themselves. -/
abbrev Idle := Framed SameDue

abbrev Steady := Framed SamePlaces

variable {world between after : World} {old new : ERC20} {pair changed : DEXV2Pair} {address caller source target : Address} {amount : Uint256}
  {flow : Flow Asset Address} {same finer : DEXV2Pair → DEXV2Pair → Prop}

theorem SameDue.refl (pair : DEXV2Pair) : SameDue pair pair := ⟨.refl pair, rfl, rfl⟩

theorem SameDue.trans {middle : DEXV2Pair} (first : SameDue pair middle) (second : SameDue middle changed) : SameDue pair changed :=
  ⟨first.toSamePool.trans second.toSamePool, second.kLast.trans first.kLast, second.supply.trans first.supply⟩

theorem Framed.trans (compose : ∀ {first second third}, same first second → same second third → same first third)
    (first : Framed same world between) (second : Framed same between after) : Framed same world after := by
  refine ⟨second.keys.trans first.keys, fun address => (second.factories address).trans (first.factories address),
    fun address => (second.routers address).trans (first.routers address), fun address pair here => ?_⟩
  obtain ⟨middle, there, kept⟩ := first.pairs address pair here
  obtain ⟨last, where_, kept'⟩ := second.pairs address middle there
  exact ⟨last, where_, compose kept kept'⟩

theorem Framed.coarser (implies : ∀ {first second}, finer first second → same first second) (framed : Framed finer world after) :
    Framed same world after := by
  refine ⟨framed.keys, framed.factories, framed.routers, fun address pair here => ?_⟩
  obtain ⟨changed, there, kept⟩ := framed.pairs address pair here
  exact ⟨changed, there, implies kept⟩

theorem Idle.refl (world : World) : Idle world world := ⟨rfl, fun _ => rfl, fun _ => rfl, fun _ pair here => ⟨pair, here, .refl pair⟩⟩

theorem Idle.trans (first : Idle world between) (second : Idle between after) : Idle world after := Framed.trans .trans first second

theorem Idle.steady (idle : Idle world after) : Steady world after := idle.coarser fun due => due.toSamePlaces

theorem Steady.trans (first : Steady world between) (second : Steady between after) : Steady world after := Framed.trans .trans first second

theorem holding_known {holder : Address} (known : world.at_ asERC20 address = some old) :
    holding world (some address) holder = (old.balanceOf holder).toNat := by
  change ((world.at_ asERC20 address).map fun contract => (contract.balanceOf holder).toNat).getD 0 = _
  rw [known]
  rfl

theorem holding_congr {holder : Address} (same : after.at_ asERC20 address = world.at_ asERC20 address) :
    holding after (some address) holder = holding world (some address) holder := by
  change ((after.at_ asERC20 address).map fun contract => (contract.balanceOf holder).toNat).getD 0 = _
  rw [same]
  rfl

theorem written_booked (written : Written world after address new) (known : world.at_ asERC20 address = some old)
    (native : after.native = world.native) (elsewhere : ∀ asset holder, asset ≠ some address → flow asset holder = 0)
    (here : ∀ holder, ((new.balanceOf holder).toNat : ℤ) = (old.balanceOf holder).toNat + flow (some address) holder) :
    Booked flow world after := by
  intro asset holder
  cases asset with
  | none =>
    rw [elsewhere none holder (Option.some_ne_none _).symm, add_zero]
    change ((after.native holder).toNat : ℤ) = _
    rw [native]
    rfl
  | some token =>
    by_cases same : token = address
    · subst same
      rw [holding_known written.token, holding_known known]
      exact here holder
    · rw [elsewhere (some token) holder (fun equal => same (Option.some.inj equal)), add_zero]
      rw [holding_congr (written.others _ _ same)]

theorem moved_here {token paid : ERC20} (moved : Moved token.balanceOf paid.balanceOf source target amount) (holder : Address) :
    ((paid.balanceOf holder).toNat : ℤ) = (token.balanceOf holder).toNat +
      (pay (some address) source target amount.toNat : Flow Asset Address) (some address) holder := by
  have shift := moved.shift holder
  rw [pay_apply]
  unfold give
  simp only [true_and]
  split_ifs at shift ⊢ <;> omega

/-- What else a write leaves alone, if it is to no factory and no router. -/
theorem put_framed {τ : Type} {as_ : Cast τ} {value : τ} (notFactory : world.at_ asFactory address = none)
    (notFactory' : (world.put as_ address value).at_ asFactory address = none) (notRouter : world.at_ asRouter address = none)
    (notRouter' : (world.put as_ address value).at_ asRouter address = none)
    (here : ∀ pair, world.at_ asPair address = some pair → ∃ changed, (world.put as_ address value).at_ asPair address = some changed ∧
      same pair changed) (alike : ∀ pair, same pair pair) : Framed same world (world.put as_ address value) := by
  refine ⟨put_keys, ?_, ?_, ?_⟩
  · intro other
    by_cases equal : other = address
    · rw [equal, notFactory, notFactory']
    · exact at_put_of_ne _ equal
  · intro other
    by_cases equal : other = address
    · rw [equal, notRouter, notRouter']
    · exact at_put_of_ne _ equal
  · intro other pair known
    by_cases equal : other = address
    · subst equal
      exact here pair known
    · exact ⟨pair, (at_put_of_ne _ equal).trans known, alike pair⟩

theorem token_not_router {token : ERC20} (isToken : world.at_ asERC20 address = some token) : world.at_ asRouter address = none := by
  obtain ⟨contract, found, viewed⟩ := at_found isToken
  unfold World.at_
  rw [found]
  cases contract with
  | erc20 | nativeWrapper | pair => rfl
  | factory | router => cases viewed

/-- A token is written, which may be a pair's own shares. -/
theorem tokenWrite_idle (known : world.at_ asERC20 address = some old) (supply : new.totalSupply = old.totalSupply) :
    Idle world (world.put asERC20 address new) := by
  have later : (world.put asERC20 address new).at_ asERC20 address = some new := at_put_self known
  apply put_framed (token_not_factory known) (token_not_factory later) (token_not_router known) (token_not_router later) _ .refl
  intro pair here
  cases (pair_shares here).symm.trans known
  exact ⟨_, pair_put_shares here, ⟨⟨rfl, rfl, rfl⟩, rfl, rfl⟩, rfl, supply⟩

theorem wrapperWrite_idle (known : world.at_ asNativeWrapper address = some old) : Idle world (world.put asNativeWrapper address new) := by
  obtain ⟨isToken, noPair⟩ := wrapper_token known
  have later := (wrapper_token (at_put_self known : (world.put asNativeWrapper address new).at_ asNativeWrapper address = some new)).1
  apply put_framed (token_not_factory isToken) (token_not_factory later) (token_not_router isToken) (token_not_router later) _ .refl
  intro pair here
  rw [noPair] at here
  cases here

theorem pairWrite_steady (known : world.at_ asPair address = some pair) (places : SamePlaces pair changed) :
    Steady world (world.put asPair address changed) := by
  have isToken := pair_shares known
  have later : (world.put asPair address changed).at_ asERC20 address = some changed.toERC20 := shares_put_pair known
  apply put_framed (token_not_factory isToken) (token_not_factory later) (token_not_router isToken) (token_not_router later) _
    fun _ => ⟨rfl, rfl, rfl⟩
  intro pair here
  cases known.symm.trans here
  exact ⟨changed, at_put_self known, places⟩

variable {token : Address} {answer : Unit}

theorem transfer_booked (done : Yields (transfer caller token target amount) world answer after) :
    Booked (pay (some token) caller target amount.toNat) world after ∧ Idle world after := by
  obtain ⟨old, new, known, computed, rfl⟩ := callContractFunction_yields done
  obtain ⟨moved, supply, _⟩ := transfer_moves computed
  exact ⟨written_booked (token_written known) known rfl (fun _ _ => pay_asset) (moved_here moved), tokenWrite_idle known supply⟩

theorem transferFrom_booked (done : Yields (transferFrom caller token source target amount) world answer after) :
    Booked (pay (some token) source target amount.toNat) world after ∧ Idle world after := by
  obtain ⟨old, new, known, computed, rfl⟩ := callContractFunction_yields done
  obtain ⟨moved, supply, _⟩ := transferFrom_moves computed
  exact ⟨written_booked (token_written known) known rfl (fun _ _ => pay_asset) (moved_here moved), tokenWrite_idle known supply⟩

theorem credited_here {balances : Table Address Uint256} (credited : ERC20.credit old.balances target amount = .ok balances)
    (same : new.balances = balances) (holder : Address) : ((new.balanceOf holder).toNat : ℤ) = (old.balanceOf holder).toNat +
      (give (some address) target amount.toNat : Flow Asset Address) (some address) holder := by
  have adds := credit_adds credited holder
  rw [balanceOf_eq, balanceOf_eq, same]
  unfold give
  simp only [true_and]
  split_ifs at adds ⊢ <;> omega

theorem deposit_booked (done : Yields (NativeWrapper.deposit token caller amount) world answer after) :
    Booked (give (some token) caller amount.toNat) world after ∧ Idle world after := by
  obtain ⟨old, new, known, computed, rfl⟩ := callContractFunction_yields done
  have credited := (mint_adds computed).1
  exact ⟨written_booked (wrapper_written known) (wrapper_token known).1 rfl (fun _ _ => give_asset) (credited_here credited rfl),
    wrapperWrite_idle known⟩

theorem sendTokens_booked (done : Yields (sendTokens source target amount) world answer after) :
    Booked (pay none source target amount.toNat) world after ∧ Idle world after := by
  have rest := yields_get_bind.mp done
  obtain ⟨_, rest⟩ := yields_require_bind.mp rest
  obtain ⟨left, taken, rest⟩ := yields_checked_bind.mp rest
  obtain ⟨sum, added, rest⟩ := yields_checked_bind.mp rest
  have same := modify_yields rest
  subst same
  have taken := Uint256.sub_eq_ok.mp taken
  have added := Uint256.add_eq_ok.mp added
  refine ⟨?_, ⟨rfl, fun _ => rfl, fun _ => rfl, fun _ pair here => ⟨pair, here, .refl pair⟩⟩⟩
  intro asset holder
  cases asset with
  | some token =>
    rw [pay_asset (Option.some_ne_none _), add_zero]
    rfl
  | none =>
    rw [pay_apply]
    unfold give holding
    simp only [true_and, Function.update_apply] at added ⊢
    by_cases isTarget : holder = target
    · by_cases isSource : target = source
      · subst isTarget isSource
        simp only [if_true] at added ⊢
        omega
      · subst isTarget
        simp only [isSource, if_true, if_false] at added ⊢
        omega
    · by_cases isSource : holder = source
      · subst isSource
        simp only [isTarget, if_true, if_false]
        omega
      · simp only [isTarget, isSource, if_false]
        omega

theorem withdraw_booked (done : Yields (NativeWrapper.withdraw token caller amount) world answer after) :
    Booked (pay none token caller amount.toNat - give (some token) caller amount.toNat) world after ∧ Idle world after := by
  obtain ⟨_, between, burning, sending⟩ := yields_bind.mp done
  obtain ⟨old, new, known, computed, rfl⟩ := callContractFunction_yields burning
  have debited := (debit_takes (burn_takes computed).1).2
  obtain ⟨sent, idle⟩ := sendTokens_booked sending
  have burnt : Booked (-give (some token) caller amount.toNat) world (world.put asNativeWrapper token new) := by
    apply written_booked (wrapper_written known) (wrapper_token known).1 rfl
    · intro asset holder apart
      change -(give (some token) caller amount.toNat : Flow Asset Address) asset holder = 0
      rw [give_asset apart, neg_zero]
    · intro holder
      have taken := debited holder
      change _ = _ + -(give (some token) caller amount.toNat : Flow Asset Address) (some token) holder
      rw [balanceOf_eq, balanceOf_eq]
      unfold give
      simp only [true_and]
      split_ifs at taken ⊢ <;> omega
  refine ⟨(burnt.trans sent).congr ?_, (wrapperWrite_idle known).trans idle⟩
  abel

end OrbiterSDK.Proofs.Payments
