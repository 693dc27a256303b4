import OrbiterSDK.Proofs.Markets
import OrbiterSDK.Templates.ERC20Wrapper

/-! What users may take out of the wrapper is there. The records of a token are raised after
it came in and lowered before it goes out, and nobody else may spend what the wrapper has. -/

namespace OrbiterSDK.Proofs.Custody
open Lib Atomic TokenSupply Markets ERC20Wrapper

/-- All that the wrapper owes of a token. -/
def owed (wrapper : ERC20Wrapper) (token : Address) : ℕ := (wrapper.tokensAndBalances.value token).total BitVec.toNat

/-- A token of which the wrapper owes so much. -/
structure Held (keeper : Address) (owed : ℕ) (contract : ERC20) : Prop where
  balanced : Balanced contract
  unapproved : Unapproved keeper contract
  covered : owed ≤ (contract.balanceOf keeper).toNat

/-- What is owed is there, and of what is no token nothing is owed. -/
structure Solvent (keeper : Address) (vault : Vault) : Prop where
  held : ∀ token contract, vault.tokens.find token = some contract → Held keeper (owed vault.wrapper token) contract
  nothing : ∀ token, vault.tokens.find token = none → owed vault.wrapper token = 0

/-- One record is lowered. -/
def Lowered (before after : ERC20Wrapper) (token user : Address) (value : Uint256) : Prop :=
  ∀ other someone, (getUserBalance after other someone).toNat + (if other = token ∧ someone = user then value.toNat else 0) =
    (getUserBalance before other someone).toNat

variable {keeper caller token user target : Address} {value : Uint256} {vault after : Vault} {wrapper changed : ERC20Wrapper} {contract : ERC20}

theorem getUserBalance_eq (wrapper : ERC20Wrapper) (token user : Address) :
    getUserBalance wrapper token user = (wrapper.tokensAndBalances.value token).value user := by
  unfold getUserBalance
  cases found : wrapper.tokensAndBalances.find token with
  | none =>
    rw [Table.find_eq_none found]
    rfl
  | some users =>
    rw [(Table.find_eq_some found).2]
    exact Table.find_getD users user

theorem record_modify (wrapper : ERC20Wrapper) (token user other someone : Address) (value : Uint256) :
    getUserBalance { wrapper with
        tokensAndBalances := wrapper.tokensAndBalances.modify token fun users => users.modify user fun _ => value } other someone =
      if other = token ∧ someone = user then value else getUserBalance wrapper other someone := by
  rw [getUserBalance_eq, getUserBalance_eq]
  dsimp only
  rw [Table.modify_value]
  by_cases here : other = token
  · rw [if_pos here, Table.modify_value, here]
    simp only [true_and]
  · rw [if_neg here, if_neg fun same => here same.1]

theorem lowered_owed (lowered : Lowered wrapper changed token user value) (other : Address) :
    owed changed other + (if other = token then value.toNat else 0) = owed wrapper other := by
  have shift : ∀ someone, ((changed.tokensAndBalances.value other).value someone).toNat +
      (if someone = user then (if other = token then value.toNat else 0) else 0) =
      ((wrapper.tokensAndBalances.value other).value someone).toNat + if someone = user then 0 else 0 := by
    intro someone
    have here := lowered other someone
    rw [getUserBalance_eq, getUserBalance_eq] at here
    rw [ite_self, Nat.add_zero, ← here]
    by_cases same : other = token
    · simp only [same, true_and, if_true]
    · simp only [same, false_and, if_false, ite_self]
  exact Table.total_shift rfl shift

theorem lower_ok (done : lower wrapper token user value = .ok changed) :
    value < getUserBalance wrapper token user ∧ Lowered wrapper changed token user value := by
  unfold lower at done
  cases foundToken : wrapper.tokensAndBalances.find token with
  | none =>
    rw [foundToken] at done
    cases done
  | some users =>
    rw [foundToken] at done
    cases foundUser : users.find user with
    | none =>
      simp only [foundUser] at done
      cases done
    | some balance =>
      simp only [foundUser] at done
      obtain ⟨more, rest⟩ := guard_eq_ok.mp done
      obtain ⟨left, taken, same⟩ := bind_eq_ok.mp rest
      have taken := Uint256.sub_eq_ok.mp taken
      cases pure_eq_ok.mp same
      have record : getUserBalance wrapper token user = balance := by
        unfold getUserBalance
        rw [foundToken]
        simp only [foundUser, Option.getD_some]
      refine ⟨?_, ?_⟩
      · rw [record]
        exact BitVec.not_le.mp more
      · intro other someone
        rw [record_modify]
        by_cases here : other = token ∧ someone = user
        · rw [if_pos here, if_pos here, here.1, here.2, record]
          exact taken.symm
        · rw [if_neg here, if_neg here, Nat.add_zero]

theorem lower_done (less : value < getUserBalance wrapper token user) : ∃ changed, lower wrapper token user value = .ok changed := by
  unfold getUserBalance at less
  unfold lower
  cases foundToken : wrapper.tokensAndBalances.find token with
  | none =>
    rw [foundToken] at less
    exact absurd less (BitVec.not_lt_zero)
  | some users =>
    rw [foundToken] at less
    cases foundUser : users.find user with
    | none =>
      simp only [foundUser, Option.getD_none] at less
      exact absurd less (BitVec.not_lt_zero)
    | some balance =>
      simp only [foundUser, Option.getD_some] at less ⊢
      rw [if_neg (BitVec.not_le.mpr less)]
      obtain ⟨rest, taken⟩ := Uint256.sub_done (BitVec.lt_def.mp less).le
      rw [taken]
      exact ⟨_, rfl⟩

theorem raise_ok (done : raise wrapper token user value = .ok changed) : Lowered changed wrapper token user value := by
  obtain ⟨sum, added, same⟩ := bind_eq_ok.mp done
  have added := Uint256.add_eq_ok.mp added
  cases pure_eq_ok.mp same
  intro other someone
  rw [record_modify]
  by_cases here : other = token ∧ someone = user
  · rw [if_pos here, if_pos here, here.1, here.2, getUserBalance_eq]
    exact added.symm
  · rw [if_neg here, if_neg here, Nat.add_zero]

theorem callToken_yields {function : ERC20 → Except Exception ERC20} {answer : Unit}
    (done : Yields (callToken token function) vault answer after) : ∃ contract changed, vault.tokens.find token = some contract ∧
      function contract = .ok changed ∧ after = { vault with tokens := vault.tokens.update token fun _ => changed } := by
  have rest := yields_get_bind.mp done
  cases found : vault.tokens.find token with
  | none =>
    simp only [found] at rest
    cases rest
  | some contract =>
    simp only [found] at rest
    obtain ⟨changed, computed, rest⟩ := yields_checked_bind.mp rest
    exact ⟨contract, changed, rfl, computed, modify_yields rest⟩

theorem callToken_done {function : ERC20 → Except Exception ERC20} {changed : ERC20} (found : vault.tokens.find token = some contract)
    (computed : function contract = .ok changed) :
    Yields (callToken token function) vault () { vault with tokens := vault.tokens.update token fun _ => changed } := by
  apply yields_get_bind.mpr
  simp only [found]
  exact yields_checked_bind.mpr ⟨changed, computed, rfl⟩

theorem find_update (tokens : Registry Address ERC20) (changed : ERC20) (found : tokens.find token = some contract) (other : Address) :
    (tokens.update token fun _ => changed).find other = if other = token then some changed else tokens.find other := by
  rw [Registry.find_update, found]
  rfl

/-- One token is written, and what is owed of it with it. -/
theorem Solvent.write (solvent : Solvent keeper vault) {wrote : ERC20} (found : vault.tokens.find token = some contract)
    (others : ∀ other, other ≠ token → owed changed other = owed vault.wrapper other) (held : Held keeper (owed changed token) wrote) :
    Solvent keeper { wrapper := changed, tokens := vault.tokens.update token fun _ => wrote } := by
  constructor
  · intro other there known
    rw [find_update vault.tokens wrote found] at known
    by_cases same : other = token
    · rw [if_pos same] at known
      cases known
      rw [same]
      exact held
    · rw [if_neg same] at known
      have before := solvent.held other there known
      exact ⟨before.balanced, before.unapproved, (others other same).symm ▸ before.covered⟩
  · intro other missing
    rw [find_update vault.tokens wrote found] at missing
    by_cases same : other = token
    · rw [if_pos same] at missing
      cases missing
    · rw [if_neg same] at missing
      exact (others other same).trans (solvent.nothing other missing)

theorem Held.spared {owed : ℕ} {wrote : ERC20} (held : Held keeper owed contract) (balanced : Balanced wrote)
    (spares : Spares keeper contract wrote) : Held keeper owed wrote :=
  ⟨balanced, spares.unapproved, held.covered.trans spares.kept⟩

/-- Nobody calls a token in the name of the wrapper, and no token burns what the wrapper has. -/
def Foreign (keeper : Address) : ERC20.Call → Prop
  | .transfer caller _ _ | .approve caller _ _ => caller ≠ keeper
  | .transferFrom .. | .mintValue_ .. => True
  | .burnValue_ account _ => account ≠ keeper

theorem foreign_spares {request : ERC20.Call} {wrote : ERC20} (unapproved : Unapproved keeper contract) (foreign : Foreign keeper request)
    (done : contract.call request = .ok wrote) : Spares keeper contract wrote := by
  cases request with
  | transfer => exact transfer_spares unapproved foreign done
  | approve =>
    cases done
    exact approve_spares unapproved foreign
  | transferFrom => exact transferFrom_spares unapproved done
  | mintValue_ => exact grown_spares unapproved (PairSteps.mint_grown done)
  | burnValue_ => exact burn_spares unapproved foreign done

def Allowed (keeper : Address) (_ : Vault) : Call → Prop
  | .token _ call => Foreign keeper call
  | .deposit .. | .withdraw .. | .transferTo .. | .create .. => True

theorem call_yields {request : Call} (done : call keeper vault request = .ok after) :
    ∃ answer, Yields (perform keeper request) vault answer after :=
  run_eq_ok.mp done

theorem transferTo_solvent {answer : Unit} (solvent : Solvent keeper vault)
    (done : Yields (transferTo keeper caller token target value) vault answer after) : Solvent keeper after := by
  have rest := yields_get_bind.mp done
  obtain ⟨changed, lowering, rest⟩ := yields_checked_bind.mp rest
  have rest := yields_modify_bind.mp rest
  obtain ⟨contract, wrote, found, paid, written⟩ := callToken_yields rest
  obtain ⟨_, lowered⟩ := lower_ok lowering
  obtain ⟨moved, supply, allowed⟩ := transfer_moves paid
  have held := solvent.held token contract found
  rw [written]
  apply solvent.write found
  · intro other apart
    have same := lowered_owed lowered other
    rw [if_neg apart] at same
    exact same
  · refine ⟨moved.balanced held.balanced supply, held.unapproved.same allowed, ?_⟩
    change owed changed token ≤ _
    have less := lowered_owed lowered token
    have here := moved.shift keeper
    have enough := held.covered
    rw [if_pos rfl] at less here
    omega

theorem deposit_solvent {answer : Unit} (solvent : Solvent keeper vault) (done : Yields (deposit keeper caller token value) vault answer after) :
    Solvent keeper after := by
  obtain ⟨_, between, paying, rest⟩ := yields_bind.mp done
  obtain ⟨contract, wrote, found, paid, written⟩ := callToken_yields paying
  have rest := yields_get_bind.mp rest
  obtain ⟨changed, raising, rest⟩ := yields_checked_bind.mp rest
  have held := solvent.held token contract found
  rw [modify_yields rest]
  rw [written] at raising ⊢
  have raised := raise_ok raising
  obtain ⟨moved, supply, approved, _⟩ := transferFrom_moves paid
  have spares := transferFrom_spares held.unapproved paid
  apply solvent.write found
  · intro other apart
    have same := lowered_owed raised other
    rw [if_neg apart] at same
    exact same.symm
  · refine ⟨moved.balanced held.balanced supply, spares.unapproved, ?_⟩
    have more : owed vault.wrapper token + _ = owed changed token := lowered_owed raised token
    have here := moved.shift keeper
    have enough := held.covered
    rw [if_pos rfl] at more here
    by_cases own : keeper = caller
    · -- the wrapper has approved nobody, itself included
      have nothing : (contract.allowance keeper keeper).toNat = 0 := congrArg BitVec.toNat (held.unapproved keeper)
      rw [← own, nothing] at approved
      rw [if_pos own] at here
      omega
    · rw [if_neg own] at here
      omega

theorem call_solvent {request : Call} (solvent : Solvent keeper vault) (allowed : Allowed keeper vault request)
    (done : call keeper vault request = .ok after) : Solvent keeper after := by
  obtain ⟨answer, yields⟩ := call_yields done
  cases request with
  | deposit => exact deposit_solvent solvent yields
  | withdraw => exact transferTo_solvent solvent yields
  | transferTo => exact transferTo_solvent solvent yields
  | token address request =>
    obtain ⟨contract, wrote, found, computed, written⟩ := callToken_yields yields
    have held := solvent.held address contract found
    rw [written]
    exact solvent.write found (fun _ _ => rfl)
      (held.spared (call_balanced request held.balanced computed) (foreign_spares held.unapproved allowed computed))
  | create address name symbol decimals mintValue creator =>
    have rest := yields_get_bind.mp yields
    obtain ⟨unused, rest⟩ := yields_require_bind.mp rest
    obtain ⟨contract, created, rest⟩ := yields_checked_bind.mp rest
    rw [modify_yields rest]
    have missing := Option.isNone_iff_eq_none.mp unused
    have fresh : Balanced { name, symbol, decimals } := rfl
    constructor
    · intro other there known
      change (vault.tokens.add address contract).find other = some there at known
      rw [Registry.find_add] at known
      cases before : vault.tokens.find other with
      | some old =>
        rw [before, Option.some_or] at known
        exact solvent.held other there (before.trans known)
      | none =>
        rw [before, Option.none_or] at known
        split at known
        case isFalse => cases known
        case isTrue =>
          cases known
          have nothing : owed vault.wrapper other = 0 := solvent.nothing other before
          refine ⟨mint_balanced fresh created, ?_, ?_⟩
          · obtain ⟨_, _, allowed⟩ := mint_adds created
            intro spender
            rw [allowance_eq, allowed]
            rfl
          · change owed vault.wrapper other ≤ _
            rw [nothing]
            exact Nat.zero_le _
    · intro other none_
      change (vault.tokens.add address contract).find other = none at none_
      rw [Registry.find_add] at none_
      exact solvent.nothing other (Option.or_eq_none_iff.mp none_).1

/-- A new wrapper, next to tokens that it has not called yet. -/
structure New (keeper : Address) (vault : Vault) : Prop where
  wrapper : vault.wrapper = {}
  tokens : ∀ token contract, vault.tokens.find token = some contract → ERC20.Reachable contract ∧ Unapproved keeper contract

theorem new_solvent (new : New keeper vault) : Solvent keeper vault := by
  have nothing : ∀ token, owed vault.wrapper token = 0 := by
    intro token
    rw [new.wrapper]
    rfl
  constructor
  · intro token contract found
    obtain ⟨reachable, unapproved⟩ := new.tokens token contract found
    refine ⟨reachable_balanced reachable, unapproved, ?_⟩
    rw [nothing]
    exact Nat.zero_le _
  · exact fun token _ => nothing token

private theorem reached_solvent (reached : Reached (call keeper) (New keeper) (Allowed keeper) vault) : Solvent keeper vault := by
  apply reached.keeps
  · exact fun vault new => new_solvent new
  · exact fun vault request after solvent allowed done => call_solvent solvent allowed done

/-- The user's record alone is lowered, and the receiver is paid. -/
structure TakenOut (keeper : Address) (before after : Vault) (token user target : Address) (value : Uint256) : Prop where
  lowered : Lowered before.wrapper after.wrapper token user value
  paid : ∃ contract changed, before.tokens.find token = some contract ∧ after.tokens.find token = some changed ∧
    Moved contract.balanceOf changed.balanceOf keeper target value

theorem transferTo_iff (solvent : Solvent keeper vault) :
    (∃ after, call keeper vault (.transferTo user token target value) = .ok after ∧ TakenOut keeper vault after token user target value) ↔
      value < getUserBalance vault.wrapper token user := by
  constructor
  · rintro ⟨after, done, _⟩
    obtain ⟨answer, yields⟩ := call_yields done
    obtain ⟨changed, lowering, _⟩ := yields_checked_bind.mp (yields_get_bind.mp yields)
    exact (lower_ok lowering).1
  · intro less
    obtain ⟨changed, lowering⟩ := lower_done less
    have part : ((vault.wrapper.tokensAndBalances.value token).value user).toNat ≤ owed vault.wrapper token :=
      Table.weight_le_total rfl _ user
    rw [← getUserBalance_eq] at part
    have less' := BitVec.lt_def.mp less
    -- a record means that the token is there
    obtain ⟨contract, found⟩ : ∃ contract, vault.tokens.find token = some contract := by
      cases found : vault.tokens.find token with
      | some contract => exact ⟨contract, rfl⟩
      | none =>
        have nothing := solvent.nothing token found
        omega
    have held := solvent.held token contract found
    have enough := held.covered
    have covered : value.toNat ≤ (contract.balanceOf keeper).toNat := by omega
    obtain ⟨wrote, paid⟩ : ∃ wrote, contract.transfer keeper target value = .ok wrote := transfer_done held.balanced covered
    refine ⟨{ wrapper := changed, tokens := vault.tokens.update token fun _ => wrote }, ?_, (lower_ok lowering).2, contract, wrote, found, ?_,
      (transfer_moves paid).1⟩
    · have ran : Yields (transferTo keeper user token target value) vault ()
          { wrapper := changed, tokens := vault.tokens.update token fun _ => wrote } := by
        apply yields_get_bind.mpr
        apply yields_checked_bind.mpr
        exact ⟨changed, lowering, yields_modify_bind.mpr (callToken_done found paid)⟩
      unfold call
      exact congrArg (Except.map Prod.snd) ran
    · exact (find_update vault.tokens wrote found token).trans (if_pos rfl)

/-- In every run what is owed of each token is there, and a user can take out what leaves
something of the record, and only that. -/
theorem deposits_covered (keeper : Address) (vault : Vault) (reached : Reached (call keeper) (New keeper) (Allowed keeper) vault) :
    (∀ token, owed vault.wrapper token ≤ (getContractBalance vault keeper token).toNat) ∧
    ∀ user token target value, value ≤ getUserBalance vault.wrapper token user →
      ((∃ after, call keeper vault (.withdraw user token value) = .ok after ∧ TakenOut keeper vault after token user user value) ↔
        value < getUserBalance vault.wrapper token user) ∧
      ((∃ after, call keeper vault (.transferTo user token target value) = .ok after ∧
          TakenOut keeper vault after token user target value) ↔ value < getUserBalance vault.wrapper token user) := by
  have solvent := reached_solvent reached
  constructor
  · intro token
    unfold getContractBalance
    cases found : vault.tokens.find token with
    | none => exact (solvent.nothing token found).le
    | some contract => exact (solvent.held token contract found).covered
  · intro user token target value _
    exact ⟨transferTo_iff solvent, transferTo_iff solvent⟩

/-- The account 9 has deposited fifty of its hundred with the wrapper at 5. -/
def deposited : Vault :=
  [.create 1 "A" "A" 18 100 9, .token 1 (.approve 9 5 100), .deposit 9 1 50].foldl (attempt (call 5)) {}

theorem deposited_reached : Reached (call 5) (New 5) (Allowed 5) deposited := by
  have new : New 5 {} := ⟨rfl, fun _ _ found => by cases found⟩
  have other : (9 : Address) ≠ 5 := by decide
  apply Throughout.reached _ (.start new)
  exact ⟨trivial, other, trivial, trivial⟩

theorem deposited_covered : (∀ token, owed deposited.wrapper token ≤ (getContractBalance deposited 5 token).toNat) ∧
    ∀ user token target value, value ≤ getUserBalance deposited.wrapper token user →
      ((∃ after, call 5 deposited (.withdraw user token value) = .ok after ∧ TakenOut 5 deposited after token user user value) ↔
        value < getUserBalance deposited.wrapper token user) ∧
      ((∃ after, call 5 deposited (.transferTo user token target value) = .ok after ∧ TakenOut 5 deposited after token user target value) ↔
        value < getUserBalance deposited.wrapper token user) :=
  deposits_covered 5 deposited deposited_reached

/-- The fifty cannot be withdrawn at once. -/
theorem deposited_stuck : Reached (call 5) (New 5) (Allowed 5) deposited ∧ getUserBalance deposited.wrapper 1 9 = 50 ∧
    getContractBalance deposited 5 1 = 50 ∧ (call 5 deposited (.withdraw 9 1 50)).toOption.isNone :=
  ⟨deposited_reached, by decide, by decide, by decide⟩

end OrbiterSDK.Proofs.Custody
