import OrbiterSDK.Templates.ERC20

/-! Accounting of the token contract. Each call is described by what it adds to and takes
from the balances, so that accounts which coincide need no cases of their own. -/

namespace OrbiterSDK.Proofs.TokenSupply
open Lib ERC20

/-- What a payment of `amount` does to the balances. -/
structure Moved (balances after : Address → Uint256) (source target : Address) (amount : Uint256) : Prop where
  covered : amount.toNat ≤ (balances source).toNat
  shift : ∀ account, (after account).toNat + (if account = source then amount.toNat else 0) =
    (balances account).toNat + if account = target then amount.toNat else 0

section Balances
variable {balances after : Table Address Uint256} {account : Address} {amount : Uint256}

theorem credit_adds (done : credit balances account amount = .ok after) (other : Address) :
    (after.value other).toNat = (balances.value other).toNat + if other = account then amount.toNat else 0 := by
  obtain ⟨sum, added, same⟩ := bind_eq_ok.mp done
  have exact_ := Uint256.add_eq_ok.mp added
  cases pure_eq_ok.mp same
  by_cases here : other = account
  · rw [here, Table.modify_value_self, if_pos rfl]
    exact exact_
  · rw [Table.modify_value_of_ne _ _ here, if_neg here, Nat.add_zero]

theorem debit_takes (done : debit balances account amount = .ok after) :
    amount.toNat ≤ (balances.value account).toNat ∧ ∀ other,
      (after.value other).toNat + (if other = account then amount.toNat else 0) = (balances.value other).toNat := by
  obtain ⟨rest, taken, same⟩ := bind_eq_ok.mp done
  have exact_ := Uint256.sub_eq_ok.mp taken
  cases pure_eq_ok.mp same
  refine ⟨by omega, fun other => ?_⟩
  by_cases here : other = account
  · rw [here, Table.modify_value_self, if_pos rfl]
    exact exact_.symm
  · rw [Table.modify_value_of_ne _ _ here, if_neg here, Nat.add_zero]

theorem payment_moves {between : Table Address Uint256} {target : Address} (first : debit balances account amount = .ok between)
    (second : credit between target amount = .ok after) : Moved balances.value after.value account target amount := by
  obtain ⟨covered, taken⟩ := debit_takes first
  refine ⟨covered, fun other => ?_⟩
  have here := taken other
  have there := credit_adds second other
  omega

theorem credit_total (done : credit balances account amount = .ok after) :
    after.total BitVec.toNat = balances.total BitVec.toNat + amount.toNat := by
  have shift : ∀ other, (after.value other).toNat + (if other = account then 0 else 0) =
      (balances.value other).toNat + if other = account then amount.toNat else 0 := by
    intro other
    rw [credit_adds done, ite_self, Nat.add_zero]
  exact Table.total_shift rfl shift

theorem debit_total (done : debit balances account amount = .ok after) :
    after.total BitVec.toNat + amount.toNat = balances.total BitVec.toNat := by
  have shift : ∀ other, (after.value other).toNat + (if other = account then amount.toNat else 0) =
      (balances.value other).toNat + if other = account then 0 else 0 := by
    intro other
    rw [(debit_takes done).2, ite_self, Nat.add_zero]
  exact Table.total_shift rfl shift

theorem Moved.total {source target : Address} (moved : Moved balances.value after.value source target amount) :
    after.total BitVec.toNat = balances.total BitVec.toNat :=
  Nat.add_right_cancel (Table.total_shift rfl moved.shift)

theorem Moved.idle {before later : Address → Uint256} {source target : Address} (moved : Moved before later source target amount)
    (idle : source = target ∨ amount = 0) : later = before := by
  funext other
  apply BitVec.eq_of_toNat_eq
  have shift := moved.shift other
  cases idle with
  | inl same =>
    rw [same] at shift
    omega
  | inr nothing =>
    have zero : amount.toNat = 0 := congrArg BitVec.toNat nothing
    rw [zero, ite_self, ite_self] at shift
    exact shift

end Balances

variable {token after : ERC20}

theorem balanceOf_eq (token : ERC20) : token.balanceOf = token.balances.value := by
  funext owner
  exact token.balances.find_getD owner

theorem allowance_eq (token : ERC20) (owner spender : Address) :
    token.allowance owner spender = (token.allowed.value owner).value spender := by
  unfold allowance
  cases found : token.allowed.find owner with
  | none =>
    rw [Table.find_eq_none found]
    rfl
  | some spenders =>
    rw [(Table.find_eq_some found).2]
    exact spenders.find_getD spender

variable {amount : Uint256}

theorem transfer_moves {caller target : Address} (done : token.transfer caller target amount = .ok after) :
    Moved token.balanceOf after.balanceOf caller target amount ∧ after.totalSupply = token.totalSupply ∧
      after.allowed = token.allowed := by
  obtain ⟨between, first, rest⟩ := bind_eq_ok.mp done
  obtain ⟨balances, second, rfl⟩ := build_eq_ok.mp rest
  rw [balanceOf_eq, balanceOf_eq]
  exact ⟨payment_moves first second, rfl, rfl⟩

/-- A spender pays with the owner's tokens and with the allowance that the owner gave. -/
theorem transferFrom_moves {caller source target : Address}
    (done : token.transferFrom caller source target amount = .ok after) :
    Moved token.balanceOf after.balanceOf source target amount ∧ after.totalSupply = token.totalSupply ∧
      amount.toNat ≤ (token.allowance source caller).toNat ∧
      ∀ owner spender, (after.allowance owner spender).toNat +
        (if owner = source ∧ spender = caller then amount.toNat else 0) = (token.allowance owner spender).toNat := by
  obtain ⟨spenders, allowed, rest⟩ := bind_eq_ok.mp done
  obtain ⟨between, first, rest⟩ := bind_eq_ok.mp rest
  obtain ⟨balances, second, rfl⟩ := build_eq_ok.mp rest
  obtain ⟨covered, lowered⟩ := debit_takes allowed
  rw [balanceOf_eq, balanceOf_eq, allowance_eq]
  refine ⟨payment_moves first second, rfl, covered, fun owner spender => ?_⟩
  rw [allowance_eq, allowance_eq]
  by_cases here : owner = source
  · rw [here, Table.modify_value_self]
    simp only [true_and]
    exact lowered spender
  · rw [Table.modify_value_of_ne _ _ here]
    simp only [here, false_and, if_false, Nat.add_zero]

/-- What the balances add up to. -/
def Balanced (token : ERC20) : Prop := token.balances.total BitVec.toNat = token.totalSupply.toNat

theorem balance_le_supply (balanced : Balanced token) (account : Address) : (token.balanceOf account).toNat ≤ token.totalSupply.toNat := by
  rw [balanceOf_eq, ← balanced]
  exact Table.weight_le_total rfl token.balances account

/-- A payment that is covered goes through: what the receiver has then is still a part of the supply. -/
theorem transfer_done {caller target : Address} (balanced : Balanced token)
    (covered : amount.toNat ≤ (token.balanceOf caller).toNat) : ∃ after, token.transfer caller target amount = .ok after := by
  rw [balanceOf_eq] at covered
  obtain ⟨rest, taken⟩ := Uint256.sub_done covered
  let between := token.balances.modify caller fun _ => rest
  have debited : debit token.balances caller amount = .ok between := bind_eq_ok.mpr ⟨rest, taken, rfl⟩
  have left := debit_total debited
  have part : (between.value target).toNat ≤ between.total BitVec.toNat := Table.weight_le_total rfl between target
  have supply := token.totalSupply.isLt
  unfold Balanced at balanced
  obtain ⟨sum, added⟩ : ∃ sum, Uint256.add (between.value target) amount = .ok sum := Uint256.add_done (by omega)
  have credited : credit between target amount = .ok (between.modify target fun _ => sum) := bind_eq_ok.mpr ⟨sum, added, rfl⟩
  exact ⟨_, bind_eq_ok.mpr ⟨between, debited, bind_eq_ok.mpr ⟨_, credited, rfl⟩⟩⟩

theorem Moved.balanced {source target : Address} (before : Balanced token)
    (moved : Moved token.balanceOf after.balanceOf source target amount) (supply : after.totalSupply = token.totalSupply) :
    Balanced after := by
  rw [balanceOf_eq, balanceOf_eq] at moved
  unfold Balanced
  rw [moved.total, supply]
  exact before

theorem mint_adds {account : Address} (done : token.mintValue_ account amount = .ok after) :
    credit token.balances account amount = .ok after.balances ∧
      after.totalSupply.toNat = token.totalSupply.toNat + amount.toNat ∧ after.allowed = token.allowed := by
  obtain ⟨balances, credited, rest⟩ := bind_eq_ok.mp done
  obtain ⟨supply, added, rfl⟩ := build_eq_ok.mp rest
  exact ⟨credited, SafeUint.addAssign_eq_ok.mp added, rfl⟩

theorem burn_takes {account : Address} (done : token.burnValue_ account amount = .ok after) :
    debit token.balances account amount = .ok after.balances ∧
      token.totalSupply.toNat = after.totalSupply.toNat + amount.toNat ∧ after.allowed = token.allowed := by
  obtain ⟨balances, debited, rest⟩ := bind_eq_ok.mp done
  obtain ⟨supply, taken, rfl⟩ := build_eq_ok.mp rest
  exact ⟨debited, SafeUint.subAssign_eq_ok.mp taken, rfl⟩

theorem mint_balanced {account : Address} (before : Balanced token)
    (done : token.mintValue_ account amount = .ok after) : Balanced after := by
  obtain ⟨credited, supply, _⟩ := mint_adds done
  unfold Balanced
  rw [credit_total credited, supply, before]

theorem call_balanced (request : Call) (before : Balanced token) (done : token.call request = .ok after) : Balanced after := by
  cases request with
  | transfer caller target amount =>
    obtain ⟨moved, supply, _⟩ := transfer_moves done
    exact moved.balanced before supply
  | approve caller spender amount =>
    cases done
    exact before
  | transferFrom caller source target amount =>
    obtain ⟨moved, supply, _⟩ := transferFrom_moves done
    exact moved.balanced before supply
  | mintValue_ account amount => exact mint_balanced before done
  | burnValue_ account amount =>
    obtain ⟨debited, supply, _⟩ := burn_takes done
    have total := debit_total debited
    unfold Balanced at before ⊢
    omega

theorem reachable_balanced (reachable : Reachable token) : Balanced token := by
  apply reachable.keeps
  · intro token created
    obtain ⟨name, symbol, decimals, mintValue, creator, done⟩ := created
    have fresh : Balanced { name, symbol, decimals } := rfl
    exact mint_balanced fresh done
  · intro token request after before _ done
    exact call_balanced request before done

/-- The balances add up to the supply, a spender is bounded by the allowance and the balance,
and payments to oneself or of nothing leave every balance alone. -/
theorem tokens_accounted (reachable : Reachable token) :
    token.balances.total BitVec.toNat = token.totalSupply.toNat ∧
    (∀ caller «from» «to» value after, token.transferFrom caller «from» «to» value = .ok after →
      value.toNat ≤ (token.allowance «from» caller).toNat ∧ value.toNat ≤ (token.balanceOf «from»).toNat ∧
      (∀ owner spender, (after.allowance owner spender).toNat +
        (if owner = «from» ∧ spender = caller then value.toNat else 0) = (token.allowance owner spender).toNat) ∧
      («from» = «to» ∨ value = 0 → after.balanceOf = token.balanceOf)) ∧
    (∀ caller «to» value after, token.transfer caller «to» value = .ok after →
      (caller = «to» ∨ value = 0 → after.balanceOf = token.balanceOf)) := by
  refine ⟨reachable_balanced reachable, ?_, ?_⟩
  · intro caller source target value after done
    obtain ⟨moved, _, allowed, lowered⟩ := transferFrom_moves done
    exact ⟨allowed, moved.covered, lowered, moved.idle⟩
  · intro caller target value after done
    exact (transfer_moves done).1.idle

def newToken : ERC20 :=
  { name := "Token", symbol := "TKN", decimals := 18, totalSupply := 100
    balances := (default : Table Address Uint256).modify 1 fun _ => 100 }

/-- Two payments by a spender, the second of which is more than the allowance that is left. -/
def paidToken : ERC20 :=
  [.transfer 1 2 30, .approve 2 3 20, .transferFrom 3 2 1 15, .transferFrom 3 2 1 15].foldl (attempt call) newToken

theorem paidToken_accounted : paidToken.balances.total BitVec.toNat = paidToken.totalSupply.toNat ∧
    paidToken.balanceOf 1 = 85 ∧ paidToken.balanceOf 2 = 15 ∧ paidToken.allowance 2 3 = 5 := by
  have created : Reachable newToken := .start ⟨"Token", "TKN", 18, 100, 1, rfl⟩
  have reachable : Reachable paidToken := created.foldl (fun _ _ => trivial) _
  exact ⟨(tokens_accounted reachable).1, by decide, by decide, by decide⟩

end OrbiterSDK.Proofs.TokenSupply
