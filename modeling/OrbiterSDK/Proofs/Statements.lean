import OrbiterSDK.Proofs.HostCommit
import OrbiterSDK.State

/-! The statements of the transaction code, one rule each. Code that only moves
value is known by the balances it leaves, since it changes nothing else. -/

namespace OrbiterSDK.Proofs.Statements
open Lib State

variable {World : Type} {α β : Type}

/-- The current balance of an account as a number. -/
def held (state : State World) (addr : Address) : Nat := (state.balanceOf addr).toNat

theorem held_lt (state : State World) (addr : Address) : held state addr < 2 ^ 256 := BitVec.isLt _

/-- A state with another host. -/
def withHost (state : State World) (host : EVMHost) : State World := { state with evmHost := host }

@[simp] theorem withHost_evmHost (state : State World) (host : EVMHost) : (withHost state host).evmHost = host := rfl

def setHeld (state : State World) (addr : Address) (balance : Uint256) : State World :=
  withHost state (state.evmHost.setBalance addr balance)

theorem held_setHeld (state : State World) (addr other : Address) (balance : Uint256) :
    held (setHeld state addr balance) other = if other = addr then balance.toNat else held state other := by
  simp only [held, setHeld, State.balanceOf, EVMHost.balanceOf, EVMHost.account, withHost_evmHost, EVMHost.setBalance,
    Table.modify_value]
  split
  case isTrue => rfl
  case isFalse => rfl

@[simp] theorem eval_onHost (update : EVMHost → EVMHost) (state : State World) :
    (onHost update).eval state = (.ok (), withHost state (update state.evmHost)) := rfl

@[simp] theorem eval_checked_ok (value : α) (state : State World) :
    (checked (.ok value)).eval state = (.ok value, state) := rfl

@[simp] theorem eval_checked_error (what : Exception) (state : State World) :
    (checked (.error what) : Act World α).eval state = (.error (.exception what), state) := rfl

theorem eval_seq_ok {first : Act World α} {next : α → Act World β} {state after : State World} {value : α}
    (returns : first.eval state = (.ok value, after)) : (first >>= next).eval state = (next value).eval after := by
  rw [Action.eval_bind, returns]

theorem eval_seq_error {first : Act World α} {next : α → Act World β} {state after : State World} {stop : Stop}
    (throws : first.eval state = (.error stop, after)) : (first >>= next).eval state = (.error stop, after) := by
  rw [Action.eval_bind, throws]

theorem eval_catching_ok {body : Act World α} {handler : Exception → Act World α} {state after : State World} {value : α}
    (returns : body.eval state = (.ok value, after)) : (catching body handler).eval state = (.ok value, after) := by
  rw [catching, Action.eval_tryCatch, returns]

theorem eval_catching_exception {body : Act World α} {handler : Exception → Act World α} {state after : State World}
    {what : Exception} (throws : body.eval state = (.error (.exception what), after)) :
    (catching body handler).eval state = (handler what).eval after := by
  rw [catching, Action.eval_tryCatch, throws]

variable (env : Env World) (addr : Address) (amount : Uint256) (state : State World)

theorem eval_credit : (credit env addr amount).eval state =
    if held state addr + amount.toNat < 2 ^ 256 then
      (.ok (), setHeld state addr (BitVec.ofNat 256 (held state addr + amount.toNat)))
    else (.error (.exception Uint256.overflow), setHeld state addr (env.overflowed (state.balanceOf addr) amount)) := by
  unfold credit
  rw [Action.eval_bind, Action.eval_get]
  by_cases fits : held state addr + amount.toNat < 2 ^ 256
  · rw [if_pos fits]
    simp only [Uint256.add, if_pos (show (state.balanceOf addr).toNat + amount.toNat < 2 ^ 256 from fits)]
    rfl
  · rw [if_neg fits]
    simp only [Uint256.add, if_neg (show ¬ (state.balanceOf addr).toNat + amount.toNat < 2 ^ 256 from fits)]
    rfl

theorem eval_debit : (debit env addr amount).eval state =
    if amount.toNat ≤ held state addr then
      (.ok (), setHeld state addr (BitVec.ofNat 256 (held state addr - amount.toNat)))
    else (.error (.exception Uint256.negative), setHeld state addr (env.underflowed (state.balanceOf addr) amount)) := by
  unfold debit
  rw [Action.eval_bind, Action.eval_get]
  by_cases covered : amount.toNat ≤ held state addr
  · rw [if_pos covered]
    simp only [Uint256.sub, if_pos (show amount.toNat ≤ (state.balanceOf addr).toNat from covered)]
    rfl
  · rw [if_neg covered]
    simp only [Uint256.sub, if_neg (show ¬ amount.toNat ≤ (state.balanceOf addr).toNat from covered)]
    rfl

variable {addr amount state}

theorem credit_ok (fits : held state addr + amount.toNat < 2 ^ 256) :
    ∃ after, (credit env addr amount).eval state = (.ok (), after) ∧
      after = setHeld state addr (BitVec.ofNat 256 (held state addr + amount.toNat)) ∧
      ∀ other, held after other = if other = addr then held state addr + amount.toNat else held state other := by
  refine ⟨_, by rw [eval_credit, if_pos fits], rfl, fun other => ?_⟩
  rw [held_setHeld, BitVec.toNat_ofNat, Nat.mod_eq_of_lt fits]

theorem debit_ok (covered : amount.toNat ≤ held state addr) :
    ∃ after, (debit env addr amount).eval state = (.ok (), after) ∧
      after = setHeld state addr (BitVec.ofNat 256 (held state addr - amount.toNat)) ∧
      ∀ other, held after other = if other = addr then held state addr - amount.toNat else held state other := by
  refine ⟨_, by rw [eval_debit, if_pos covered], rfl, fun other => ?_⟩
  rw [held_setHeld, BitVec.toNat_ofNat, Nat.mod_eq_of_lt (lt_of_le_of_lt (Nat.sub_le _ _) (held_lt state addr))]

theorem credit_error (wide : ¬ held state addr + amount.toNat < 2 ^ 256) : (credit env addr amount).eval state =
    (.error (.exception Uint256.overflow), setHeld state addr (env.overflowed (state.balanceOf addr) amount)) := by
  rw [eval_credit, if_neg wide]

theorem debit_error (short : ¬ amount.toNat ≤ held state addr) : (debit env addr amount).eval state =
    (.error (.exception Uint256.negative), setHeld state addr (env.underflowed (state.balanceOf addr) amount)) := by
  rw [eval_debit, if_neg short]

/-- Only current balances and the list of accounts with accessed balances differ. -/
structure Paid (before after : State World) : Prop where
  account : ∀ addr, after.evmHost.account addr = { before.evmHost.account addr with
    balance := ⟨(before.evmHost.account addr).balance.first, after.balanceOf addr⟩ }
  host : after.evmHost = { before.evmHost with
    accounts := after.evmHost.accounts
    accessedAccountsBalances := after.evmHost.accessedAccountsBalances }
  keys : before.evmHost.accounts.keys ⊆ after.evmHost.accounts.keys
  state : after = withHost before after.evmHost

theorem Paid.refl (state : State World) : Paid state state := ⟨fun _ => rfl, rfl, Finset.Subset.refl _, rfl⟩

theorem Paid.trans {first second third : State World} (early : Paid first second) (late : Paid second third) :
    Paid first third where
  account addr := by rw [late.account, early.account]
  host := by rw [late.host, early.host]
  keys := early.keys.trans late.keys
  state := by rw [late.state, early.state]; rfl

theorem Paid.first {before after : State World} (paid : Paid before after) (addr : Address) :
    (after.evmHost.account addr).balance.first = (before.evmHost.account addr).balance.first := by
  rw [paid.account]

theorem Paid.payable {before after : State World} (paid : Paid before after) :
    after.processingPayable = before.processingPayable := by
  rw [paid.state]
  rfl

theorem paid_setHeld (state : State World) (addr : Address) (balance : Uint256) : Paid state (setHeld state addr balance) where
  account other := by
    simp only [setHeld, withHost_evmHost, State.balanceOf, EVMHost.balanceOf, EVMHost.account, EVMHost.setBalance,
      Table.modify_value]
    split
    case isTrue same => rw [same]; rfl
    case isFalse => rfl
  host := rfl
  keys := Finset.subset_insert _ _
  state := rfl

/-- A balance noted as accessed. -/
def noted (state : State World) (addr : Address) : State World :=
  withHost state { state.evmHost with accessedAccountsBalances := state.evmHost.accessedAccountsBalances ++ [addr] }

@[simp] theorem eval_pushBalance (addr : Address) (state : State World) :
    (pushBalance addr).eval state = (.ok (), noted state addr) := rfl

@[simp] theorem held_noted (state : State World) (addr other : Address) : held (noted state addr) other = held state other := rfl

theorem paid_noted (state : State World) (addr : Address) : Paid state (noted state addr) :=
  ⟨fun _ => rfl, rfl, Finset.Subset.refl _, rfl⟩

end OrbiterSDK.Proofs.Statements
