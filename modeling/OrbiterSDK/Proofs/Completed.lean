import OrbiterSDK.Proofs.Frames
import OrbiterSDK.Proofs.Versions

/-! The ends of transactions that complete: in the machine's branch everything the machine
did is kept or everything is taken back, and outside of it no code changes. -/

namespace OrbiterSDK.Proofs.Completed
open Lib State HostRun HostCommit Frames Statements Transaction Classic Paths Versions

variable {World : Type}

/-- How the `try` block of the machine's branch ends: what the machine did is kept, or the
handler finds the host that the machine left, with only the sender's balance changed since. -/
theorem evmBody_ends (env : Env World) (tx : TxBlock) (block : BlockContext) (txIndex : UInt64) (moved : State World) :
    (∃ result host, machine env tx block moved = (.ok result, host) ∧ ¬ Failed result host ∧
      (evmBody env tx block txIndex).eval moved =
        (.ok (), withHost (logged tx block txIndex (charged tx result (withHost moved host)))
          (charged tx result (withHost moved host)).evmHost.commit.commitCode)) ∨
    ∃ what later host, (evmBody env tx block txIndex).eval moved = (.error (.exception what), later) ∧
      Executed (prepared tx block moved) host ∧ Paid (withHost moved host) later := by
  rcases seen : machine env tx block moved with ⟨what | result, host⟩
  · exact .inr ⟨what, _, host, evmBody_refused seen, Ran.executed (machine_error seen).2, Paid.refl _⟩
  have executed := (machine_ok seen).2.1
  by_cases fits : feeOf tx result < 2 ^ 256
  · by_cases covered : feeOf tx result ≤ held (withHost moved host) tx.from
    · by_cases failed : Failed result host
      · exact .inr ⟨_, _, host, evmBody_failed seen covered failed, executed, paid_setHeld _ _ _⟩
      · exact .inl ⟨result, host, rfl, failed, evmBody_succeeded seen covered failed⟩
    · exact .inr ⟨_, _, host, evmBody_unpaid seen fits (by omega), executed, paid_setHeld _ _ _⟩
  · exact .inr ⟨_, _, host, evmBody_overcharged seen (by omega), executed, Paid.refl _⟩

variable {env : Env World} {tx : TxBlock} {block : BlockContext} {txIndex : UInt64} {state moved after : State World}

/-- The state in which everything the machine did is kept. -/
def kept (tx : TxBlock) (block : BlockContext) (txIndex : UInt64) (moved : State World) (result : EvmcResult)
    (host : EVMHost) : State World :=
  withHost (logged tx block txIndex (charged tx result (withHost moved host)))
    (charged tx result (withHost moved host)).evmHost.commit.commitCode

theorem written_caught {later returned : State World} {host : EVMHost} (executed : Executed (prepared tx block moved) host)
    (paid : Paid (withHost moved host) later) (back : Returned env tx later returned) :
    Written (prepared tx block moved) returned.evmHost := by
  have start : Written (prepared tx block moved) (withHost moved host).evmHost := executed.toWritten
  have thrown := written_paid start paid
  have calm : Written (prepared tx block moved) (calmed later).evmHost := { thrown with }
  exact written_paid calm back.paid

theorem process_machine (evm : isEvmTransaction tx state = true)
    (done : (processTransaction env tx block txIndex).eval state = (.ok (), after)) :
    ∃ moved, (enterMachine env tx).eval (entered tx state) = (.ok (), moved) ∧ Moved env tx (entered tx state) moved ∧
      ((∃ result host, machine env tx block moved = (.ok result, host) ∧ ¬ Failed result host ∧
          (evmBody env tx block txIndex).eval moved = (.ok (), kept tx block txIndex moved result host) ∧
          after = finished tx (kept tx block txIndex moved result host)) ∨
        ∃ what later returned, (evmBody env tx block txIndex).eval moved = (.error (.exception what), later) ∧
          Written (prepared tx block moved) returned.evmHost ∧ after = finished tx (reverted returned)) := by
  by_cases transferable : Transferable env tx state
  · obtain ⟨moved, entry, shift⟩ := enterMachine_ok (transferable_entered.mpr transferable)
    refine ⟨moved, entry, shift, ?_⟩
    rcases evmBody_ends env tx block txIndex moved with ⟨result, host, ran, passed, body⟩ | ⟨what, later, host, body, executed, paid⟩
    · rw [process_succeeded evm entry body] at done
      cases done
      exact .inl ⟨result, host, ran, passed, body, rfl⟩
    · by_cases returnable : Returnable env tx later
      · obtain ⟨returned, completes, back⟩ := process_caught evm entry body returnable
        rw [completes] at done
        cases done
        exact .inr ⟨what, later, returned, body, written_caught executed paid back, rfl⟩
      · obtain ⟨error, stopped, escapes⟩ := process_escaped evm entry body returnable
        rw [escapes] at done
        cases done
  · obtain ⟨error, stopped, escapes⟩ := @process_stuck _ env tx block txIndex state evm transferable
    rw [escapes] at done
    cases done

/-- The machine starts from the accounts of the state, balances apart. -/
theorem account_prepared (shift : Moved env tx (entered tx state) moved) (addr : Address) :
    (prepared tx block moved).account addr = { state.evmHost.account addr with
      balance := ⟨(state.evmHost.account addr).balance.first, moved.balanceOf addr⟩ } := by
  have here := shift.paid.account addr
  rwa [account_entered] at here

/-- An account has the same code as before. -/
def SameCode (before after : State World) (addr : Address) : Prop :=
  (after.evmHost.account addr).code = (before.evmHost.account addr).code ∧
    (after.evmHost.account addr).codeHash = (before.evmHost.account addr).codeHash

/-- No code waits to be committed or taken back. -/
def LevelCode (state : State World) : Prop :=
  ∀ addr, (state.evmHost.account addr).code.InStep ∧ (state.evmHost.account addr).codeHash.InStep

theorem plain_sameCode : Plain fun before after : State World => ∀ addr, SameCode before after addr where
  refl _ _ := ⟨rfl, rfl⟩
  trans early late addr := ⟨(late addr).1.trans (early addr).1, (late addr).2.trans (early addr).2⟩
  plainHost state host step _ addr := by
    cases step with
    | beside beside => exact ⟨beside.code addr, beside.codeHash addr⟩
    | commit => exact ⟨commit_code _ addr, commit_codeHash _ addr⟩
  manager _ _ _ _ := ⟨rfl, rfl⟩
  payable _ _ _ := ⟨rfl, rfl⟩

theorem sameCode_finished (tx : TxBlock) (state : State World) (addr : Address) : SameCode state (finished tx state) addr :=
  ⟨finished_project EVMAccount.code (fun _ _ => rfl) (fun _ _ => rfl) tx state addr,
    finished_project EVMAccount.codeHash (fun _ _ => rfl) (fun _ _ => rfl) tx state addr⟩

theorem SameCode.trans {first second third : State World} {addr : Address} (early : SameCode first second addr)
    (late : SameCode second third addr) : SameCode first third addr :=
  ⟨late.1.trans early.1, late.2.trans early.2⟩

theorem sameCode_classic (classic : isEvmTransaction tx state = false)
    (done : (processTransaction env tx block txIndex).eval state = (.ok (), after)) (addr : Address) :
    SameCode state after addr := by
  have followed := follows_classicTransaction plain_sameCode env tx txIndex (entered tx state) addr
  rw [processTransaction_eq, dispatch_classic classic] at done
  rcases seen : (classicTransaction env tx txIndex).eval (entered tx state) with ⟨stop | value, later⟩
  · rw [seen] at done
    cases done
  · rw [seen] at done followed
    cases done
    have entry : SameCode state (entered tx state) addr := by
      unfold SameCode
      rw [account_entered]
      exact ⟨rfl, rfl⟩
    exact (entry.trans followed).trans (sameCode_finished tx later addr)

/-- What a run did to code that was level is taken back. -/
theorem sameCode_reverted {returned : State World} (level : LevelCode state) (shift : Moved env tx (entered tx state) moved)
    (written : Written (prepared tx block moved) returned.evmHost) (addr : Address) :
    SameCode state (finished tx (reverted returned)) addr := by
  refine SameCode.trans ⟨?_, ?_⟩ (sameCode_finished tx (reverted returned) addr)
  · refine (undone_code written addr).trans ?_
    rw [account_prepared shift]
    split
    · exact Versioned.revert_eq_iff.mpr (level addr).1
    · rfl
  · refine (undone_codeHash written addr).trans ?_
    rw [account_prepared shift]
    split
    · exact Versioned.revert_eq_iff.mpr (level addr).2
    · rfl

/-- Code that the machine has not written stays as it was. -/
theorem sameCode_kept {result : EvmcResult} {host : EVMHost} {addr : Address} (level : LevelCode state)
    (shift : Moved env tx (entered tx state) moved)
    (code : (host.account addr).code = ((prepared tx block moved).account addr).code)
    (codeHash : (host.account addr).codeHash = ((prepared tx block moved).account addr).codeHash) :
    SameCode state (finished tx (kept tx block txIndex moved result host)) addr := by
  have paid : Paid (withHost moved host) (charged tx result (withHost moved host)) := paid_setHeld _ _ _
  rw [account_prepared shift] at code codeHash
  refine SameCode.trans ⟨?_, ?_⟩ (sameCode_finished tx _ addr)
  · rw [kept, withHost_evmHost, commitCode_code, commit_code, paid.account]
    rw [withHost_evmHost, code]
    split
    · exact Versioned.commit_eq_iff.mpr (level addr).1
    · rfl
  · rw [kept, withHost_evmHost, commitCode_codeHash, commit_codeHash, paid.account]
    rw [withHost_evmHost, codeHash]
    split
    · exact Versioned.commit_eq_iff.mpr (level addr).2
    · rfl

end OrbiterSDK.Proofs.Completed
