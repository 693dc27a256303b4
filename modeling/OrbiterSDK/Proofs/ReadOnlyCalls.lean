import OrbiterSDK.Proofs.Alike
import OrbiterSDK.Proofs.BlockCompletion
import OrbiterSDK.Proofs.DryRuns
import OrbiterSDK.Proofs.Marks

/-! When `eth_call` and `eth_estimateGas` leave no trace. They run on the live accounts
and take back what was noted as accessed, so a trace stays where something was not noted,
where an original value was not the current one, and where an account was created by
looking at it. -/

namespace OrbiterSDK.Proofs.ReadOnlyCalls
open Lib State Action HostCommit Statements Transaction Locks DryRuns Frames Marks Alike Conservation BlockCompletion

variable {World : Type} {before after : EVMHost}

/-- Everything that a read-only call has to leave as it was. -/
structure Undisturbed (before after : EVMHost) : Prop where
  balance : ∀ addr, after.balanceOf addr = before.balanceOf addr
  nonce : ∀ addr, (after.account addr).nonce.second = (before.account addr).nonce.second
  code : ∀ addr, (after.account addr).code.second = (before.account addr).code.second
  codeHash : ∀ addr, after.getCodeHash addr = before.getCodeHash addr
  storage : ∀ addr key, after.getStorage addr key = before.getStorage addr key
  transientStorage : ∀ addr key, after.getTransientStorage addr key = before.getTransientStorage addr key
  contractAddresses : after.contractAddresses = before.contractAddresses
  emittedEvents : after.emittedEvents = before.emittedEvents
  accessedAccountsBalances : after.accessedAccountsBalances = before.accessedAccountsBalances
  accessedAccountsCode : after.accessedAccountsCode = before.accessedAccountsCode
  accessedAccountsNonces : after.accessedAccountsNonces = before.accessedAccountsNonces
  accessedStorages : after.accessedStorages = before.accessedStorages
  accessedTransients : after.accessedTransients = before.accessedTransients
  recentlyCreatedContracts : after.recentlyCreatedContracts = before.recentlyCreatedContracts
  shouldRevert : after.shouldRevert = before.shouldRevert

theorem HostAlike.undisturbed {seeded : Prop} (alike : HostAlike seeded after before) :
    Undisturbed before after where
  balance addr := alike.balanceOf addr
  nonce addr := by rw [(alike.account addr).nonce]
  code addr := by rw [(alike.account addr).code]
  codeHash addr := congrArg Versioned.second (alike.account addr).codeHash
  storage addr key := congrArg Versioned.second ((alike.account addr).storage key)
  transientStorage addr key := (alike.account addr).transientStorage key
  contractAddresses := alike.contractAddresses
  emittedEvents := alike.emittedEvents
  accessedAccountsBalances := alike.accessedAccountsBalances
  accessedAccountsCode := alike.accessedAccountsCode
  accessedAccountsNonces := alike.accessedAccountsNonces
  accessedStorages := alike.accessedStorages
  accessedTransients := alike.accessedTransients
  recentlyCreatedContracts := alike.recentlyCreatedContracts
  shouldRevert := alike.shouldRevert

section Rollback

variable {callInfo : EthCallInfo} {marks : List Mark} {state moved : State World} {host : EVMHost}

end Rollback

variable {env : Env World} {callInfo : EthCallInfo} {state : State World}

end OrbiterSDK.Proofs.ReadOnlyCalls
