import OrbiterSDK.Lib.Staged
import OrbiterSDK.Proofs.HostRuns
import OrbiterSDK.Proofs.InnerCalls
import OrbiterSDK.Proofs.SteadyRuns

/-! Contract storage is a staged store. The pair in every slot and the list of accessed
slots implement it as long as every slot whose values differ is on the list. -/

namespace OrbiterSDK.Proofs.StorageOverlay
open Lib State HostRun HostCommit HostSteps HostRuns InnerCalls Versions SteadyRuns

/-- The hosts that a node can hold: constructed from a database, and changed by statements
of the state and by callbacks of the machine. -/
inductive HostReachable : EVMHost → Prop where
  | load (db : Database) : HostReachable (loadHost db)
  | statement {before after : EVMHost} (reachable : HostReachable before) (step : HostStep before after) : HostReachable after
  | callback {host : EVMHost} (reachable : HostReachable host) (request : HostRequest) : HostReachable (host.answer request).2

/-- Every slot whose values differ is on the list of accessed slots. -/
def Listed (host : EVMHost) : Prop :=
  ∀ addr key, (addr, key) ∉ host.accessedStorages → ((host.account addr).storage.value key).InStep

/-- The original and the current values of all slots. -/
def view (host : EVMHost) : Staged (Address × Hash) Hash where
  committed slot := ((host.account slot.1).storage.value slot.2).first
  current := storageOf host

def storageCall (host : EVMHost) : StagedCall (Address × Hash) Hash → EVMHost
  | .write slot value => (host.answer (.setStorage slot.1 slot.2 value)).2
  | .read slot => (host.answer (.getStorage slot.1 slot.2)).2
  | .commit => host.commit
  | .revert => host.revert

def storageCalls (host : EVMHost) (calls : List (StagedCall (Address × Hash) Hash)) : EVMHost := calls.foldl storageCall host

section Listed
variable {host after : EVMHost}

theorem Listed.ran (listed : Listed host) (ran : Ran host after) : Listed after := by
  intro addr key unlisted
  rw [ran.storage addr key unlisted]
  exact listed addr key fun noted => unlisted (ran.accessedStorages.subset noted)

theorem Listed.commit (listed : Listed host) : Listed host.commit := by
  intro addr key _
  rw [commit_storage]
  split
  case isTrue => exact inStep_commit _
  case isFalse unlisted => exact listed addr key unlisted

theorem Listed.revert (listed : Listed host) : Listed host.revert := by
  intro addr key _
  rw [revert_storage]
  split
  case isTrue => exact inStep_revert _
  case isFalse unlisted => exact listed addr key unlisted

theorem Listed.beside (listed : Listed host) (beside : Beside host after) : Listed after := by
  intro addr key unlisted
  rw [beside.storage]
  exact listed addr key (beside.accessedStorages ▸ unlisted)

theorem listed_step (step : HostStep host after) (listed : Listed host) : Listed after := by
  cases step with
  | plain plain =>
    cases plain with
    | beside beside => exact listed.beside beside
    | commit => exact listed.commit
  | execute vm tx =>
    have written := (executed_execute vm tx host).toWritten
    intro addr key unlisted
    rw [written.storage addr key unlisted]
    exact listed addr key fun noted => unlisted (written.accessedStorages.subset noted)
  | commitCode =>
    intro addr key unlisted
    rw [commitCode_storage]
    exact listed addr key unlisted
  | revert => exact listed.revert
  | revertCode =>
    intro addr key unlisted
    rw [revertCode_storage]
    exact listed addr key unlisted
  | lookup txHash => exact listed

end Listed

theorem listed_load (db : Database) : Listed (loadHost db) := by
  intro addr key _
  let storage : Chain := ⟨[], Conservation.genesis⟩
  have settled := (construct_between db () [] 0 storage).settled
  rw [← (beside_construct db () [] 0 storage).storage]
  exact settled.storage addr key

theorem reachable_listed {host : EVMHost} (reachable : HostReachable host) : Listed host := by
  induction reachable with
  | load db => exact listed_load db
  | statement _ step listed => exact listed_step step listed
  | callback _ request listed => exact listed.ran (ran_answer _ request)

section Calls
variable {host : EVMHost}

theorem view_write (slot : Address × Hash) (value : Hash) :
    view (host.setStorage slot.1 slot.2 value).2 = (view host).step (.write slot value) := by
  have ran := ran_setStorage host slot.1 slot.2 value
  apply Staged.ext
  · funext other
    exact ran.storageFirst other.1 other.2
  · exact (effected_setStorage host slot.1 slot.2 value).storage

theorem view_commit (listed : Listed host) : view host.commit = (view host).step .commit := by
  apply Staged.ext
  · funext slot
    simp only [view, Staged.step, storageOf, EVMHost.getStorage, commit_storage]
    split
    case isTrue => rfl
    case isFalse unlisted => exact listed slot.1 slot.2 unlisted
  · funext slot
    simp only [view, Staged.step, storageOf, EVMHost.getStorage, commit_storage]
    split
    · rfl
    · rfl

theorem view_revert (listed : Listed host) : view host.revert = (view host).step .revert := by
  apply Staged.ext
  · funext slot
    simp only [view, Staged.step, revert_storage]
    split
    · rfl
    · rfl
  · funext slot
    simp only [view, Staged.step, storageOf, EVMHost.getStorage, revert_storage]
    split
    case isTrue => rfl
    case isFalse unlisted => exact (listed slot.1 slot.2 unlisted).symm

theorem storageCall_refines (listed : Listed host) (call : StagedCall (Address × Hash) Hash) :
    view (storageCall host call) = (view host).step call ∧ Listed (storageCall host call) := by
  cases call with
  | write slot value => exact ⟨view_write slot value, listed.ran (ran_setStorage host slot.1 slot.2 value)⟩
  | read slot => exact ⟨rfl, listed⟩
  | commit => exact ⟨view_commit listed, listed.commit⟩
  | revert => exact ⟨view_revert listed, listed.revert⟩

end Calls

theorem storageCalls_refine (calls : List (StagedCall (Address × Hash) Hash)) : ∀ {host : EVMHost}, Listed host →
    view (storageCalls host calls) = (view host).run calls ∧ Listed (storageCalls host calls) := by
  induction calls with
  | nil => exact fun listed => ⟨rfl, listed⟩
  | cons call rest ih =>
    intro host listed
    obtain ⟨same, kept⟩ := storageCall_refines listed call
    obtain ⟨final, keptToo⟩ := ih kept
    refine ⟨?_, keptToo⟩
    rw [Staged.run_cons, ← same]
    exact final

/-- From every host and for every sequence of calls: a slot reads as the last value written
to it since the last boundary, or else as committed (at the start also as it was then); what
is committed is what was read at the last commit; a commit keeps what is read and a revert
what is committed; and in a new database everything is zero. -/
theorem storage_is_staged {host : EVMHost} (reachable : HostReachable host) (calls : List (StagedCall (Address × Hash) Hash)) :
    (∀ addr key, (storageCalls host calls).getStorage addr key =
      (lastWrite (StagedCall.pending [] calls) (addr, key)).getD
        (if calls.any StagedCall.isBoundary then (view (storageCalls host calls)).committed (addr, key)
          else host.getStorage addr key)) ∧
    (∀ addr key, (view (storageCalls host calls)).committed (addr, key) =
      match StagedCall.beforeCommit calls with
      | some front => (storageCalls host front).getStorage addr key
      | none => (view host).committed (addr, key)) ∧
    (view (storageCalls host calls).commit).committed = (view (storageCalls host calls)).current ∧
    (view (storageCalls host calls).commit).current = (view (storageCalls host calls)).current ∧
    (view (storageCalls host calls).revert).committed = (view (storageCalls host calls)).committed ∧
    (view (storageCalls host calls).revert).current = (view (storageCalls host calls)).committed ∧
    (view (loadHost {})).committed = 0 := by
  have listed := reachable_listed reachable
  obtain ⟨same, kept⟩ := storageCalls_refine calls listed
  refine ⟨fun addr key => ?_, fun addr key => ?_, ?_, ?_, ?_, ?_, rfl⟩
  · have shown := congrFun (Staged.run_current calls (view host) (view host).current [] rfl) (addr, key)
    rw [← same, overlay_apply] at shown
    refine shown.trans ?_
    split
    · rfl
    · rfl
  · have past := congrFun (Staged.run_committed calls (view host)) (addr, key)
    rw [← same] at past
    refine past.trans ?_
    cases StagedCall.beforeCommit calls with
    | none => rfl
    | some front => exact congrFun (congrArg Staged.current (storageCalls_refine front listed).1.symm) (addr, key)
  · rw [view_commit kept]
    rfl
  · rw [view_commit kept]
    rfl
  · rw [view_revert kept]
    rfl
  · rw [view_revert kept]
    rfl

/-- A slot that is written, committed, written twice and reverted. -/
theorem reverted_slot_reads_committed :
    (storageCalls (loadHost {}) [.write (5, 1) 7, .commit, .write (5, 1) 8, .write (5, 1) 9, .revert]).getStorage 5 1 = 7 :=
  ((storage_is_staged (.load {}) [.write (5, 1) 7, .commit, .write (5, 1) 8, .write (5, 1) 9, .revert]).1 5 1).trans (by
    decide)

end OrbiterSDK.Proofs.StorageOverlay
