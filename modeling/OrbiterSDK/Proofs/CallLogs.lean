import OrbiterSDK.CallLogger
import OrbiterSDK.ContractManager
import OrbiterSDK.Proofs.MapRefinement

/-! What calls leave of the variables of contracts. A call that throws or is only tried leaves none
of its writes, except in the addresses that an earlier call has written: these are registered for
good, so that no logger collects them again. -/

namespace OrbiterSDK.Proofs.CallLogs
open Lib Lib.Enlisting

/-- A variable that is registered with the contract's manager when it is used. -/
def Enabled (base : SafeBase) : Prop := base.owned = true ∧ base.shouldRegister = true

theorem markAsUsed_enabled {base : SafeBase} (enabled : Enabled base) : Enabled base.markAsUsed := by
  unfold SafeBase.markAsUsed
  split
  · exact enabled
  · exact enabled

theorem markAsUsed_registered {base : SafeBase} (enabled : Enabled base) : base.markAsUsed.registered = true := by
  unfold SafeBase.markAsUsed SafeBase.registers
  rw [enabled.1, enabled.2]
  cases registered : base.registered with
  | false => rfl
  | true => exact registered

namespace Scalar
variable {α : Type}

def mutated (value : α) (refuse : α → Option Exception) (op : α → Except Exception α) : Except Exception α × α :=
  match refuse value with
  | some what => (.error what, value)
  | none =>
    match op value with
    | .error what => (.error what, value)
    | .ok value => (.ok value, value)

def answer (value : α) : ScalarCall α → Except Exception α × α
  | .get => (.ok value, value)
  | .mutate refuse op => mutated value refuse op

/-- A call that throws at once marks nothing. -/
def marks (value : α) : ScalarCall α → Bool
  | .get => false
  | .mutate refuse _ => (refuse value).isNone

structure Shows (var : SafeScalar α) (back value : α) : Prop where
  back : var.value = back
  working : var.written = value
  enabled : Enabled var.base

variable {var : SafeScalar α} {back value : α} {refuse : α → Option Exception} {op : α → Except Exception α}

theorem mutate_shows (shows : Shows var back value) :
    (var.mutate refuse op).1 = (mutated value refuse op).1 ∧ Shows (var.mutate refuse op).2 back (mutated value refuse op).2 ∧
      (var.mutate refuse op).2.base.registered = (var.base.registered || (refuse value).isNone) := by
  obtain ⟨rfl, rfl, enabled⟩ := shows
  have written : var.check.written = var.written := rfl
  have marked : var.check.markAsUsed.written = var.written := rfl
  unfold SafeScalar.mutate mutated
  simp only [written, marked]
  cases refuse var.written with
  | some what => exact ⟨rfl, ⟨rfl, rfl, enabled⟩, (Bool.or_false _).symm⟩
  | none =>
    have registered : var.markAsUsed.base.registered = (var.base.registered || true) :=
      (markAsUsed_registered enabled).trans (Bool.or_true _).symm
    cases op var.written with
    | error what => exact ⟨rfl, ⟨rfl, rfl, markAsUsed_enabled enabled⟩, registered⟩
    | ok value => exact ⟨rfl, ⟨rfl, rfl, markAsUsed_enabled enabled⟩, registered⟩

private theorem mutated_refused (refused : (refuse value).isNone = false) : (mutated value refuse op).2 = value := by
  obtain ⟨what, refused⟩ := Option.isSome_iff_exists.mp (Option.isNone_eq_false_iff.mp refused)
  unfold mutated
  rw [refused]

theorem step_shows (shows : Shows var back value) (call : ScalarCall α) :
    (var.step call).1 = (answer value call).1 ∧ Shows (var.step call).2 back (answer value call).2 ∧
      (var.step call).2.base.registered = (var.base.registered || marks value call) := by
  cases call with
  | get =>
    obtain ⟨rfl, rfl, enabled⟩ := shows
    exact ⟨rfl, ⟨rfl, rfl, enabled⟩, (Bool.or_false _).symm⟩
  | mutate refuse op => exact mutate_shows shows

theorem unmarked_answer {call : ScalarCall α} (unmarked : marks value call = false) : (answer value call).2 = value := by
  cases call with
  | get => rfl
  | mutate refuse op => exact mutated_refused unmarked

theorem kept_base {base : SafeBase} {unregisters : Bool} (enabled : Enabled base) :
    Enabled (if unregisters then base.unregister else base) := by
  split
  · exact enabled
  · exact enabled

theorem commit_shows {keeps unregisters : Bool} (shows : Shows var back value) : Shows (var.commitWith keeps unregisters) value value where
  back := shows.working
  working := by
    rw [← shows.working]
    cases keeps <;> rfl
  enabled := kept_base shows.enabled

theorem revert_shows {unregisters : Bool} (shows : Shows var back value) : Shows (var.revertWith unregisters) back back where
  back := shows.back
  working := shows.back
  enabled := kept_base shows.enabled

theorem closed_registered {base : SafeBase} {unregisters : Bool} :
    (if unregisters then base.unregister else base).registered = (base.registered && !unregisters) := by
  cases unregisters with
  | true => exact (Bool.and_false _).symm
  | false => exact (Bool.and_true _).symm

variable (keeps unregisters : Bool)

abbrev kind : Enlisting Exception := SafeScalar.kind α (SafeScalar.commitWith keeps unregisters) (SafeScalar.revertWith unregisters)

def plain : (kind (α := α) keeps unregisters).Plain where
  answer := answer
  marks := marks
  releases := unregisters

def refines : Refines (plain (α := α) keeps unregisters) where
  Shows := Shows
  Allowed _ _ := True
  make_shows _ := ⟨rfl, rfl, rfl, rfl⟩
  make_listed _ := rfl
  step_agrees {_ _ _ call} shows _ := ⟨(step_shows shows call).1, (step_shows shows call).2.1⟩
  step_listed {_ _ _ call} shows _ := (step_shows shows call).2.2
  unmarked := unmarked_answer
  close_shows shows kept := by
    cases kept with
    | true => exact commit_shows shows
    | false => exact revert_shows shows
  close_listed {_ kept} := by
    cases kept with
    | true => exact closed_registered
    | false => exact closed_registered

end Scalar

namespace Maps
open SafeUnorderedMap
variable {κ ν : Type} [DecidableEq κ] [Inhabited ν]

/-- A lookup that throws marks nothing. -/
def marks (map : Table κ ν) : MapCall κ ν → Bool
  | .contains _ | .count _ | .empty | .commit | .revert => false
  | .«at» key _ => (map.find key).isSome
  | .find _ _ | .subscript _ _ | .insert _ _ | .insertRange _ | .insertOrAssign _ _ | .emplace _ _ | .erase _ | .eraseMoved _ _ => true

variable {var : SafeUnorderedMap κ ν} {back map : Table κ ν}

theorem checkKeyAndCopy_base (key : κ) : (var.checkKeyAndCopy key).base = var.base := by
  rcases MapRefinement.checkKeyAndCopy_cases var key with ⟨_, same⟩ | ⟨_, _, same⟩ | ⟨_, _, _, _, same⟩
  all_goals
    rw [same]
    rfl

theorem checkKeyAndCreate_base (key : κ) : (var.checkKeyAndCreate key).base = var.base := by
  rw [MapRefinement.checkKeyAndCreate_eq]
  cases var.visible key with
  | none => rfl
  | some value => exact checkKeyAndCopy_base key

theorem place_base (key : κ) (value : ν) : (var.place key value).2.base = var.base := by
  unfold place
  cases var.written.find key <;> rfl

theorem places_base (entries : List (κ × ν)) : ∀ var : SafeUnorderedMap κ ν,
    (entries.foldl (fun var entry => (var.place entry.1 entry.2).2) var).base = var.base := by
  induction entries with
  | nil => exact fun _ => rfl
  | cons entry rest ih => exact fun var => (ih _).trans (place_base entry.1 entry.2)

theorem find_base (key : κ) (use : ν → ν) : (var.find key use).2.base = var.base.markAsUsed := by
  have base : (var.checkKeyAndCopy key).markAsUsed.base = var.base.markAsUsed := congrArg SafeBase.markAsUsed (checkKeyAndCopy_base key)
  unfold SafeUnorderedMap.find
  cases found : (var.checkKeyAndCopy key).markAsUsed.written.find key with
  | none =>
    simp only [found]
    exact base
  | some value =>
    simp only [found]
    exact base

theorem at_base (key : κ) (use : ν → ν) :
    (var.«at» key use).2.base = if (var.visible key).isSome then var.base.markAsUsed else var.base := by
  unfold SafeUnorderedMap.«at»
  rw [MapRefinement.checkKeyAndThrow_eq]
  cases var.visible key with
  | none => rfl
  | some value => exact congrArg SafeBase.markAsUsed (checkKeyAndCopy_base key)

theorem step_base {call : MapCall κ ν} (open' : call.closes = false) (shown : MapRefinement.Shows var ⟨back, map⟩) :
    (var.step call).2.base = if marks map call then var.base.markAsUsed else var.base := by
  cases call with
  | find key use => exact find_base key use
  | contains key => exact checkKeyAndCopy_base key
  | count key => exact checkKeyAndCopy_base key
  | «at» key use =>
    have base : (var.«at» key use).2.base = if (var.visible key).isSome then var.base.markAsUsed else var.base := at_base key use
    rw [shown.working key] at base
    exact base
  | subscript key use => exact congrArg SafeBase.markAsUsed (checkKeyAndCreate_base key)
  | insert key value => exact place_base key value
  | insertRange entries => exact places_base entries _
  | insertOrAssign key value => rfl
  | emplace key value => exact place_base key value
  | erase key => rfl
  | eraseMoved key left => rfl
  | empty => rfl
  | commit => cases open'
  | revert => cases open'

/-- Two outcomes that only differ in what was committed before. -/
def Alike (back : Table κ ν) (outcome other : MapAnswer ν × MapPair κ ν) : Prop :=
  outcome.1 = other.1 ∧ outcome.2 = ⟨back, other.2.working⟩

private theorem find_alike (back other map : Table κ ν) (key : κ) (use : ν → ν) :
    Alike back (MapPair.find ⟨back, map⟩ key use) (MapPair.find ⟨other, map⟩ key use) := by
  unfold MapPair.find
  cases map.find key <;> exact ⟨rfl, rfl⟩

private theorem at_alike (back other map : Table κ ν) (key : κ) (use : ν → ν) :
    Alike back (MapPair.«at» ⟨back, map⟩ key use) (MapPair.«at» ⟨other, map⟩ key use) := by
  unfold MapPair.«at»
  cases map.find key <;> exact ⟨rfl, rfl⟩

theorem insert_alike (back other map : Table κ ν) (key : κ) (value : ν) :
    Alike back (MapPair.insert ⟨back, map⟩ key value) (MapPair.insert ⟨other, map⟩ key value) := by
  unfold MapPair.insert
  cases map.find key <;> exact ⟨rfl, rfl⟩

theorem inserts_alike (entries : List (κ × ν)) : ∀ (pair other : MapPair κ ν), other.working = pair.working →
    entries.foldl (fun pair entry => (pair.insert entry.1 entry.2).2) pair =
      ⟨pair.committed, (entries.foldl (fun pair entry => (pair.insert entry.1 entry.2).2) other).working⟩ := by
  induction entries with
  | nil =>
    intro pair other same
    rw [List.foldl_nil, List.foldl_nil, same]
  | cons entry rest ih =>
    intro pair other same
    have next := (insert_alike pair.committed other.committed pair.working entry.1 entry.2).2
    rw [← same] at next
    have here : (pair.insert entry.1 entry.2).2 = ⟨pair.committed, (other.insert entry.1 entry.2).2.working⟩ := by
      rw [← next, same]
    rw [List.foldl_cons, List.foldl_cons, here]
    exact ih _ _ rfl

/-- What is committed has nothing to do with what a call answers and changes. -/
theorem step_alike {call : MapCall κ ν} (open' : call.closes = false) (back other map : Table κ ν) :
    Alike back (MapPair.step ⟨back, map⟩ call) (MapPair.step ⟨other, map⟩ call) := by
  cases call with
  | find key use => exact find_alike back other map key use
  | «at» key use => exact at_alike back other map key use
  | insert key value => exact insert_alike back other map key value
  | emplace key value => exact insert_alike back other map key value
  | insertRange entries => exact ⟨rfl, inserts_alike entries ⟨back, map⟩ ⟨other, map⟩ rfl⟩
  | contains key => exact ⟨rfl, rfl⟩
  | count key => exact ⟨rfl, rfl⟩
  | subscript key use => exact ⟨rfl, rfl⟩
  | insertOrAssign key value => exact ⟨rfl, rfl⟩
  | erase key => exact ⟨rfl, rfl⟩
  | eraseMoved key left => exact ⟨rfl, rfl⟩
  | empty => exact ⟨rfl, rfl⟩
  | commit => cases open'
  | revert => cases open'

theorem unmarked_working {call : MapCall κ ν} (open' : call.closes = false) (unmarked : marks map call = false) :
    (MapPair.step ⟨back, map⟩ call).2.working = map := by
  cases call with
  | «at» key use =>
    have missing : map.find key = none := Option.isNone_iff_eq_none.mp (Option.isSome_eq_false_iff.mp unmarked)
    have same : MapPair.«at» ⟨back, map⟩ key use = (.error "Key not found", ⟨back, map⟩) := by
      unfold MapPair.«at»
      simp only [missing]
    exact congrArg (fun outcome : MapAnswer ν × MapPair κ ν => outcome.2.working) same
  | contains key => rfl
  | count key => rfl
  | empty => rfl
  | commit => cases open'
  | revert => cases open'
  | find key use => cases unmarked
  | subscript key use => cases unmarked
  | insert key value => cases unmarked
  | insertRange entries => cases unmarked
  | insertOrAssign key value => cases unmarked
  | emplace key value => cases unmarked
  | erase key => cases unmarked
  | eraseMoved key left => cases unmarked

def plain : (SafeUnorderedMap.kind κ ν).Plain where
  answer map call := ((MapPair.step ⟨map, map⟩ call.1).1, (MapPair.step ⟨map, map⟩ call.1).2.working)
  marks map call := marks map call.1
  releases := true

structure Shows (var : SafeUnorderedMap κ ν) (back map : Table κ ν) : Prop where
  pair : MapRefinement.Shows var ⟨back, map⟩
  enabled : Enabled var.base

def refines : Refines (plain (κ := κ) (ν := ν)) where
  Shows := Shows
  Allowed var call := var.Allowed call.1
  make_shows map :=
    ⟨⟨rfl, fun key => (MapRefinement.ofOwner_shows map).working key, (MapRefinement.ofOwner_shows map).apart⟩, rfl, rfl⟩
  make_listed _ := rfl
  step_agrees {var back map call} shows allowed := by
    obtain ⟨answer, pair⟩ := MapRefinement.step_agrees call.1 allowed shows.pair
    obtain ⟨same, next⟩ := step_alike call.2 back map map
    rw [next] at pair
    refine ⟨answer.trans same, pair, ?_⟩
    have base := step_base call.2 shows.pair
    have stepped : ((SafeUnorderedMap.kind κ ν).step var call).2 = (var.step call.1).2 := rfl
    rw [stepped, base]
    split
    · exact markAsUsed_enabled shows.enabled
    · exact shows.enabled
  step_listed {var back map call} shows _ := by
    have base := step_base call.2 shows.pair
    have listed : (SafeUnorderedMap.kind κ ν).listed ((SafeUnorderedMap.kind κ ν).step var call).2 = (var.step call.1).2.base.registered := rfl
    have before : (SafeUnorderedMap.kind κ ν).listed var = var.base.registered := rfl
    have marked : (plain (κ := κ) (ν := ν)).marks map call = marks map call.1 := rfl
    rw [listed, before, marked, base]
    cases marks map call.1 with
    | true => exact (markAsUsed_registered shows.enabled).trans (Bool.or_true _).symm
    | false => exact (Bool.or_false _).symm
  unmarked {map call} unmarked := unmarked_working call.2 unmarked
  close_shows shows kept := by
    cases kept with
    | true => exact ⟨MapRefinement.commit_shows shows.pair, shows.enabled⟩
    | false => exact ⟨MapRefinement.revert_shows shows.pair, shows.enabled⟩
  close_listed {var kept} := by
    cases kept with
    | true => exact (Bool.and_false _).symm
    | false => exact (Bool.and_false _).symm

end Maps

def plain : (var : SafeVariable) → var.kind.Plain
  | .uint _ => Scalar.plain false true
  | .int _ => Scalar.plain false true
  | .bool => Scalar.plain false true
  | .string => Scalar.plain true true
  | .address => Scalar.plain false false
  | @SafeVariable.unorderedMap _ _ _ _ => Maps.plain

def refines : (var : SafeVariable) → Refines (plain var)
  | .uint _ => Scalar.refines false true
  | .int _ => Scalar.refines false true
  | .bool => Scalar.refines false true
  | .string => Scalar.refines true true
  | .address => Scalar.refines false false
  | @SafeVariable.unorderedMap _ _ _ _ => Maps.refines

section Runs
open ContractCallLogger
variable {Variable : Type} [DecidableEq Variable] {classes : Variable → SafeVariable} (owner : Variable → Address)

/-- What the variables of the contracts are worth. -/
abbrev Values (classes : Variable → SafeVariable) := Store (fun var => (classes var).kind) Address

abbrev Call (classes : Variable → SafeVariable) := Request (fun var => (classes var).kind) Address

/-- The values after a call, if it leaves no trace unless it goes through and is for a transaction. -/
def write : Values classes → Call classes → Except Exception Unit × Values classes := Store.step (setting owner) fun var => plain (classes var)

/-- The values after a call, and the addresses that are not given back any more. -/
def note : Ledger (fun var => (classes var).kind) Address → Call classes → Except Exception Unit × Ledger (fun var => (classes var).kind) Address :=
  Ledger.step (setting owner) fun var => plain (classes var)

/-- The maps of the contracts are used as ordinary maps allow it. -/
def Fine : ContractVariables classes → Call classes → Prop := Request.Fine (setting owner) fun var => refines (classes var)

/-- The variables hold these values, none of them being written. -/
def Hold (state : ContractVariables classes) (values : Values classes) : Prop :=
  Unspent (setting owner) (fun var => refines (classes var)) state values

theorem step_eq : @ContractCallLogger.step Variable _ classes owner = Objects.step (setting owner) := by
  funext state request
  obtain ⟨program, trial⟩ := request
  cases trial <;> rfl

theorem releases_of_ne {var : SafeVariable} (other : var ≠ .address) : (plain var).releases = true := by
  cases var with
  | address => exact absurd rfl other
  | uint Size => rfl
  | int Size => rfl
  | bool => rfl
  | string => rfl
  | unorderedMap Key Value => rfl

/-- Calls of contracts without addresses. -/
theorem calls_leave_what_they_write (others : ∀ var, classes var ≠ .address) (values : Values classes) (calls : List (Call classes))
    (fine : Along (ContractCallLogger.step owner) (Fine owner) values.deployed calls) :
    answers (ContractCallLogger.step owner) values.deployed calls = answers (write owner) values calls ∧
      Hold owner (after (ContractCallLogger.step owner) values.deployed calls) (after (write owner) values calls) := by
  rw [step_eq] at fine ⊢
  exact (atomic_simulates fun var => releases_of_ne (others var)).run calls (settled_deployed values) fine

/-- A map, and a program that writes it and throws if it is told to. -/
abbrev oneMap : Unit → SafeVariable := fun _ => .unorderedMap Nat Nat

abbrev emptyMap : Values oneMap := ⟨fun _ => (default : Table Nat Nat), {5}⟩

abbrev writesMap (value : Nat) (thrown : Bool) : Call oneMap :=
  (.call () ⟨.subscript 1 fun _ => value, rfl⟩ fun _ => if thrown then .throw "thrown" else .done, false)

abbrev expects (value : Nat) (found : Except Exception (MapReply Nat)) : VariableProgram oneMap :=
  if found = .ok (.entry (some value)) then .done else .throw "not there"

abbrev findsMap (value : Nat) : Call oneMap := (.call () ⟨.find 1 id, rfl⟩ (expects value), false)

theorem map_keeps_what_went_through :
    answers (ContractCallLogger.step fun _ => 5) emptyMap.deployed [writesMap 7 false, writesMap 8 true, findsMap 7] =
      [.ok (), .error "thrown", .ok ()] := by
  have fine : Along (ContractCallLogger.step fun _ => 5) (Fine fun _ => 5) emptyMap.deployed [writesMap 7 false, writesMap 8 true, findsMap 7] :=
    ⟨⟨Finset.notMem_empty 1, trivial⟩, ⟨Finset.notMem_empty 1, trivial⟩, ⟨trivial, trivial⟩, trivial⟩
  rw [(calls_leave_what_they_write (fun _ => 5) (fun _ => SafeVariable.noConfusion) emptyMap _ fine).1]
  rfl

/-- The values that variables hold, and which of them are registered for good. -/
def HoldNoted (state : ContractVariables classes) (ledger : Ledger (fun var => (classes var).kind) Address) : Prop :=
  Settled (setting owner) (fun var => refines (classes var)) state ledger

private theorem releases_eq_false {var : SafeVariable} (held : (plain var).releases = false) : var = .address := by
  by_contra other
  exact Bool.noConfusion (held.symm.trans (releases_of_ne other))

/-- What is noted after calls on contracts whose variables begin with these values. -/
def noted (values : Values classes) (calls : List (Call classes)) : Ledger (fun var => (classes var).kind) Address :=
  after (note owner) { values with } calls

theorem hold_noted {values : Values classes} {calls : List (Call classes)}
    (fine : Along (ContractCallLogger.step owner) (Fine owner) values.deployed calls) :
    HoldNoted owner (after (ContractCallLogger.step owner) values.deployed calls) (noted owner values calls) := by
  rw [step_eq] at fine ⊢
  exact (objects_simulate.run calls (settled_deployed values) fine).2

/-- After any calls, one that throws or is only tried leaves no trace exactly if it leaves the addresses that were written by an
earlier call as they were: these are all that is not given back. -/
theorem failed_call_leaves_no_trace_iff (values : Values classes) (calls : List (Call classes)) (call : Call classes)
    (fine : Along (ContractCallLogger.step owner) (Fine owner) values.deployed (calls ++ [call]))
    (failed : ((ContractCallLogger.step owner (after (ContractCallLogger.step owner) values.deployed calls) call).1.isOk && !call.2) = false) :
    HoldNoted owner (after (ContractCallLogger.step owner) values.deployed calls) (noted owner values calls) ∧
      HoldNoted owner (after (ContractCallLogger.step owner) values.deployed (calls ++ [call])) (noted owner values (calls ++ [call])) ∧
      (∀ var, (noted owner values calls).spent var = true → classes var = .address) ∧
      ((noted owner values (calls ++ [call])).toStore = (noted owner values calls).toStore ↔
        ∀ var, owner var ∈ (noted owner values calls).groups → (noted owner values calls).spent var = true →
          (call.1.write (setting owner) (fun var => plain (classes var)) (noted owner values calls).toStore).2.values var =
            (noted owner values calls).values var) := by
  obtain ⟨early, last⟩ := along_append calls [call] fine
  have before := hold_noted owner early
  refine ⟨before, hold_noted owner fine, ?_, ?_⟩
  · intro var spent
    exact releases_eq_false (spent_run calls (fun _ impossible => Bool.noConfusion impossible) var spent)
  · rw [step_eq] at failed last before
    have answer := (objects_simulate _ _ call before last.1).1
    rw [answer] at failed
    have next : noted owner values (calls ++ [call]) = (note owner (noted owner values calls) call).2 := after_append calls [call] _
    rw [next]
    exact given_up_iff failed

abbrev oneAddress : Unit → SafeVariable := fun _ => .address

abbrev noAddress : Values oneAddress := ⟨fun _ => (0 : Address), {5}⟩

abbrev writesAddress (value : Address) (thrown : Bool) : Call oneAddress :=
  (.call () (.mutate (fun _ => none) fun _ => .ok value) fun _ => if thrown then .throw "thrown" else .done, false)

theorem fine_oneAddress (calls : List (Call oneAddress)) : ∀ state, Along (ContractCallLogger.step fun _ => 5) (Fine fun _ => 5) state calls := by
  induction calls with
  | nil => exact fun _ => trivial
  | cons call rest ih => exact fun state => ⟨Script.fine_of_allowed (fun _ _ _ => trivial) call.1 state, ih _⟩

/-- The address that the second call writes stays although that call throws. -/
theorem thrown_address_stays :
    (noted (fun _ => 5) noAddress [writesAddress 1 false, writesAddress 2 true]).toStore ≠
      (noted (fun _ => 5) noAddress [writesAddress 1 false]).toStore := by
  intro same
  obtain ⟨_, _, _, traceless⟩ := failed_call_leaves_no_trace_iff (fun _ => 5) noAddress [writesAddress 1 false]
    (writesAddress 2 true) (fine_oneAddress _ _) rfl
  have kept : (2 : Address) = 1 := traceless.mp same () (Finset.mem_singleton_self 5) rfl
  exact absurd kept (by decide)

/-- The code of a call that does this with variables, as the manager runs it. -/
def code (state : ContractVariables classes) (program : VariableProgram classes) : ContractProgram (ContractVariables classes) :=
  let (result, after) := program.run (setting owner) state
  .write after (match result with
    | .ok () => .done (after.finish true)
    | .error what => .throw what)

/-- The manager of the contracts leaves the variables as the loggers do: on trial, when the code throws and when it returns. -/
theorem manager_agrees (contracts : Contracts (ContractVariables classes)) (reverts : contracts.reverted = fun world => world.finish false)
    (accounts : Table Address EVMAccount) (manager : ContractManager (ContractVariables classes)) (program : VariableProgram classes)
    (logger : ContractCallLogger) :
    (manager.discard contracts accounts (code owner manager.world program) logger).world =
      (validateCallContractWithTx owner manager.world program).2 ∧
    (∀ what, (code owner manager.world program).run accounts logger = .error what → callContract owner manager.world program =
      (.error what, (manager.discard contracts accounts (code owner manager.world program) logger).world)) ∧
    ∀ world last, (code owner manager.world program).run accounts logger = .ok (world, last) →
      callContract owner manager.world program = (.ok (), world) := by
  unfold ContractManager.discard validateCallContractWithTx callContract Objects.serve code
  rw [reverts]
  rcases program.run (setting owner) manager.world with ⟨result, after⟩
  cases result with
  | error what =>
    refine ⟨rfl, fun other thrown => ?_, fun world last returned => by cases returned⟩
    cases thrown
    rfl
  | ok done =>
    refine ⟨rfl, ?_, ?_⟩
    · intro what thrown
      cases thrown
    · intro world last returned
      cases returned
      rfl

end Runs
end OrbiterSDK.Proofs.CallLogs
