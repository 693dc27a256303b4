import OrbiterSDK.Proofs.DexCalls

/-! The registry of a factory. Creating a pair is the only way to add to it, and each pair that
it lists has the tokens under which it is found. Who gets the fees may be set by anyone. -/

namespace OrbiterSDK.Proofs.PairRegistry
open Lib Atomic DEXV2 DexCalls

/-- The functions of a factory that change something. -/
inductive Request where
  | createPair (around : Around) (tokenA tokenB : Address)
  | setFeeTo (feeTo : Address)
  | setFeeToSetter (feeToSetter : Address)

structure Call where
  caller : Address
  request : Request

def perform (home : Address) : Request → Run Unit
  | .createPair around tokenA tokenB => do
    let _ ← DEXV2Factory.createPair around home tokenA tokenB
    pure ()
  | .setFeeTo feeTo => DEXV2Factory.setFeeTo home feeTo
  | .setFeeToSetter feeToSetter => DEXV2Factory.setFeeToSetter home feeToSetter

def call (home : Address) (world : World) (request : Call) : Except Exception World :=
  ((perform home request.request).run world).map Prod.snd

/-- The same two tokens, in one order or the other. -/
def SameTokens (tokenA tokenB tokenC tokenD : Address) : Prop :=
  tokenA = tokenC ∧ tokenB = tokenD ∨ tokenA = tokenD ∧ tokenB = tokenC

/-- A pair contract of this factory for these tokens, in ascending order. -/
structure Initialised (home tokenA tokenB : Address) (pair : DEXV2Pair) : Prop where
  factory : pair.factory = home
  sorted : pair.token0 < pair.token1
  tokens : SameTokens pair.token0 pair.token1 tokenA tokenB

/-- What the registry is for. -/
structure Registered (home : Address) (world : World) (factory : DEXV2Factory) : Prop where
  symmetric : ∀ tokenA tokenB, factory.getPair tokenA tokenB = factory.getPair tokenB tokenA
  initialised : ∀ tokenA tokenB, factory.getPair tokenA tokenB ≠ 0 →
    ∃ pair, world.at_ asPair (factory.getPair tokenA tokenB) = some pair ∧ Initialised home tokenA tokenB pair
  distinct : ∀ tokenA tokenB tokenC tokenD, factory.getPair tokenA tokenB = factory.getPair tokenC tokenD →
    factory.getPair tokenA tokenB ≠ 0 → SameTokens tokenA tokenB tokenC tokenD
  listed : ∀ pair, pair ≠ 0 → (pair ∈ factory.allPairs ↔ ∃ tokenA tokenB, factory.getPair tokenA tokenB = pair)
  once : factory.allPairs.Nodup

/-- What also has to be known of the registry before a pair is created. -/
structure Kept (home : Address) (world : World) (factory : DEXV2Factory) : Prop extends Registered home world factory where
  here : world.at_ asFactory home = some factory
  deployed : ∀ pair ∈ factory.allPairs, pair ∈ world.contracts.keys

/-- A pair that was created, as it was asked for. -/
structure CreatedPair where
  tokenA : Address
  tokenB : Address
  pair : Address
  deriving DecidableEq

def created (home : Address) (world : World) (request : Call) : List CreatedPair :=
  match request.request with
  | .createPair around tokenA tokenB =>
    match (DEXV2Factory.createPair around home tokenA tokenB).run world with
    | .ok (pair, _) => [⟨tokenA, tokenB, pair⟩]
    | .error _ => []
  | .setFeeTo _ | .setFeeToSetter _ => []

/-- The pairs of the calls that went through, in their order. -/
def createdPairs (home : Address) : World → List Call → List CreatedPair
  | _, [] => []
  | world, request :: rest => created home world request ++ createdPairs home (attempt (call home) world request) rest

instance (tokenA tokenB tokenC tokenD : Address) : Decidable (SameTokens tokenA tokenB tokenC tokenD) := inferInstanceAs (Decidable (_ ∨ _))

/-- The pair that was created last for two tokens, or the one before. -/
def paired (createdPairs : List CreatedPair) (before tokenA tokenB : Address) : Address :=
  createdPairs.foldl (fun pair entry => if SameTokens entry.tokenA entry.tokenB tokenA tokenB then entry.pair else pair) before

/-- A registry with more pairs. -/
structure Extended (factory next : DEXV2Factory) (createdPairs : List CreatedPair) : Prop where
  listed : next.allPairs = factory.allPairs ++ createdPairs.map CreatedPair.pair
  found : ∀ tokenA tokenB, next.getPair tokenA tokenB = paired createdPairs (factory.getPair tokenA tokenB) tokenA tokenB

variable {home tokenA tokenB tokenC tokenD pair other : Address} {factory changed : DEXV2Factory} {world after : World}
variable {token0 token1 : Address} {request : Call}

theorem getPair_eq (factory : DEXV2Factory) (tokenA tokenB : Address) :
    factory.getPair tokenA tokenB = (factory.getPairs.value tokenA).value tokenB := by
  unfold DEXV2Factory.getPair
  cases found : factory.getPairs.find tokenA with
  | none =>
    rw [Table.find_eq_none found]
    rfl
  | some inner =>
    rw [(Table.find_eq_some found).2]
    exact Table.find_getD inner tokenB

theorem SameTokens.symm (same : SameTokens tokenA tokenB tokenC tokenD) : SameTokens tokenC tokenD tokenA tokenB := by
  obtain ⟨rfl, rfl⟩ | ⟨rfl, rfl⟩ := same
  · exact .inl ⟨rfl, rfl⟩
  · exact .inr ⟨rfl, rfl⟩

theorem SameTokens.trans {tokenE tokenF : Address} (first : SameTokens tokenA tokenB tokenC tokenD)
    (second : SameTokens tokenC tokenD tokenE tokenF) : SameTokens tokenA tokenB tokenE tokenF := by
  obtain ⟨rfl, rfl⟩ | ⟨rfl, rfl⟩ := first
  · exact second
  · exact second.symm.elim (fun same => .inr ⟨same.2.symm, same.1.symm⟩) fun same => .inl ⟨same.1.symm, same.2.symm⟩

private theorem sameTokens_swap : SameTokens tokenA tokenB tokenC tokenD ↔ SameTokens tokenB tokenA tokenC tokenD := by
  unfold SameTokens
  rw [or_comm, and_comm, and_comm (a := tokenA = tokenC)]

theorem register_getPair (apart : tokenA ≠ tokenB) : (factory.register tokenA tokenB pair).getPair tokenC tokenD =
    if SameTokens tokenA tokenB tokenC tokenD then pair else factory.getPair tokenC tokenD := by
  rw [getPair_eq, getPair_eq]
  unfold DEXV2Factory.register SameTokens
  simp only [Table.modify_value]
  by_cases first : tokenC = tokenB
  · subst first
    by_cases second : tokenD = tokenA
    · simp [second]
    · simp [apart, Ne.symm apart, Ne.symm second, Table.modify_value_of_ne _ _ second]
  · by_cases second : tokenC = tokenA
    · subst second
      by_cases third : tokenD = tokenB
      · simp [third, first]
      · simp [first, Ne.symm third, Ne.symm first, Table.modify_value_of_ne _ _ third]
    · simp [first, second, Ne.symm first, Ne.symm second]

/-- A new pair and its createdPairs. -/
structure Created (home token0 token1 pair : Address) (world after : World) : Prop where
  sorted : token0 < token1
  entered : ∃ factory, world.at_ asFactory home = some factory ∧ factory.getPair token0 token1 = 0 ∧
    after.at_ asFactory home = some (factory.register token0 token1 pair)
  new : pair ∉ world.contracts.keys
  keys : after.contracts.keys = world.contracts.keys ++ [pair]
  initialised : ∃ contract, after.at_ asPair pair = some contract ∧ contract.factory = home ∧ contract.token0 = token0 ∧
    contract.token1 = token1
  others : ∀ other, other ≠ home → other ≠ pair → after.at_ asPair other = world.at_ asPair other
  native : after.native = world.native

theorem setupNewContract_new {sha3 : Bytes → Hash} {creator origin caller address : Address} {contracts : List Address}
    (done : ContractFactory.setupNewContract sha3 creator origin caller contracts = .ok address) : address ∉ contracts := by
  obtain ⟨_, rest⟩ := guard_eq_ok.mp done
  obtain ⟨new, rest⟩ := guard_eq_ok.mp rest
  obtain ⟨_, same⟩ := guard_eq_ok.mp rest
  cases same
  exact new

/-- A contract is found where it was added, and nowhere else. -/
theorem at_add {τ : Type} (as_ : Cast τ) (contract : Contract) (new : pair ∉ world.contracts.keys) :
    ({ world with contracts := world.contracts.add pair contract } : World).at_ as_ other =
      if other = pair then as_.view contract else world.at_ as_ other := by
  unfold World.at_
  rw [Registry.find_add]
  by_cases same : other = pair
  · have missing : world.contracts.find other = none := by
      rw [← Option.not_isSome_iff_eq_none, ← Registry.mem_keys, same]
      exact new
    rw [missing, if_pos same.symm, if_pos same]
    rfl
  · rw [if_neg (Ne.symm same), if_neg same, Option.or_none]

theorem callCreateContract_yields {around : Around} (done : Yields (callCreateContract around home) world pair after) :
    pair ∉ world.contracts.keys ∧ ∃ contract, DEXV2Pair.create home = .ok contract ∧
      after = { world with contracts := world.contracts.add pair (.pair contract) } := by
  obtain ⟨_, rest⟩ := yields_require_bind.mp done
  obtain ⟨address, placed, rest⟩ := yields_checked_bind.mp (yields_get_bind.mp rest)
  obtain ⟨contract, created, rest⟩ := yields_checked_bind.mp rest
  have rest := yields_modify_bind.mp rest
  obtain ⟨same, kept⟩ := pure_yields rest
  subst same kept
  exact ⟨setupNewContract_new placed, contract, created, rfl⟩

theorem at_mem_keys {τ : Type} {as_ : Cast τ} {value : τ} (known : world.at_ as_ other = some value) : other ∈ world.contracts.keys := by
  rw [Registry.mem_keys]
  unfold World.at_ at known
  cases found : world.contracts.find other with
  | none =>
    rw [found] at known
    cases known
  | some contract => rfl

private theorem create_factory {contract : DEXV2Pair} (created : DEXV2Pair.create home = .ok contract) : contract.factory = home := by
  obtain ⟨token, _, rfl⟩ := build_eq_ok.mp created
  rfl

theorem createPair_created {around : Around} (done : Yields (DEXV2Factory.createPair around home tokenA tokenB) world pair after) :
    ∃ token0 token1, Created home token0 token1 pair world after ∧ SameTokens token0 token1 tokenA tokenB := by
  obtain ⟨apart, rest⟩ := yields_require_bind.mp done
  let token0 := if tokenA < tokenB then tokenA else tokenB
  let token1 := if tokenA < tokenB then tokenB else tokenA
  have same : SameTokens token0 token1 tokenA tokenB := by
    by_cases less : tokenA < tokenB
    · exact .inl ⟨if_pos less, if_pos less⟩
    · exact .inr ⟨if_neg less, if_neg less⟩
  have sorted : token0 < token1 := by
    by_cases less : tokenA < tokenB
    · simpa only [token0, token1, if_pos less] using less
    · simp only [token0, token1, if_neg less]
      have other : tokenA.toNat ≠ tokenB.toNat := fun equal => apart (BitVec.eq_of_toNat_eq equal)
      rw [BitVec.lt_def] at less ⊢
      omega
  obtain ⟨_, rest⟩ := yields_require_bind.mp rest
  obtain ⟨factory, here, rest⟩ := yields_getContract_bind.mp rest
  obtain ⟨unpaired, rest⟩ := yields_require_bind.mp rest
  obtain ⟨address, deployed, creating, rest⟩ := yields_bind.mp rest
  obtain ⟨contract, initial, found, initialising, rest⟩ := yields_callContractFunction_bind.mp rest
  obtain ⟨old, changed, again, registering, rest⟩ := yields_callContractFunction_bind.mp rest
  obtain ⟨rfl, rfl⟩ := pure_yields rest
  obtain ⟨new, fresh, constructed, rfl⟩ := callCreateContract_yields creating
  have elsewhere : home ≠ address := fun equal => new (equal ▸ at_mem_keys here)
  have beforeHere := (at_add asFactory (.pair fresh) new).trans (if_neg elsewhere) |>.trans here
  have beforeThere := (at_add asPair (.pair fresh) new).trans (if_pos (rfl : address = address))
  -- the factory is as it was when its createdPairs are made
  cases ((at_put_of_ne _ elsewhere).trans beforeHere).symm.trans again
  cases registering
  obtain ⟨_, initialised⟩ := guard_eq_ok.mp initialising
  cases beforeThere.symm.trans found
  cases initialised
  refine ⟨token0, token1, ?_, same⟩
  constructor
  case sorted => exact sorted
  case entered =>
    exact ⟨factory, here, unpaired, at_put_self ((at_put_of_ne _ elsewhere).trans beforeHere)⟩
  case new => exact new
  case keys =>
    rw [put_keys, put_keys]
    exact Registry.keys_add _ _ _
  case initialised =>
    have made : contract.factory = home := create_factory constructed
    refine ⟨{ contract with token0, token1 }, ?_, made, rfl, rfl⟩
    exact (at_put_of_ne _ elsewhere.symm).trans (at_put_self beforeThere)
  case others =>
    intro other apartSelf apartPair
    rw [at_put_of_ne _ apartSelf, at_put_of_ne _ apartPair, at_add _ _ new, if_neg apartPair]
  case native => rfl

theorem pair_ne_factory {contract : DEXV2Pair} (isPair : world.at_ asPair pair = some contract)
    (isFactory : world.at_ asFactory home = some factory) : pair ≠ home := by
  intro same
  subst same
  unfold World.at_ at isPair isFactory
  cases found : world.contracts.find pair with
  | none =>
    rw [found] at isPair
    cases isPair
  | some there =>
    rw [found] at isPair isFactory
    cases there with
    | factory => cases isPair
    | erc20 | nativeWrapper | pair | router => cases isFactory

theorem Kept.registered_deployed (kept : Kept home world factory) (registered : factory.getPair tokenA tokenB ≠ 0) :
    factory.getPair tokenA tokenB ∈ world.contracts.keys :=
  kept.deployed _ ((kept.listed _ registered).mpr ⟨tokenA, tokenB, rfl⟩)

private theorem Created.getPair (created : Created home token0 token1 pair world after) :
    (factory.register token0 token1 pair).getPair tokenA tokenB =
      if SameTokens token0 token1 tokenA tokenB then pair else factory.getPair tokenA tokenB :=
  register_getPair fun same => BitVec.lt_irrefl token1 (same ▸ created.sorted)

/-- No pair of before has the address of the new one. -/
private theorem Kept.older (kept : Kept home world factory) (created : Created home token0 token1 pair world after)
    (registered : factory.getPair tokenA tokenB ≠ 0) : factory.getPair tokenA tokenB ≠ pair :=
  fun same => created.new (same ▸ kept.registered_deployed registered)

private theorem Kept.created_distinct (kept : Kept home world factory)
    (created : Created home token0 token1 pair world after)
    (equal : (factory.register token0 token1 pair).getPair tokenA tokenB = (factory.register token0 token1 pair).getPair tokenC tokenD)
    (registered : (factory.register token0 token1 pair).getPair tokenA tokenB ≠ 0) : SameTokens tokenA tokenB tokenC tokenD := by
  rw [created.getPair] at registered
  rw [created.getPair, created.getPair] at equal
  by_cases first : SameTokens token0 token1 tokenA tokenB
  · by_cases second : SameTokens token0 token1 tokenC tokenD
    · exact first.symm.trans second
    · rw [if_pos first, if_neg second] at equal
      rw [if_pos first, equal] at registered
      exact absurd equal.symm (kept.older created registered)
  · rw [if_neg first] at equal registered
    by_cases second : SameTokens token0 token1 tokenC tokenD
    · rw [if_pos second] at equal
      exact absurd equal (kept.older created registered)
    · rw [if_neg second] at equal
      exact kept.distinct _ _ _ _ equal registered

private theorem Kept.created_listed {token0 token1 listed : Address} (kept : Kept home world factory)
    (created : Created home token0 token1 pair world after) (unpaired : factory.getPair token0 token1 = 0) (someone : listed ≠ 0) :
    listed ∈ (factory.register token0 token1 pair).allPairs ↔
      ∃ tokenA tokenB, (factory.register token0 token1 pair).getPair tokenA tokenB = listed := by
  have oldUnpaired : ∀ {tokenA tokenB}, SameTokens token0 token1 tokenA tokenB → factory.getPair tokenA tokenB = 0 := by
    rintro tokenA tokenB (⟨rfl, rfl⟩ | ⟨rfl, rfl⟩)
    · exact unpaired
    · exact (kept.symmetric token1 token0).trans unpaired
  simp only [created.getPair]
  unfold DEXV2Factory.register
  rw [List.mem_append, List.mem_singleton, kept.listed listed someone]
  constructor
  · intro before
    obtain ⟨tokenA, tokenB, found⟩ | same := before
    · refine ⟨tokenA, tokenB, ?_⟩
      rw [if_neg]
      · exact found
      · intro same
        exact someone (found.symm.trans (oldUnpaired same))
    · exact ⟨token0, token1, (if_pos (.inl ⟨rfl, rfl⟩)).trans same.symm⟩
  · rintro ⟨tokenA, tokenB, found⟩
    split at found
    case isTrue => exact .inr found.symm
    case isFalse => exact .inl ⟨tokenA, tokenB, found⟩

theorem Kept.created (kept : Kept home world factory) (created : Created home token0 token1 pair world after) :
    Kept home after (factory.register token0 token1 pair) := by
  obtain ⟨old, here, unpaired, entered⟩ := created.entered
  cases here.symm.trans kept.here
  refine { toRegistered := ⟨?symmetric, ?initialised, ?distinct, ?listed, ?once⟩, here := entered, deployed := ?deployed }
  case symmetric =>
    intro tokenA tokenB
    rw [created.getPair, created.getPair, kept.symmetric tokenA tokenB]
    have swapped : SameTokens token0 token1 tokenA tokenB ↔ SameTokens token0 token1 tokenB tokenA :=
      ⟨fun same => (sameTokens_swap.mp same.symm).symm, fun same => (sameTokens_swap.mp same.symm).symm⟩
    simp only [swapped]
  case initialised =>
    intro tokenA tokenB registered
    rw [created.getPair] at registered ⊢
    by_cases same : SameTokens token0 token1 tokenA tokenB
    · rw [if_pos same]
      obtain ⟨contract, there, ofSelf, first, second⟩ := created.initialised
      refine ⟨contract, there, ofSelf, ?_, ?_⟩
      · rw [first, second]
        exact created.sorted
      · rw [first, second]
        exact same
    · rw [if_neg same] at registered ⊢
      obtain ⟨contract, there, initialised⟩ := kept.initialised tokenA tokenB registered
      exact ⟨contract, (created.others _ (pair_ne_factory there kept.here) (kept.older created registered)).trans there, initialised⟩
  case distinct => exact fun _ _ _ _ => kept.created_distinct created
  case listed => exact fun _ => kept.created_listed created unpaired
  case once =>
    apply List.nodup_append.mpr
    refine ⟨kept.once, List.nodup_singleton pair, ?_⟩
    intro listed before new fresh same
    rw [List.mem_singleton] at fresh
    exact created.new (fresh ▸ same ▸ kept.deployed listed before)
  case deployed =>
    intro listed inside
    rw [created.keys, List.mem_append]
    obtain before | fresh := List.mem_append.mp inside
    · exact .inl (kept.deployed listed before)
    · exact .inr fresh

theorem Kept.fees (kept : Kept home world factory) (pairs : changed.getPairs = factory.getPairs)
    (all : changed.allPairs = factory.allPairs) : Kept home (world.put asFactory home changed) changed := by
  have look : ∀ tokenA tokenB, changed.getPair tokenA tokenB = factory.getPair tokenA tokenB := by
    intro tokenA tokenB
    unfold DEXV2Factory.getPair
    rw [pairs]
  have initialised : ∀ tokenA tokenB, changed.getPair tokenA tokenB ≠ 0 →
      ∃ pair, (world.put asFactory home changed).at_ asPair (changed.getPair tokenA tokenB) = some pair ∧
        Initialised home tokenA tokenB pair := by
    intro tokenA tokenB registered
    rw [look] at registered ⊢
    obtain ⟨contract, there, initialised⟩ := kept.initialised tokenA tokenB registered
    exact ⟨contract, (at_put_of_ne _ (pair_ne_factory there kept.here)).trans there, initialised⟩
  exact {
    symmetric := by simpa only [look] using kept.symmetric
    initialised
    distinct := by simpa only [look] using kept.distinct
    listed := by simpa only [look, all] using kept.listed
    once := by simpa only [all] using kept.once
    here := at_put_self kept.here
    deployed := by simpa only [all, put_keys] using kept.deployed }

theorem call_ok (done : call home world request = .ok after) :
    ∃ answer, Yields (perform home request.request) world answer after :=
  run_eq_ok.mp done

theorem Extended.fees (pairs : changed.getPairs = factory.getPairs) (all : changed.allPairs = factory.allPairs) :
    Extended factory changed [] where
  listed := all.trans (List.append_nil _).symm
  found tokenA tokenB := by
    unfold DEXV2Factory.getPair
    rw [pairs]
    rfl

theorem Extended.trans {next last : DEXV2Factory} {first second : List CreatedPair} (early : Extended factory next first)
    (late : Extended next last second) : Extended factory last (first ++ second) where
  listed := by rw [late.listed, early.listed, List.map_append, List.append_assoc]
  found tokenA tokenB := by
    rw [late.found, early.found]
    unfold paired
    rw [List.foldl_append]

/-- The entry is under the tokens in the order in which they were given. -/
theorem register_extended (apart : token0 ≠ token1) (same : SameTokens token0 token1 tokenA tokenB) :
    Extended factory (factory.register token0 token1 pair) [⟨tokenA, tokenB, pair⟩] where
  listed := rfl
  found tokenC tokenD := by
    rw [register_getPair apart]
    exact if_congr ⟨same.symm.trans, same.trans⟩ rfl rfl

theorem call_extends (kept : Kept home world factory) (done : call home world request = .ok after) :
    ∃ next, Kept home after next ∧ Extended factory next (created home world request) := by
  obtain ⟨answer, yields⟩ := call_ok done
  cases request with
  | mk caller request =>
    cases request with
    | createPair around tokenA tokenB =>
      obtain ⟨pair, between, creating, rest⟩ := yields_bind.mp yields
      obtain ⟨_, rfl⟩ := pure_yields rest
      obtain ⟨token0, token1, made, same⟩ := createPair_created creating
      have apart : token0 ≠ token1 := fun same => (BitVec.lt_irrefl token1) (same ▸ made.sorted)
      have entry : created home world ⟨caller, .createPair around tokenA tokenB⟩ = [⟨tokenA, tokenB, pair⟩] := by
        have ran : (DEXV2Factory.createPair around home tokenA tokenB).run world = .ok (pair, between) := creating
        simp only [created, ran]
      rw [entry]
      exact ⟨_, kept.created made, register_extended apart same⟩
    | setFeeTo feeTo =>
      obtain ⟨old, changed, here, same, rfl⟩ := callContractFunction_yields yields
      cases here.symm.trans kept.here
      cases same
      exact ⟨_, kept.fees rfl rfl, .fees rfl rfl⟩
    | setFeeToSetter feeToSetter =>
      obtain ⟨old, changed, here, same, rfl⟩ := callContractFunction_yields yields
      cases here.symm.trans kept.here
      cases same
      exact ⟨_, kept.fees rfl rfl, .fees rfl rfl⟩

/-- A call that throws creates nothing. -/
theorem created_refused {what : Exception} (refused : call home world request = .error what) :
    created home world request = [] := by
  cases request with
  | mk caller request =>
    cases request with
    | createPair around tokenA tokenB =>
      cases ran : (DEXV2Factory.createPair around home tokenA tokenB).run world with
      | error what => simp only [created, ran]
      | ok done =>
        have goes : ((perform home (.createPair around tokenA tokenB)).run world).map Prod.snd = .ok done.2 := by
          show ((do let done ← (DEXV2Factory.createPair around home tokenA tokenB).run world; pure ((), done.2)).map Prod.snd) = _
          rw [ran]
          rfl
        cases goes.symm.trans refused
    | setFeeTo feeTo | setFeeToSetter feeToSetter => rfl

theorem attempt_extends (request : Call) (kept : Kept home world factory) :
    ∃ next, Kept home (attempt (call home) world request) next ∧ Extended factory next (created home world request) := by
  cases done : call home world request with
  | error what =>
    rw [attempt_error done, created_refused done]
    exact ⟨factory, kept, .fees rfl rfl⟩
  | ok after =>
    rw [attempt_ok done]
    exact call_extends kept done

theorem run_extends (requests : List Call) (kept : Kept home world factory) :
    ∃ next, Kept home (requests.foldl (attempt (call home)) world) next ∧ Extended factory next (createdPairs home world requests) := by
  induction requests generalizing world factory with
  | nil => exact ⟨factory, kept, .fees rfl rfl⟩
  | cons request rest ih =>
    obtain ⟨between, keptNext, early⟩ := attempt_extends request kept
    obtain ⟨next, keptLast, late⟩ := ih keptNext
    exact ⟨next, keptLast, early.trans late⟩

/-- Where the fees go and who may say so. -/
def feesOf (home : Address) (world : World) : Option (Address × Address) :=
  (world.at_ asFactory home).map fun factory => (factory.feeTo, factory.feeToSetter)

/-- A call changes them only if it comes from the account that may. -/
def Authorised (home : Address) (world : World) (request : Call) : Prop :=
  feesOf home (attempt (call home) world request) ≠ feesOf home world →
    ∃ factory, world.at_ asFactory home = some factory ∧ request.caller = factory.feeToSetter

/-- The setters are called by that account, or with what is set already. -/
def Permitted (home : Address) (world : World) (request : Call) : Prop :=
  ∀ factory, world.at_ asFactory home = some factory → request.caller = factory.feeToSetter ∨
    match request.request with
    | .createPair .. => True
    | .setFeeTo feeTo => feeTo = factory.feeTo
    | .setFeeToSetter feeToSetter => feeToSetter = factory.feeToSetter

private theorem callContractFunction_done {τ : Type} {as_ : Cast τ} {function : τ → Except Exception τ} {value result : τ}
    (known : world.at_ as_ home = some value) (done : function value = .ok result) :
    Yields (callContractFunction as_ home function) world () (world.put as_ home result) :=
  yields_getContract_bind.mpr ⟨value, known, yields_checked_bind.mpr ⟨result, done, rfl⟩⟩

theorem attempt_yields {answer : Unit} (done : Yields (perform home request.request) world answer after) :
    attempt (call home) world request = after := by
  apply attempt_ok
  unfold call
  rw [(done : (perform home request.request).run world = .ok (answer, after))]
  rfl

theorem feesOf_put (kept : Kept home world factory) :
    feesOf home (world.put asFactory home changed) = some (changed.feeTo, changed.feeToSetter) := by
  unfold feesOf
  rw [at_put_self kept.here]
  rfl

private theorem feesOf_eq (kept : Kept home world factory) : feesOf home world = some (factory.feeTo, factory.feeToSetter) := by
  unfold feesOf
  rw [kept.here]
  rfl

theorem createPair_feesOf {around : Around} {caller : Address} :
    feesOf home (attempt (call home) world ⟨caller, .createPair around tokenA tokenB⟩) = feesOf home world := by
  cases done : call home world ⟨caller, .createPair around tokenA tokenB⟩ with
  | error what => rw [attempt_error done]
  | ok after =>
    rw [attempt_ok done]
    obtain ⟨answer, yields⟩ := call_ok done
    obtain ⟨pair, between, creating, rest⟩ := yields_bind.mp yields
    obtain ⟨_, rfl⟩ := pure_yields rest
    obtain ⟨token0, token1, created, _⟩ := createPair_created creating
    obtain ⟨old, here, _, entered⟩ := created.entered
    unfold feesOf
    rw [here, entered]
    rfl

/-- A call is authorised exactly if it is permitted where it is made. -/
theorem authorised_iff (kept : Kept home world factory) :
    Authorised home world request ↔ Permitted home world request := by
  have known : (∃ factory, world.at_ asFactory home = some factory ∧ request.caller = factory.feeToSetter) ↔
      request.caller = factory.feeToSetter :=
    ⟨fun ⟨other, here, same⟩ => Option.some.inj (here.symm.trans kept.here) ▸ same, fun same => ⟨factory, kept.here, same⟩⟩
  have changes : ∀ changed : DEXV2Factory, Yields (perform home request.request) world () (world.put asFactory home changed) →
      (Authorised home world request ↔ request.caller = factory.feeToSetter ∨
        (changed.feeTo = factory.feeTo ∧ changed.feeToSetter = factory.feeToSetter)) := by
    intro changed yields
    unfold Authorised
    rw [attempt_yields yields, feesOf_put kept, feesOf_eq kept, known, ne_eq, Option.some.injEq, Prod.mk.injEq]
    exact imp_iff_not_or.trans ((or_congr_left not_not).trans or_comm)
  cases request with
  | mk caller request =>
    cases request with
    | createPair around tokenA tokenB =>
      constructor
      · intro _ _ _
        exact .inr trivial
      · intro _ changed
        exact absurd createPair_feesOf changed
    | setFeeTo feeTo =>
      rw [changes _ (callContractFunction_done kept.here rfl)]
      constructor
      · intro allowed other here
        cases here.symm.trans kept.here
        exact allowed.imp_right And.left
      · intro permitted
        exact (permitted factory kept.here).imp_right fun same => ⟨same, rfl⟩
    | setFeeToSetter feeToSetter =>
      rw [changes _ (callContractFunction_done kept.here rfl)]
      constructor
      · intro allowed other here
        cases here.symm.trans kept.here
        exact allowed.imp_right And.right
      · intro permitted
        exact (permitted factory kept.here).imp_right fun same => ⟨rfl, same⟩

theorem new_kept {feeToSetter : Address} (new : world.at_ asFactory home = some { feeToSetter }) :
    Kept home world { feeToSetter } := by
  have none_ : ∀ tokenA tokenB, ({ feeToSetter } : DEXV2Factory).getPair tokenA tokenB = 0 := by
    intro tokenA tokenB
    rw [getPair_eq]
    rfl
  exact {
    symmetric := fun tokenA tokenB => (none_ tokenA tokenB).trans (none_ tokenB tokenA).symm
    initialised := fun tokenA tokenB registered => absurd (none_ tokenA tokenB) registered
    distinct := fun tokenA tokenB _ _ _ registered => absurd (none_ tokenA tokenB) registered
    listed := by
      intro pair someone
      constructor
      · intro listed
        cases listed
      · rintro ⟨tokenA, tokenB, found⟩
        exact absurd (found.symm.trans (none_ tokenA tokenB)) someone
    once := List.nodup_nil
    here := new
    deployed := fun _ listed => by cases listed }

/-- The factory that is there has a registry that is right. -/
def Consistent (home : Address) (world : World) : Prop := ∃ factory, Kept home world factory

/-- The registry is right after every run of calls to a new factory and has the pairs that were created, and the fees are
set by the account that may set them exactly in the runs in which nobody else tries to. -/
theorem registry_and_authority (home feeToSetter : Address) (world : World)
    (new : world.at_ asFactory home = some { feeToSetter }) (requests : List Call) :
    (∃ factory, (requests.foldl (attempt (call home)) world).at_ asFactory home = some factory ∧
      Registered home (requests.foldl (attempt (call home)) world) factory ∧
      factory.allPairs = (createdPairs home world requests).map CreatedPair.pair ∧
      ∀ tokenA tokenB, factory.getPair tokenA tokenB = paired (createdPairs home world requests) 0 tokenA tokenB) ∧
    (Throughout (call home) (Authorised home) world requests ↔ Throughout (call home) (Permitted home) world requests) := by
  have kept := new_kept new
  have step : ∀ state request after, Consistent home state → call home state request = .ok after → Consistent home after := by
    rintro state request after ⟨_, before⟩ done
    obtain ⟨next, later, _⟩ := call_extends before done
    exact ⟨next, later⟩
  have same : ∀ state request, Consistent home state → (Authorised home state request ↔ Permitted home state request) :=
    fun state request before => before.elim fun _ kept => authorised_iff kept
  constructor
  · obtain ⟨factory, later, extended⟩ := run_extends requests kept
    refine ⟨factory, later.here, later.toRegistered, extended.listed, fun tokenA tokenB => ?_⟩
    rw [extended.found, getPair_eq]
    rfl
  · exact Throughout.congr step same requests ⟨_, kept⟩

/-- A factory at the address 1 whose fees the account 5 may set. -/
def newFactory : World where
  contracts := [(1, .factory { feeToSetter := 5 })]
  native _ := 0

/-- The chain is the factory's, as only then a creation that the factory asks for goes through. -/
def ownChain : Around := ⟨fun _ => 7, 1, 1, 0⟩

/-- Someone has a pair created, and the account 5 sends the fees to the account 9. -/
abbrev firstCalls : List Call := [⟨8, .createPair ownChain 3 2⟩, ⟨5, .setFeeTo 9⟩]

theorem first_pair_is_registered : createdPairs 1 newFactory firstCalls = [⟨3, 2, 7⟩] ∧
    Throughout (call 1) (Authorised 1) newFactory firstCalls ∧
    ∃ factory, (firstCalls.foldl (attempt (call 1)) newFactory).at_ asFactory 1 = some factory ∧
      Registered 1 (firstCalls.foldl (attempt (call 1)) newFactory) factory ∧ factory.allPairs = [7] ∧
      factory.getPair 2 3 = 7 ∧ factory.getPair 3 4 = 0 := by
  have made : createdPairs 1 newFactory firstCalls = [⟨3, 2, 7⟩] := by decide
  have permitted : Throughout (call 1) (Permitted 1) newFactory firstCalls := by
    refine ⟨fun _ _ => .inr trivial, fun factory here => .inl ?_, trivial⟩
    have fees : feesOf 1 (attempt (call 1) newFactory ⟨8, .createPair ownChain 3 2⟩) = feesOf 1 newFactory := createPair_feesOf
    unfold feesOf at fees
    rw [here] at fees
    exact (congrArg Prod.snd (Option.some.inj fees)).symm
  obtain ⟨⟨factory, here, registered, listed, found⟩, authorised⟩ := registry_and_authority 1 5 newFactory rfl firstCalls
  rw [made] at listed found
  exact ⟨made, authorised.mpr permitted, factory, here, registered, listed, found 2 3, found 3 4⟩

/-- The account 7 takes the right to set the fees for itself. -/
theorem anyone_sets_fees : ¬ Throughout (call 1) (Authorised 1) newFactory [⟨7, .setFeeToSetter 7⟩] := by
  rintro ⟨authorised, _⟩
  have changed : feesOf 1 (attempt (call 1) newFactory ⟨7, .setFeeToSetter 7⟩) ≠ feesOf 1 newFactory := by decide
  obtain ⟨factory, here, same⟩ := authorised changed
  cases here
  cases same

end OrbiterSDK.Proofs.PairRegistry
