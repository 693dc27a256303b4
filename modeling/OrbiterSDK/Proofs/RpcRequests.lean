import OrbiterSDK.Proofs.RpcDecoders
import OrbiterSDK.Proofs.RpcAnswers

/-! What requests are answered, and which of them the node does not survive. -/

namespace OrbiterSDK.Proofs.RpcRequests
open Lib Fault JsonRPC RpcTexts RpcArguments RpcDecoders RpcAnswers
variable {World : Type} {α β : Type} {request : Value}

/-- Memory is read that is not there. -/
def Failed (rpc : Rpc World α) (storage : Storage) (state : State World) : Prop :=
  ∃ after, (rpc storage).eval state = (.error (.exception Tx.pastEnd), after)

theorem endsAt_decoded {decoder : Decoding.Decoder α} {storage : Storage} {good : α → Storage → Prop} {crash : Prop}
    (ends : EndsAt decoder storage good crash) (state : State World) :
    EndsAt (Served.decoded decoder) (storage, state) (fun value after => good value after.1 ∧ after.2 = state) crash := by
  rcases seen : decoder.eval storage with ⟨fault | value, middle⟩
  · have eval : (Served.decoded decoder).eval (storage, state) = (.error (Served.fault fault), middle, state) := by
      unfold Served.decoded
      rw [Action.eval_bind, Action.eval_get]
      dsimp only
      rw [seen]
      rfl
    constructor
    · rintro value ⟨after, last⟩
      rw [eval, ← ends.ok_iff, seen]
      refine iff_of_false (fun same => by cases same) ?_
      rintro ⟨same, _⟩
      cases same
    · rw [eval, ← ends.undefined_iff, seen]
      cases fault with
      | exception what => exact iff_of_false (fun same => by cases same) (fun same => by cases same)
      | undefined => exact iff_of_true rfl rfl
  · have eval : (Served.decoded decoder).eval (storage, state) = (.ok value, middle, state) := by
      unfold Served.decoded
      rw [Action.eval_bind, Action.eval_get]
      dsimp only
      rw [seen]
      rfl
    constructor
    · rintro other ⟨after, last⟩
      rw [eval, ← ends.ok_iff, seen]
      constructor
      · intro same
        cases same
        exact ⟨rfl, rfl⟩
      · rintro ⟨same, rfl⟩
        cases same
        rfl
    · rw [eval, ← ends.undefined_iff, seen]
      exact iff_of_false (fun same => by cases same) (fun same => by cases same)

theorem endsAt_encoded (rpc : Rpc World α) (storage : Storage) (state : State World) :
    EndsAt (Served.encoded rpc) (storage, state) (fun value after => Gives rpc state storage value after.2 after.1) (Failed rpc storage state) := by
  unfold Gives Failed
  rcases seen : (rpc storage).eval state with ⟨why | ⟨value, middle⟩, last⟩
  · have eval : (Served.encoded rpc).eval (storage, state) = (.error (Served.stop why), storage, last) := by
      unfold Served.encoded
      rw [Action.eval_bind, Action.eval_get]
      dsimp only
      rw [seen]
      rfl
    constructor
    · rintro value ⟨after, final⟩
      rw [eval]
      exact iff_of_false (fun same => by cases same) (fun same => by cases same)
    · rw [eval]
      cases why with
      | deadlock =>
        refine iff_of_false (fun same => by cases same) ?_
        rintro ⟨_, same⟩
        cases same
      | exception what =>
        unfold Served.stop
        by_cases past : what = Tx.pastEnd
        · subst past
          exact iff_of_true (congrArg Except.error (if_pos rfl)) ⟨last, rfl⟩
        · refine iff_of_false ?_ ?_
          · intro same
            have same : (if what = Tx.pastEnd then Fault.undefined else .exception (Stop.exception what)) = .undefined := Except.error.inj same
            rw [if_neg past] at same
            cases same
          · rintro ⟨_, same⟩
            exact past (Stop.exception.inj (Except.error.inj (Prod.mk.inj same).1))
  · have eval : (Served.encoded rpc).eval (storage, state) = (.ok value, middle, last) := by
      unfold Served.encoded
      rw [Action.eval_bind, Action.eval_get]
      dsimp only
      rw [seen]
      rfl
    constructor
    · rintro other ⟨after, final⟩
      rw [eval]
      constructor
      · intro same
        cases same
        rfl
      · intro same
        cases same
        rfl
    · rw [eval]
      refine iff_of_false (fun same => by cases same) ?_
      rintro ⟨_, same⟩
      cases same

theorem endsAt_read {outcome : Read α} {good : α → Prop} {crash : Prop} (ends : Ends outcome good crash) (both : Storage × State World) :
    EndsAt (Served.decoded (Decoding.lift outcome)) both (fun value after => good value ∧ after = both) crash := by
  obtain ⟨storage, state⟩ := both
  apply (endsAt_decoded (endsAt_lift ends) state).congr
  · rintro value ⟨after, last⟩
    rw [Prod.mk.injEq, and_assoc]
  · exact Iff.rfl

/-- Version 2.0, a method, and parameters that are a list or an object. -/
def Conforms (request : Value) : Prop := Given request "jsonrpc" = some (.string "2.0") ∧ (Given request "method").isSome = true ∧
  ∀ params, Given request "params" = some params → (∃ values, params = .array values) ∨ ∃ members, params = .object members

theorem params_iff {request params : Value} : Params request params ↔ Given request "params" = some params := by
  unfold Params Given
  cases request with
  | object members => simp
  | null | array | string | integer | float | boolean => simp

theorem constMember_given {request value : Value} {key : String} (given : Given request key = some value) : request.constMember key = .ok value := by
  unfold Given at given
  cases request with
  | object members =>
    unfold Value.constMember
    dsimp only at given ⊢
    rw [given]
    rfl
  | null | array | string | integer | float | boolean => cases given

/-- The check throws if the version is no text. -/
def Versioned (request : Value) : Prop := ∀ version, Given request "jsonrpc" = some version → ∃ text, version = .string text

/-- A check that always ends with a verdict, which is right. -/
theorem ends_decided {check : Read Bool} {right : Prop} (decided : ∃ verdict, check = .ok verdict ∧ (verdict = true ↔ right)) :
    Ends check (fun verdict => verdict = true ↔ right) False := by
  obtain ⟨verdict, done, iff⟩ := decided
  apply Ends.congr (done ▸ ends_ok verdict) (fun other => ?_) Iff.rfl
  rw [← iff]
  constructor
  · rintro rfl
    exact Iff.rfl
  · exact fun same => Bool.eq_iff_iff.mpr same

theorem ends_checkJsonRPCSpec (request : Value) : Ends (Decoding.checkJsonRPCSpec request)
    (fun conforms => Versioned request ∧ (conforms = true ↔ Conforms request)) False := by
  unfold Decoding.checkJsonRPCSpec
  apply Ends.mapError _ rfl fun what => ⟨_, rfl⟩
  rw [contains_iff, contains_iff, contains_iff]
  cases versioned : Given request "jsonrpc" with
  | none =>
    have no : ¬ Conforms request := by
      rintro ⟨version, _⟩
      cases versioned.symm.trans version
    apply (ends_ok false).congr (fun conforms => ?_) Iff.rfl
    have any : Versioned request := by
      intro version given
      cases versioned.symm.trans given
    rw [Bool.eq_false_iff, and_iff_right any, iff_false_right no, ne_eq]
  | some version =>
    rw [constMember_given versioned]
    have good : ∀ conforms, (∃ text, version = .string text ∧ (conforms = true ↔ Conforms request)) ↔
        (Versioned request ∧ (conforms = true ↔ Conforms request)) := by
      intro conforms
      unfold Versioned
      simp only [versioned, Option.some.injEq, forall_eq', exists_and_right]
    apply ((ends_getString version).bind fun text same => ?_).congr good (never fun _ => id)
    subst same
    apply ends_decided
    by_cases two : text = "2.0"
    · subst two
      rw [if_neg (not_not.mpr rfl)]
      cases method : Given request "method" with
      | none =>
        refine ⟨false, rfl, iff_of_false Bool.false_ne_true ?_⟩
        rintro ⟨_, present, _⟩
        rw [method] at present
        cases present
      | some member =>
        rw [Option.isSome_some, if_neg Bool.noConfusion]
        have rest : ∀ right : Prop, (right ↔ ∀ params, Given request "params" = some params →
            (∃ values, params = .array values) ∨ ∃ members, params = .object members) → (Conforms request ↔ right) := by
          intro right same
          rw [same]
          exact ⟨fun conforms => conforms.2.2, fun listed => ⟨versioned, method ▸ rfl, listed⟩⟩
        cases given : Given request "params" with
        | none =>
          refine ⟨true, rfl, iff_of_true rfl ((rest True (iff_of_true trivial ?_)).mpr trivial)⟩
          intro params other
          cases given.symm.trans other
        | some params =>
          rw [Option.isSome_some, if_pos rfl, constMember_given given]
          have only : (∀ other, Given request "params" = some other →
              (∃ values, other = .array values) ∨ ∃ members, other = .object members) ↔
              (∃ values, params = .array values) ∨ ∃ members, params = .object members := by
            rw [given]
            simp only [Option.some.injEq, forall_eq']
          have conforms := rest _ only.symm
          cases params with
          | array values => exact ⟨true, rfl, iff_of_true rfl (conforms.mpr (.inl ⟨values, rfl⟩))⟩
          | object members => exact ⟨true, rfl, iff_of_true rfl (conforms.mpr (.inr ⟨members, rfl⟩))⟩
          | null | string | boolean | integer | float =>
            refine ⟨false, rfl, iff_of_false Bool.false_ne_true ?_⟩
            intro holds
            rcases conforms.mp holds with ⟨_, same⟩ | ⟨_, same⟩
            · cases same
            · cases same
    · rw [if_pos two]
      refine ⟨false, rfl, iff_of_false Bool.false_ne_true ?_⟩
      rintro ⟨version, _⟩
      cases versioned.symm.trans version
      exact two rfl

theorem ends_getMethod (conforms : Conforms request) : Ends (Decoding.getMethod request)
    (fun method => ∃ name, Given request "method" = some (.string name) ∧ method = (methodsLookupTable.lookup name).getD .invalid) False := by
  obtain ⟨member, given⟩ := Option.isSome_iff_exists.mp conforms.2.1
  unfold Decoding.getMethod
  apply Ends.mapError _ rfl fun what => ⟨_, rfl⟩
  rw [constMember_given given]
  apply ((ends_getString member).bind fun name _ => ends_ok _).congr
  · intro method
    simp only [given, Option.some.injEq]
  · exact never fun _ => id

/-- How an id is given back: a number becomes one of 64 bits. -/
inductive Echoes : Value → Value → Prop where
  | string (text : String) : Echoes (.string text) (.string text)
  | integer (number : Int) : Echoes (.integer number) (.integer (number % 2 ^ 64))
  | float (whole : Int) (fits : 0 ≤ whole ∧ whole < 2 ^ 64) : Echoes (.float whole) (.integer whole)
  | null : Echoes .null .null

/-- The id of a request, which is null if there is none. -/
def idOf (request : Value) : Value := (Given request "id").getD .null

/-- A number that does not fit. -/
def Unfit (id : Value) : Prop := ∃ whole : Int, id = .float whole ∧ ¬ (0 ≤ whole ∧ whole < 2 ^ 64)

theorem ends_echo (original : Value) : Ends (echo original) (Echoes original) (Unfit original) := by
  have fits : ∀ value : Value, (∀ whole, value ≠ .float whole) → ¬ Unfit value := by
    rintro value other ⟨whole, same, _⟩
    exact other whole same
  cases original with
  | null =>
    apply (ends_ok Value.null).congr (fun echoed => ?_) (iff_of_false id (fits _ fun _ same => by cases same))
    constructor
    · rintro rfl
      exact .null
    · intro same
      cases same
      rfl
  | string text =>
    apply (ends_ok (Value.string text)).congr (fun echoed => ?_) (iff_of_false id (fits _ fun _ same => by cases same))
    constructor
    · rintro rfl
      exact .string text
    · intro same
      cases same
      rfl
  | integer number =>
    have wrapped : ((UInt64.ofInt number).toNat : Int) = number % 2 ^ 64 := by
      have positive : 0 ≤ number % 2 ^ 64 := Int.emod_nonneg number (by decide)
      have small : number % 2 ^ 64 < 2 ^ 64 := Int.emod_lt_of_pos number (by decide)
      have fits : (number % 2 ^ 64).toNat < 2 ^ 64 := by omega
      unfold UInt64.ofInt
      rw [UInt64.toNat_ofNat_of_lt' fits, Int.toNat_of_nonneg positive]
    apply (ends_ok (Value.integer ((UInt64.ofInt number).toNat : Int))).congr (fun echoed => ?_) (iff_of_false id (fits _ fun _ same => by cases same))
    rw [wrapped]
    constructor
    · rintro rfl
      exact .integer number
    · intro same
      cases same
      rfl
  | float whole =>
    apply (Ends.ite (fun _ => ends_ok (Value.integer whole)) fun _ => ends_undefined).congr
    · intro echoed
      by_cases fit : 0 ≤ whole ∧ whole < 2 ^ 64
      · rw [if_pos fit]
        constructor
        · rintro rfl
          exact .float whole fit
        · intro same
          cases same
          rfl
      · rw [if_neg fit]
        refine iff_of_false (fun impossible => impossible) ?_
        intro same
        cases same with
        | float _ inside => exact fit inside
    · by_cases fit : 0 ≤ whole ∧ whole < 2 ^ 64
      · rw [if_pos fit]
        refine iff_of_false (fun impossible => impossible) ?_
        rintro ⟨_, same, unfit⟩
        cases same
        exact unfit fit
      · rw [if_neg fit]
        exact iff_of_true trivial ⟨whole, rfl, fit⟩
  | boolean | array | object =>
    apply (ends_exception _).congr (fun echoed => ?_) (iff_of_false id (fits _ fun _ same => by cases same))
    refine iff_of_false id ?_
    intro same
    cases same

section Encoders
variable {services : Services World} {options : Encoding.Options} {storage next : Storage} {state after : State World}

theorem not_failed {rpc : Rpc World α} {value : α} (gives : Gives rpc state storage value after next) : ¬ Failed rpc storage state := by
  rintro ⟨_, failed⟩
  cases gives.symm.trans failed

theorem failed_bind {first : Rpc World α} {rest : α → Rpc World β} : Failed (first >>= rest) storage state ↔
    Failed first storage state ∨ ∃ value next after, Gives first state storage value after next ∧ Failed (rest value) next after := by
  have split : (first >>= rest) storage = (first storage) >>= fun both => rest both.1 both.2 := rfl
  unfold Failed Gives
  rw [split]
  rcases seen : (first storage).eval state with ⟨why | ⟨value, middle⟩, last⟩
  · rw [Statements.eval_seq_error seen]
    have never : ¬ ∃ value next after, (Except.error why, last) = ((.ok (value, next), after) : Except Stop (α × Storage) × State World) ∧
        ∃ final, ((rest value) next).eval after = (.error (.exception Tx.pastEnd), final) := by
      rintro ⟨_, _, _, same, _⟩
      cases same
    rw [or_iff_left never]
    simp only [Prod.mk.injEq, exists_eq_right', Except.error.injEq]
  · rw [Statements.eval_seq_ok seen]
    have never : ¬ ∃ after, (Except.ok (value, middle), last) =
        ((.error (.exception Tx.pastEnd), after) : Except Stop (α × Storage) × State World) := by
      rintro ⟨_, same⟩
      cases same
    rw [or_iff_right never]
    constructor
    · exact fun failed => ⟨value, middle, last, rfl, failed⟩
    · rintro ⟨_, _, _, same, failed⟩
      cases same
      exact failed

theorem failed_bind_of {first : Rpc World α} {rest : α → Rpc World β} {value : α} (gives : Gives first state storage value after next) :
    Failed (first >>= rest) storage state ↔ Failed (rest value) next after := by
  rw [failed_bind, or_iff_right (not_failed gives)]
  constructor
  · rintro ⟨_, _, _, other, failed⟩
    cases gives.symm.trans other
    exact failed
  · exact fun failed => ⟨value, next, after, gives, failed⟩

theorem failed_query {ask : Storage → Except Exception (α × Storage)} : Failed (Encoding.query ask : Rpc World α) storage state ↔
    ask storage = .error Tx.pastEnd := by
  unfold Failed Encoding.query
  cases ask storage with
  | ok found => exact iff_of_false (fun impossible => impossible.elim fun _ same => by cases same) (fun same => by cases same)
  | error what =>
    rw [Statements.eval_checked_error]
    simp only [Prod.mk.injEq, exists_eq_right', Except.error.injEq, Stop.exception.injEq]

theorem failed_query_bind {ask : Storage → Except Exception (α × Storage)} {rest : α → Rpc World β} :
    Failed (Encoding.query ask >>= rest) storage state ↔
    ask storage = .error Tx.pastEnd ∨ ∃ value next, ask storage = .ok (value, next) ∧ Failed (rest value) next state := by
  rcases seen : ask storage with what | ⟨value, next⟩
  · have never : ∀ value next after, ¬ Gives (Encoding.query ask : Rpc World α) state storage value after next := by
      intro value next after gives
      unfold Gives Encoding.query at gives
      rw [seen, Statements.eval_checked_error] at gives
      cases gives
    rw [failed_bind, failed_query, seen]
    simp only [never, false_and, exists_false, or_false, reduceCtorEq]
  · rw [failed_bind_of (gives_query seen)]
    simp only [reduceCtorEq, false_or, Except.ok.injEq, Prod.mk.injEq, and_assoc, exists_eq_left', exists_and_left]

theorem failed_query_written {ask : Storage → Except Exception (α × Storage)} {rest : α → Rpc World β}
    (written : ∀ value next, ∃ result after final, Gives (rest value) state next result after final) :
    Failed (Encoding.query ask >>= rest) storage state ↔ ask storage = .error Tx.pastEnd := by
  rw [failed_query_bind, or_iff_left]
  rintro ⟨value, next, _, failed⟩
  obtain ⟨_, _, _, gives⟩ := written value next
  exact not_failed gives failed

theorem failed_lift {action : Act World α} : Failed (StateT.lift action) storage state ↔
    ∃ after, action.eval state = (.error (.exception Tx.pastEnd), after) := by
  unfold Failed StateT.lift
  rcases seen : action.eval state with ⟨why | value, last⟩
  · rw [Statements.eval_seq_error seen]
    simp only [Prod.mk.injEq, exists_eq_right', Except.error.injEq]
  · rw [Statements.eval_seq_ok seen]
    refine iff_of_false ?_ ?_
    · rintro ⟨_, same⟩
      cases same
    · rintro ⟨_, same⟩
      cases same

theorem not_failed_encoded {encoder : Except Exception Value} {value : Value} (done : encoder = .ok value) :
    ¬ Failed (Encoding.encoded encoder : Rpc World Value) storage state := not_failed (gives_encoded done)

theorem failed_trying {body : Act World Value} : Failed (StateT.lift (Encoding.trying body)) storage state ↔
    ∃ after, body.eval state = (.error (.exception Tx.pastEnd), after) := by
  rw [failed_lift, Encoding.trying, Action.eval_tryCatch]
  rcases body.eval state with ⟨(what | _) | value, middle⟩
  case error.exception =>
    dsimp only
    by_cases past : what = Tx.pastEnd
    · rw [if_pos past, past]
      rfl
    · rw [if_neg past]
      refine iff_of_false ?_ ?_
      · rintro ⟨_, same⟩
        cases same
      · rintro ⟨_, same⟩
        exact past (Stop.exception.inj (Except.error.inj (Prod.mk.inj same).1))
  all_goals
    refine iff_of_false ?_ ?_
    all_goals
      rintro ⟨_, same⟩
      cases same

theorem error_add {left right : Uint256} {what : Exception} (refused : Uint256.add left right = .error what) : what = Uint256.overflow := by
  unfold Uint256.add at refused
  split at refused
  · cases refused
  · exact (Except.error.inj refused).symm

theorem error_mul {left right : Uint256} {what : Exception} (refused : Uint256.mul left right = .error what) : what = Uint256.overflow := by
  unfold Uint256.mul at refused
  split at refused
  · cases refused
  · exact (Except.error.inj refused).symm

theorem error_validate {tx : TxBlock} {what : Exception} (refused : state.validateTransactionInternal tx = .error what) :
    what = Uint256.overflow := by
  unfold State.validateTransactionInternal at refused
  split at refused
  · cases refused
  · unfold State.validateAgainstAccounts at refused
    cases found : state.evmHost.accounts.find tx.from with
    | none =>
      rw [found] at refused
      cases refused
    | some acc =>
      rw [found] at refused
      dsimp only at refused
      rcases product : Uint256.mul tx.gasLimit tx.maxFeePerGas with why | fees <;> rw [product] at refused
      · cases refused
        exact error_mul product
      · change (Uint256.add tx.value fees >>= _) = _ at refused
        rcases sum : Uint256.add tx.value fees with why | txWithFees <;> rw [sum] at refused
        · cases refused
          exact error_add sum
        · change ite _ _ _ = _ at refused
          split at refused
          · cases refused
          · split at refused <;> cases refused

theorem not_failed_addTx {tx : TxBlock} (free : state.stateMutex = .free) : ¬ Failed (Encoding.eth_sendRawTransaction tx) storage state := by
  unfold Encoding.eth_sendRawTransaction
  rw [failed_bind, failed_lift, Locks.eval_addTx free]
  rintro (⟨_, failed⟩ | ⟨_, _, _, _, failed⟩)
  · cases seen : state.validateTransactionInternal tx with
    | ok verdict =>
      rw [seen] at failed
      cases failed
    | error what =>
      rw [seen] at failed
      cases failed
      exact absurd (error_validate seen) (by decide)
  · exact not_failed (gives_pure _) failed

/-- What the answer to a call reads that is not there: a block that is unknown, or one that is not whole where it is stored. -/
def Breaks (services : Services World) (storage : Storage) (state : State World) : Call → Prop
  | .encoded (.eth_getBlockByHash blockHash _) => Storage.getBlock services.reader storage services.db blockHash = .error Tx.pastEnd
  | .encoded (.eth_getBlockByNumber blockNumber _) => Storage.getBlockAt services.reader storage services.db blockNumber = .error Tx.pastEnd
  | .encoded (.eth_getBlockTransactionCountByHash blockHash) => Storage.getBlock services.reader storage services.db blockHash = .error Tx.pastEnd ∨
    ∃ next, Storage.getBlock services.reader storage services.db blockHash = .ok (none, next)
  | .encoded (.eth_getBlockTransactionCountByNumber blockNumber) =>
    Storage.getBlockAt services.reader storage services.db blockNumber = .error Tx.pastEnd ∨
    ∃ next, Storage.getBlockAt services.reader storage services.db blockNumber = .ok (none, next)
  | .encoded .eth_blockNumber => storage.latest = .error Tx.pastEnd
  | .encoded (.eth_getTransactionByHash txHash) => state.mempool.find? (fun entry => entry.1 = txHash) = none ∧
    Storage.getTx services.reader storage services.db txHash = .error Tx.pastEnd
  | .encoded (.eth_getTransactionByBlockHashAndIndex blockHash blockIndex) =>
    Storage.getTxByBlockHashAndIndex services.reader storage services.db blockHash blockIndex = .error Tx.pastEnd
  | .encoded (.eth_getTransactionByBlockNumberAndIndex blockNumber blockIndex) =>
    Storage.getTxByBlockNumberAndIndex services.reader storage services.db blockNumber blockIndex = .error Tx.pastEnd
  | .encoded (.eth_getTransactionReceipt txHash) => Storage.getTx services.reader storage services.db txHash = .error Tx.pastEnd ∨
    ∃ tx location next, Storage.getTx services.reader storage services.db txHash = .ok ((some tx, location), next) ∧
      EventManager.getTxEvents services.json services.caps { events := state.contractManager.eventManager.events } services.db txHash
        location.blockHeight location.blockIndex = .error Tx.pastEnd
  | .eth_getLogs fromBlock toBlock address topics =>
    EventManager.getEvents services.json services.caps { events := state.contractManager.eventManager.events } services.db fromBlock toBlock
      address topics = .error Tx.pastEnd
  | _ => False

/-- The same, with the calls that run code. -/
def Fails (services : Services World) (storage : Storage) (state : State World) : Call → Prop
  | .encoded (.eth_call callInfo) => ∃ after, (State.ethCall services.env callInfo).eval state = (.error (.exception Tx.pastEnd), after)
  | .encoded (.eth_estimateGas callInfo) =>
    ∃ after, (State.estimateGas services.env callInfo).eval state = (.error (.exception Tx.pastEnd), after)
  | call => Breaks services storage state call

/-- Where the rest reads nothing that is not there, the beginning does. -/
theorem past_bind {first : Act World α} {rest : α → Act World β}
    (fine : ∀ value after last, (rest value).eval after ≠ (.error (.exception Tx.pastEnd), last)) :
    (∃ after, (first >>= rest).eval state = (.error (.exception Tx.pastEnd), after)) ↔
      ∃ after, first.eval state = (.error (.exception Tx.pastEnd), after) := by
  rcases seen : first.eval state with ⟨why | value, middle⟩
  · rw [Statements.eval_seq_error seen]
    simp only [Prod.mk.injEq, Except.error.injEq]
  · rw [Statements.eval_seq_ok seen]
    refine iff_of_false ?_ ?_
    · rintro ⟨last, failed⟩
      exact fine value middle last failed
    · rintro ⟨_, same⟩
      cases same

theorem failed_ethCall (services : Services World) (callInfo : EthCallInfo) : Failed (Encoding.eth_call services callInfo) storage state ↔
    Fails services storage state (.encoded (.eth_call callInfo)) := by
  refine failed_trying.trans (past_bind ?_)
  intro bytes after last same
  cases same

theorem failed_estimateGas (services : Services World) (callInfo : EthCallInfo) :
    Failed (Encoding.eth_estimateGas services callInfo) storage state ↔ Fails services storage state (.encoded (.eth_estimateGas callInfo)) := by
  refine failed_trying.trans (past_bind ?_)
  intro gas after last same
  by_cases none : gas = 0
  · rw [if_pos none] at same
    exact absurd (Stop.exception.inj (Except.error.inj (Prod.mk.inj same).1)) (by decide)
  · rw [if_neg none, uintForRPC_eq] at same
    cases same

private theorem gives_transactionCount (block : Block) : Gives (Encoding.transactionCount (some block) : Rpc World Value) state storage
    (Encoding.answer (.string (quantityText block.txs.length))) state storage := served_number _

theorem failed_transactionCount {ask : Storage → Except Exception (Option Block × Storage)} :
    Failed (Encoding.query ask >>= Encoding.transactionCount : Rpc World Value) storage state ↔
      ask storage = .error Tx.pastEnd ∨ ∃ next, ask storage = .ok (none, next) := by
  rw [failed_query_bind]
  apply or_congr_right
  constructor
  · rintro ⟨block, next, found, failed⟩
    cases block with
    | none => exact ⟨next, found⟩
    | some block => exact absurd failed (not_failed (gives_transactionCount block))
  · rintro ⟨next, found⟩
    exact ⟨none, next, found, state, rfl⟩

theorem failed_mined {ask : Storage → Except Exception (TxAnswer × Storage)} :
    Failed (Encoding.query ask >>= Encoding.minedAnswer : Rpc World Value) storage state ↔ ask storage = .error Tx.pastEnd := by
  apply failed_query_written
  rintro ⟨tx, location⟩ next
  cases tx with
  | none => exact ⟨_, _, _, gives_encoded rfl⟩
  | some tx =>
    obtain ⟨value, gives, _⟩ := @served_mined World state next tx location
    exact ⟨value, _, _, gives⟩

theorem failed_events {query : List Event → Except Exception (List Event)} (free : state.stateMutex = .free) :
    Failed (StateT.lift (State.getEvents query)) storage state ↔ query state.contractManager.eventManager.events = .error Tx.pastEnd := by
  rw [failed_lift]
  unfold State.getEvents
  rw [Locks.eval_holding free, Action.eval_bind, Action.eval_get]
  have same : (Locks.withMutex state .shared).contractManager.eventManager.events = state.contractManager.eventManager.events := rfl
  dsimp only
  rw [same]
  cases query state.contractManager.eventManager.events with
  | ok events => exact iff_of_false (fun impossible => impossible.elim fun _ same => by cases same) (fun same => by cases same)
  | error what =>
    rw [Statements.eval_checked_error]
    simp only [Prod.mk.injEq, exists_eq_right', Except.error.injEq, Stop.exception.injEq]

theorem failed_receipt (services : Services World) (txHash : Hash) (free : state.stateMutex = .free) :
    Failed (Encoding.eth_getTransactionReceipt services txHash) storage state ↔
      Breaks services storage state (.encoded (.eth_getTransactionReceipt txHash)) := by
  have logged : ∀ (tx : TxBlock) (location : TxLocation) (next : Storage), Failed (do
      let contractAddress ← StateT.lift (State.getEvmContractAddress tx.hash)
      let events ← StateT.lift (State.getEvents fun events =>
        EventManager.getTxEvents services.json services.caps { events } services.db txHash location.blockHeight location.blockIndex)
      Encoding.encoded (Encoding.receipt services tx location contractAddress events) : Rpc World Value) next state ↔
      EventManager.getTxEvents services.json services.caps { events := state.contractManager.eventManager.events } services.db txHash
        location.blockHeight location.blockIndex = .error Tx.pastEnd := by
    intro tx location next
    obtain ⟨created, moved, address, free, same⟩ := eval_created tx.hash free
    rw [failed_bind_of (gives_lift address), failed_bind, failed_events free, same, or_iff_left]
    rintro ⟨events, _, _, _, failed⟩
    obtain ⟨_, done, _⟩ := answered_receipt services tx location created events
    exact not_failed_encoded done failed
  unfold Encoding.eth_getTransactionReceipt Breaks
  rw [failed_query_bind]
  apply or_congr_right
  constructor
  · rintro ⟨⟨tx, location⟩, next, found, failed⟩
    cases tx with
    | none => exact absurd failed (not_failed (gives_pure _))
    | some tx => exact ⟨tx, location, next, found, (logged tx location next).mp failed⟩
  · rintro ⟨tx, location, next, found, failed⟩
    exact ⟨(some tx, location), next, found, (logged tx location next).mpr failed⟩

theorem failed_byHash (services : Services World) (txHash : Hash) (free : state.stateMutex = .free) :
    Failed (Encoding.eth_getTransactionByHash services txHash) storage state ↔
      Breaks services storage state (.encoded (.eth_getTransactionByHash txHash)) := by
  unfold Encoding.eth_getTransactionByHash Breaks
  cases found : state.mempool.find? (fun entry => entry.1 = txHash) with
  | some entry =>
    obtain ⟨_, done, _⟩ := answered_pending entry.2
    rw [failed_bind_of (gives_lift (eval_mempool txHash _ free found))]
    refine iff_of_false (not_failed_encoded done) ?_
    rintro ⟨absent, _⟩
    cases found.symm.trans absent
  | none =>
    rw [failed_bind_of (gives_lift (eval_mempool txHash _ free found))]
    exact failed_mined.trans (and_iff_right found).symm

/-- The answers to calls that read memory that is not there. -/
theorem failed_iff (call : Call) (free : state.stateMutex = .free) : Failed (respond services options call) storage state ↔
    Fails services storage state call := by
  have sound : ∀ {rpc : Rpc World Value}, ¬ Failed rpc storage state → (Failed rpc storage state ↔ False) := fun never => iff_false_intro never
  cases call with
  | encoded request =>
    cases request with
    | net_version | net_peerCount => exact sound (not_failed (gives_bind (gives_checked (uintForRPC_eq _)) (gives_pure _)))
    | eth_chainId => exact sound (not_failed_encoded (uintForRPC_eq _))
    | eth_gasPrice => exact sound (not_failed (gives_pure _))
    | eth_call callInfo => exact failed_ethCall services callInfo
    | eth_estimateGas callInfo => exact failed_estimateGas services callInfo
    | eth_getBalance address | eth_getTransactionCount address =>
      exact sound (not_failed (gives_bind (gives_lift (eval_reading free rfl)) (served_number _)))
    | eth_getCode address =>
      obtain ⟨after, read⟩ := eval_code address free
      exact sound (not_failed (gives_bind (gives_lift read) (gives_encoded (bytesForRPC_eq _))))
    | eth_getBlockByHash blockHash full | eth_getBlockByNumber blockNumber full =>
      exact failed_query_written fun block next => ⟨_, _, _, gives_pure _⟩
    | eth_getBlockTransactionCountByHash blockHash | eth_getBlockTransactionCountByNumber blockNumber => exact failed_transactionCount
    | eth_blockNumber =>
      change Failed (Encoding.query _ >>= _) storage state ↔ storage.latest = _
      rw [failed_query_written fun block next => ⟨_, _, _, served_number _⟩]
      cases storage.latest with
      | ok block => exact iff_of_false (fun same => by cases same) (fun same => by cases same)
      | error what =>
        change (Except.error what = _) ↔ _
        rw [Except.error.injEq, Except.error.injEq]
    | eth_getTransactionByHash txHash => exact failed_byHash services txHash free
    | eth_getTransactionByBlockHashAndIndex blockHash blockIndex | eth_getTransactionByBlockNumberAndIndex blockNumber blockIndex =>
      exact failed_mined
    | eth_getTransactionReceipt txHash => exact failed_receipt services txHash free
  | web3_clientVersion | web3_sha3 data | net_listening | eth_protocolVersion | eth_syncing | eth_coinbase => exact sound (not_failed (gives_pure _))
  | eth_getLogs fromBlock toBlock address topics =>
    refine failed_trying.trans ((past_bind ?_).trans (failed_lift.symm.trans (@failed_events _ storage _ _ free)))
    intro events after last same
    cases same
  | eth_sendRawTransaction tx => exact sound (not_failed_addTx free)

end Encoders

variable (services : Services World) (options : Encoding.Options) (storage : Storage) (state : State World)
  (breaks : Services World → Storage → State World → Call → Prop)

/-- The method that a request names. -/
def Asks (request : Value) (method : Methods) : Prop :=
  ∃ name, Given request "method" = some (.string name) ∧ method = (methodsLookupTable.lookup name).getD .invalid

def Implemented (method : Methods) : Prop := method ≠ .invalid ∧ method ≠ .eth_sendTransaction

def blockHeight : UInt64 := state.contractManager.globals.blockHeight

/-- What a method answers, and what it leaves. -/
def Responds (request : Value) (method : Methods) (ret : Value) (after : Storage × State World) : Prop :=
  (¬ Implemented method ∧ ret = errorMember (-32601) "Method not found" ∧ after = (storage, state)) ∨
    ∃ params call middle, Implemented method ∧ Given request "params" = some params ∧
      Means services (blockHeight state) storage method params call middle ∧ Gives (respond services options call) state middle ret after.2 after.1

/-- There are no parameters, or they are not checked as they should be, or nor is what they ask for. -/
def Dies (request : Value) (method : Methods) : Prop :=
  Implemented method ∧ (Given request "params" = none ∨ ∃ params, Given request "params" = some params ∧
    (Crashes services storage method params ∨
      ∃ call middle, Means services (blockHeight state) storage method params call middle ∧ breaks services middle state call))

variable {services options storage state breaks}

theorem lacks_iff (conforms : Conforms request) : Lacks request ↔ Given request "params" = none := by
  obtain ⟨version, _⟩ := conforms
  unfold Given at version
  unfold Lacks Given
  cases request with
  | object members => simp
  | null | array | string | integer | float | boolean => cases version

theorem decode_none {height : UInt64} {method : Methods} :
    Decoding.decode request services height method = none ↔ ¬ Implemented method := by
  unfold Implemented
  cases method <;> simp [Decoding.decode, Decoding.reads]

theorem endsAt_method (filled : storage.chain ≠ []) (free : state.stateMutex = .free) (conforms : Conforms request)
    (method : Methods) : EndsAt (dispatch services options (Decoding.decode request services (blockHeight state) method)) (storage, state)
      (Responds services options storage state request method) (Dies services storage state Fails request method) := by
  cases found : Decoding.decode request services (blockHeight state) method with
  | none =>
    have missing := decode_none.mp found
    apply (endsAt_pure (errorMember (-32601) "Method not found") (storage, state)).congr
    · intro ret after
      unfold Responds
      simp only [missing, not_false_eq_true, true_and, false_and, exists_false, or_false]
    · unfold Dies
      simp only [missing, false_and]
  | some decoder =>
    have present : Implemented method := by
      by_contra missing
      cases (decode_none.mpr missing).symm.trans found
    have decoded := endsAt_decoded (endsAt_decode filled found) state
    apply (decoded.bind fun call middle means => (endsAt_encoded (respond services options call) middle.1 middle.2)).congr
    · rintro ret ⟨next, after⟩
      unfold Responds
      simp only [present, not_true, false_and, false_or, true_and]
      constructor
      · rintro ⟨call, ⟨middle, _⟩, ⟨⟨params, given, means⟩, rfl⟩, gives⟩
        exact ⟨params, call, middle, params_iff.mp given, means, gives⟩
      · rintro ⟨params, call, middle, given, means, gives⟩
        exact ⟨call, (middle, state), ⟨⟨params, params_iff.mpr given, means⟩, rfl⟩, gives⟩
    · unfold Dies
      simp only [present, true_and, lacks_iff conforms, or_assoc]
      apply or_congr_right
      constructor
      · rintro (⟨params, given, crashes⟩ | ⟨call, ⟨middle, _⟩, ⟨⟨params, given, means⟩, rfl⟩, failed⟩)
        · exact ⟨params, params_iff.mp given, .inl crashes⟩
        · exact ⟨params, params_iff.mp given, .inr ⟨call, middle, means, (failed_iff call free).mp failed⟩⟩
      · rintro ⟨params, given, crashes | ⟨call, middle, means, breaks⟩⟩
        · exact .inl ⟨params, params_iff.mpr given, crashes⟩
        · exact .inr ⟨call, (middle, state), ⟨⟨params, params_iff.mpr given, means⟩, rfl⟩, (failed_iff call free).mpr breaks⟩

theorem endsAt_switch (filled : storage.chain ≠ []) (free : state.stateMutex = .free) (conforms : Conforms request) :
    EndsAt (switch services options request) (storage, state)
      (fun ret after => ∃ method, Asks request method ∧ Responds services options storage state request method ret after)
      (∃ method, Asks request method ∧ Dies services storage state Fails request method) := by
  have late : ∀ method both, Asks request method ∧ both = (storage, state) → EndsAt (do
      let both ← get
      dispatch services options (Decoding.decode request services both.2.contractManager.globals.blockHeight method)) both
      (Responds services options storage state request method) (Dies services storage state Fails request method) := by
    rintro method _ ⟨_, rfl⟩
    apply EndsAt.of_eval _ (endsAt_method filled free conforms method)
    rw [Action.eval_bind, Action.eval_get]
    rfl
  apply ((endsAt_read (ends_getMethod conforms) (storage, state)).bind late).congr
  · intro ret after
    constructor
    · rintro ⟨method, _, ⟨asks, _⟩, responds⟩
      exact ⟨method, asks, responds⟩
    · rintro ⟨method, asks, responds⟩
      exact ⟨method, _, ⟨asks, rfl⟩, responds⟩
  · rw [false_or]
    constructor
    · rintro ⟨method, _, ⟨asks, _⟩, dies⟩
      exact ⟨method, asks, dies⟩
    · rintro ⟨method, asks, dies⟩
      exact ⟨method, _, ⟨asks, rfl⟩, dies⟩

variable (services options storage state) in
/-- How a request is served that is one: what its method answers goes out under its id. -/
def Fulfils (request value : Value) (after : Storage × State World) : Prop :=
  ∃ method ret id, Asks request method ∧ Responds services options storage state request method ret after ∧ Echoes (idOf request) id ∧
    value = ret.assign "id" id

theorem ends_idOf (conforms : Conforms request) :
    Ends (do echo (← request.member "id")) (Echoes (idOf request)) (Unfit (idOf request)) := by
  have given : request.member "id" = .ok (idOf request) := by
    obtain ⟨version, _⟩ := conforms
    unfold Given at version
    unfold Value.member idOf Given
    cases request with
    | object members => rfl
    | null | array | string | integer | float | boolean => cases version
  rw [given]
  exact ends_echo (idOf request)

theorem endsAt_underId (filled : storage.chain ≠ []) (free : state.stateMutex = .free) (conforms : Conforms request) :
    EndsAt (underId services options request) (storage, state) (Fulfils services options storage state request)
      (∃ method, Asks request method ∧ (Dies services storage state Fails request method ∨
        Unfit (idOf request) ∧ ∃ ret after, Responds services options storage state request method ret after)) := by
  apply ((endsAt_switch filled free conforms).bind fun ret middle _ =>
    (endsAt_read (ends_idOf conforms) middle).bind fun id both _ => endsAt_pure (ret.assign "id" id) both).congr
  · intro value after
    constructor
    · rintro ⟨ret, _, ⟨method, asks, responds⟩, id, _, ⟨echoes, rfl⟩, same, rfl⟩
      exact ⟨method, ret, id, asks, responds, echoes, same⟩
    · rintro ⟨method, ret, id, asks, responds, echoes, same⟩
      exact ⟨ret, after, ⟨method, asks, responds⟩, id, after, ⟨echoes, rfl⟩, same, rfl⟩
  · constructor
    · rintro (⟨method, asks, dies⟩ | ⟨ret, middle, ⟨method, asks, responds⟩, unfit | ⟨_, _, _, impossible⟩⟩)
      · exact ⟨method, asks, .inl dies⟩
      · exact ⟨method, asks, .inr ⟨unfit, ret, middle, responds⟩⟩
      · exact impossible.elim
    · rintro ⟨method, asks, dies | ⟨unfit, ret, middle, responds⟩⟩
      · exact .inl ⟨method, asks, dies⟩
      · exact .inr ⟨ret, middle, ⟨method, asks, responds⟩, .inl unfit⟩

variable (services options storage state) in
/-- What is answered, unless it is an error. -/
def Serves (request value : Value) (after : Storage × State World) : Prop :=
  (¬ Conforms request ∧ Versioned request ∧ value = errorMember (-32600) "Invalid request - does not conform to JSON-RPC 2.0 spec" ∧
      after = (storage, state)) ∨
    Conforms request ∧ Fulfils services options storage state request value after

variable (services options storage state breaks) in
/-- What the node does not survive. -/
def Kills (request : Value) : Prop :=
  Conforms request ∧ ∃ method, Asks request method ∧ (Dies services storage state breaks request method ∨
    Unfit (idOf request) ∧ ∃ ret after, Responds services options storage state request method ret after)

theorem versioned_of_conforms (conforms : Conforms request) : Versioned request := by
  intro version given
  exact ⟨"2.0", Option.some.inj (given.symm.trans conforms.1)⟩

theorem endsAt_serve (filled : storage.chain ≠ []) (free : state.stateMutex = .free) :
    EndsAt (serve services options (.ok request)) (storage, state) (Serves services options storage state request)
      (Kills services options storage state Fails request) := by
  have late : ∀ conforms both, (Versioned request ∧ (conforms = true ↔ Conforms request)) ∧ both = (storage, state) → EndsAt
      (if conforms = false then pure (errorMember (-32600) "Invalid request - does not conform to JSON-RPC 2.0 spec")
      else underId services options request) both (Serves services options storage state request)
        (Kills services options storage state Fails request) := by
    rintro conforms _ ⟨⟨versioned, right⟩, rfl⟩
    cases conforms with
    | false =>
      have no : ¬ Conforms request := fun holds => Bool.false_ne_true (right.mpr holds)
      rw [if_pos rfl]
      apply (endsAt_pure _ _).congr
      · intro value after
        unfold Serves
        simp only [no, not_false_eq_true, versioned, true_and, false_and, or_false]
      · unfold Kills
        simp only [no, false_and]
    | true =>
      have yes : Conforms request := right.mp rfl
      rw [if_neg Bool.noConfusion]
      apply (endsAt_underId filled free yes).congr
      · intro value after
        unfold Serves
        simp only [yes, not_true, false_and, true_and, false_or]
      · unfold Kills
        simp only [yes, true_and]
  have parsed : (serve services options (.ok request)).eval (storage, state) = (do
      let conforms ← Served.decoded (Decoding.lift (Decoding.checkJsonRPCSpec request))
      if conforms = false then pure (errorMember (-32600) "Invalid request - does not conform to JSON-RPC 2.0 spec")
      else underId services options request).eval (storage, state) := by
    unfold serve
    rw [Action.eval_bind]
    rfl
  apply EndsAt.of_eval parsed
  have checks : Versioned request → ∃ conforms : Bool, Versioned request ∧ (conforms = true ↔ Conforms request) := by
    intro versioned
    classical
    exact ⟨decide (Conforms request), versioned, decide_eq_true_iff⟩
  apply ((endsAt_read (ends_checkJsonRPCSpec request) (storage, state)).bind late).congr
  · intro value after
    constructor
    · rintro ⟨_, _, _, serves⟩
      exact serves
    · intro serves
      have versioned : Versioned request := serves.elim (fun refused => refused.2.1) fun served => versioned_of_conforms served.1
      obtain ⟨conforms, checked⟩ := checks versioned
      exact ⟨conforms, _, ⟨checked, rfl⟩, serves⟩
  · rw [false_or]
    constructor
    · rintro ⟨_, _, _, kills⟩
      exact kills
    · intro kills
      obtain ⟨conforms, checked⟩ := checks (versioned_of_conforms kills.1)
      exact ⟨conforms, _, ⟨checked, rfl⟩, kills⟩

theorem eval_caught (body : Served World Value) (both : Storage × State World) : (caught body).eval both =
    match body.eval both with
    | (.error (.exception (.exception what)), after) => (.ok (internalError what), after)
    | other => other := by
  unfold caught
  rw [Action.eval_tryCatch]
  rcases body.eval both with ⟨((what | _) | _) | value, after⟩ <;> rfl

/-- Every request that means something is answered under its id, and everything else is answered with an error under none. -/
theorem requests_answered {request : Value} (filled : storage.chain ≠ []) (free : state.stateMutex = .free) :
    (∀ value after, Serves services options storage state request value after →
      (parseJsonRpcRequest services options (.ok request)).eval (storage, state) = (.ok value, after)) ∧
    ∀ value after, (parseJsonRpcRequest services options (.ok request)).eval (storage, state) = (.ok value, after) →
      Serves services options storage state request value after ∨
        (∃ what, value = internalError what) ∧ ∀ other last, ¬ Serves services options storage state request other last := by
  have ends : EndsAt (serve services options (.ok request)) (storage, state) _ _ := endsAt_serve filled free
  unfold parseJsonRpcRequest
  rw [eval_caught]
  constructor
  · intro value after serves
    rw [(ends.ok_iff value after).mpr serves]
  · intro value after answered
    rcases seen : (serve services options (.ok request)).eval (storage, state) with ⟨((what | _) | _) | result, last⟩ <;> rw [seen] at answered
    · refine .inr ⟨⟨what, ?_⟩, ?_⟩
      · cases answered
        rfl
      · intro other final serves
        cases seen.symm.trans ((ends.ok_iff other final).mpr serves)
    · cases answered
    · cases answered
    · exact .inl ((ends.ok_iff value after).mp (seen.trans answered))

def bytesAt (bytes : Bytes) : Value := .string (Hex.fromBytes bytes)

def quantityAt (number : Nat) : Value := .string (quantityText number)

def txObject (info : EthCallInfo) : Value := .object [
  ("from", bytesAt info.from.get),
  ("to", bytesAt info.to.get),
  ("gas", quantityAt info.gasLimit.toNat),
  ("gasPrice", quantityAt info.gasPrice.toNat),
  ("value", quantityAt info.value.toNat),
  ("data", bytesAt info.fullData)]

/-- A method with its parameters. -/
def written : Call → String × List Value
  | .encoded .net_version => ("net_version", [])
  | .encoded .net_peerCount => ("net_peerCount", [])
  | .encoded (.eth_getBlockByHash blockHash full) => ("eth_getBlockByHash", [bytesAt blockHash.get, .boolean full])
  | .encoded (.eth_getBlockByNumber blockNumber full) => ("eth_getBlockByNumber", [quantityAt blockNumber.toNat, .boolean full])
  | .encoded (.eth_getBlockTransactionCountByHash blockHash) => ("eth_getBlockTransactionCountByHash", [bytesAt blockHash.get])
  | .encoded (.eth_getBlockTransactionCountByNumber blockNumber) => ("eth_getBlockTransactionCountByNumber", [quantityAt blockNumber.toNat])
  | .encoded .eth_chainId => ("eth_chainId", [])
  | .encoded .eth_blockNumber => ("eth_blockNumber", [])
  | .encoded (.eth_call info) => ("eth_call", [txObject info])
  | .encoded (.eth_estimateGas info) => ("eth_estimateGas", [txObject info])
  | .encoded .eth_gasPrice => ("eth_gasPrice", [])
  | .encoded (.eth_getBalance address) => ("eth_getBalance", [bytesAt address.get, .string "latest"])
  | .encoded (.eth_getTransactionCount address) => ("eth_getTransactionCount", [bytesAt address.get, .string "latest"])
  | .encoded (.eth_getCode address) => ("eth_getCode", [bytesAt address.get, .string "latest"])
  | .encoded (.eth_getTransactionByHash txHash) => ("eth_getTransactionByHash", [bytesAt txHash.get])
  | .encoded (.eth_getTransactionByBlockHashAndIndex blockHash index) =>
    ("eth_getTransactionByBlockHashAndIndex", [bytesAt blockHash.get, quantityAt index.toNat])
  | .encoded (.eth_getTransactionByBlockNumberAndIndex blockNumber index) =>
    ("eth_getTransactionByBlockNumberAndIndex", [quantityAt blockNumber.toNat, quantityAt index.toNat])
  | .encoded (.eth_getTransactionReceipt txHash) => ("eth_getTransactionReceipt", [bytesAt txHash.get])
  | .web3_clientVersion => ("web3_clientVersion", [])
  | .web3_sha3 data => ("web3_sha3", [bytesAt data])
  | .net_listening => ("net_listening", [])
  | .eth_protocolVersion => ("eth_protocolVersion", [])
  | .eth_syncing => ("eth_syncing", [])
  | .eth_coinbase => ("eth_coinbase", [])
  | .eth_getLogs fromBlock toBlock address topics => ("eth_getLogs", [.object [
    ("fromBlock", quantityAt fromBlock.toNat),
    ("toBlock", quantityAt toBlock.toNat),
    ("address", bytesAt address.get),
    ("topics", .array (topics.map fun topic => bytesAt topic.get))]])
  | .eth_sendRawTransaction tx => ("eth_sendRawTransaction", [bytesAt (tx.rlpSerialize true)])

def requestOf (id : Value) (call : Call) : Value :=
  .object [("jsonrpc", .string "2.0"), ("id", id), ("method", .string (written call).1), ("params", .array (written call).2)]

/-- The gas has 64 bits, and function and arguments are those of the bytes. -/
structure Whole (info : EthCallInfo) : Prop where
  gas : info.gasLimit.toNat < 2 ^ 64
  functor : info.functor = if 4 ≤ info.fullData.length then Functor.ofBytes (info.fullData.take 4) else 0
  data : info.data = if 4 < info.fullData.length then info.fullData.drop 4 else []

/-- A transaction has to be read as what it was. -/
def Writable (services : Services World) : Call → Prop
  | .encoded (.eth_call info) | .encoded (.eth_estimateGas info) => Whole info
  | .eth_sendRawTransaction tx =>
    TxBlock.ofBytes services.reader.lib services.reader.sha3 (tx.rlpSerialize true) services.reader.past services.chainID = .ok tx
  | _ => True

theorem written_bytes (bytes : Bytes) : Written (Hex.fromBytes bytes) bytes := by
  refine ⟨EventTexts.digits bytes, EventTexts.toList_fromBytes bytes, ?_⟩
  exact (inAnyCase_lower (lowerDigit_digits bytes)).mpr rfl

theorem data_bytes (bytes : Bytes) : Data (Hex.fromBytes bytes) bytes := by
  refine ⟨'x', EventTexts.digits bytes, .inl rfl, EventTexts.toList_fromBytes bytes, ?_⟩
  have even : HexTexts.padded '0' (EventTexts.digits bytes) = EventTexts.digits bytes := by
    unfold HexTexts.padded
    rw [EventTexts.digits_length, if_neg (by omega)]
  rw [even]
  exact (inAnyCase_lower (lowerDigit_digits bytes)).mpr rfl

theorem field_bytes {object : Value} {key : String} {address : Address} (given : Given object key = some (bytesAt address.get)) :
    Nullable object key (fun text (address : Address) => Written text address.get) 0 address :=
  .inr ⟨_, given, written_bytes _⟩

theorem fields_txObject {receiver : Value → Address → Prop} {info : EthCallInfo} (received : receiver (txObject info) info.to)
    (whole : Whole info) : Describes receiver (.array [txObject info]) info := by
  refine ⟨txObject info, .inl ⟨[], rfl, fun block listed => by cases listed⟩, ?_⟩
  have gas : (UInt64.ofNat info.gasLimit.toNat).toNat = info.gasLimit.toNat := UInt64.toNat_ofNat_of_lt' whole.gas
  constructor
  · exact field_bytes rfl
  · exact received
  · refine ⟨UInt64.ofNat info.gasLimit.toNat, .inr ⟨_, rfl, congrArg quantityText gas.symm⟩, ?_⟩
    rw [gas, BitVec.ofNat_toNat, BitVec.setWidth_eq]
  · exact .inr ⟨_, rfl, rfl⟩
  · exact .inr ⟨_, rfl, rfl⟩
  · exact .inr ⟨_, rfl, data_bytes _⟩
  · exact whole.functor
  · exact whole.data

theorem implemented_of_calls {method : Methods} {params : Value} {call : Call} (calls : Calls services storage method params call) :
    Implemented method := by
  constructor
  · rintro rfl
    exact calls
  · rintro rfl
    exact calls

theorem means_written {call : Call} (writable : Writable services call) (storage : Storage) (height : UInt64) :
    ∃ method, (methodsLookupTable.lookup (written call).1).getD .invalid = method ∧ Implemented method ∧
      Means services height storage method (.array (written call).2) call storage := by
  have bare : Empty (.array []) := .inr (.inl rfl)
  have first : ∀ (value : Value) (rest : List Value), Argument (.array (value :: rest)) 0 value := fun _ _ => ⟨_, rfl, rfl⟩
  have second : ∀ first last : Value, Argument (.array [first, last]) 1 last := fun _ _ => ⟨_, rfl, rfl⟩
  have byName : ∀ {method : Methods}, (methodsLookupTable.lookup (written call).1).getD .invalid = method →
      Calls services storage method (.array (written call).2) call →
      ∃ method, (methodsLookupTable.lookup (written call).1).getD .invalid = method ∧
        Implemented method ∧ Means services height storage method (.array (written call).2) call storage :=
    fun same calls => ⟨_, same, implemented_of_calls calls, .inl ⟨calls, rfl⟩⟩
  have account : ∀ address : Address, Account (.array [bytesAt address.get, .string "latest"]) address := fun address =>
    ⟨⟨_, first _ _, written_bytes _⟩, _, second _ _, .inl rfl⟩
  cases call with
  | encoded request =>
    cases request with
    | net_version | net_peerCount | eth_chainId | eth_blockNumber | eth_gasPrice => exact byName rfl ⟨bare, rfl⟩
    | eth_getBlockByHash blockHash full =>
      exact byName rfl ⟨(blockHash, full), ⟨second _ _, _, first _ _, rfl⟩, rfl⟩
    | eth_getBlockByNumber blockNumber full =>
      exact byName rfl ⟨(blockNumber, full), ⟨second _ _, _, first _ _, .inr (.inr rfl)⟩, rfl⟩
    | eth_getBlockTransactionCountByHash blockHash => exact byName rfl ⟨blockHash, ⟨_, first _ _, rfl⟩, rfl⟩
    | eth_getBlockTransactionCountByNumber blockNumber =>
      exact byName rfl ⟨blockNumber, ⟨_, first _ _, .inr (.inr rfl)⟩, rfl⟩
    | eth_call info => exact byName rfl ⟨info, fields_txObject ⟨_, rfl, written_bytes _⟩ writable, rfl⟩
    | eth_estimateGas info => exact byName rfl ⟨info, fields_txObject (field_bytes rfl) writable, rfl⟩
    | eth_getBalance address | eth_getTransactionCount address | eth_getCode address =>
      exact byName rfl ⟨address, account address, rfl⟩
    | eth_getTransactionByHash txHash => exact byName rfl ⟨txHash, ⟨_, first _ _, written_bytes _⟩, rfl⟩
    | eth_getTransactionByBlockHashAndIndex blockHash index =>
      exact byName rfl ⟨(blockHash, index), ⟨⟨_, first _ _, written_bytes _⟩, second _ _⟩, rfl⟩
    | eth_getTransactionByBlockNumberAndIndex blockNumber index =>
      exact byName rfl ⟨(blockNumber, index), ⟨⟨_, first _ _, .inr rfl⟩, second _ _⟩, rfl⟩
    | eth_getTransactionReceipt txHash => exact byName rfl ⟨txHash, ⟨_, first _ _, written_bytes _⟩, rfl⟩
  | web3_clientVersion | net_listening | eth_protocolVersion | eth_syncing | eth_coinbase => exact byName rfl ⟨bare, rfl⟩
  | web3_sha3 data => exact byName rfl ⟨data, ⟨_, rfl, data_bytes data⟩, rfl⟩
  | eth_sendRawTransaction tx =>
    exact byName rfl ⟨tx, ⟨_, _, first _ _, data_bytes _, writable⟩, rfl⟩
  | eth_getLogs fromBlock toBlock address topics =>
    refine ⟨.eth_getLogs, rfl, ⟨by decide, by decide⟩, .inr ⟨rfl, fromBlock, toBlock, address, topics, ⟨_, first _ _, ?_, ?_, ?_⟩, rfl⟩⟩
    · exact .inr ⟨rfl, .inr ⟨_, rfl, .inr (.inr rfl)⟩, .inr ⟨_, rfl, .inr (.inr rfl)⟩, rfl⟩
    · exact .inr ⟨_, rfl, written_bytes _⟩
    · exact .inr rfl

variable (services options) in
/-- What a call answers, under an id. -/
def answering (id : Value) (call : Call) : Served World Value := do
  let ret ← Served.encoded (respond services options call)
  pure (ret.assign "id" id)

theorem eval_read_bind {outcome : Read α} {value : α} (read : outcome = .ok value) (next : α → Served World β) (both : Storage × State World) :
    (Served.decoded (Decoding.lift outcome) >>= next).eval both = (next value).eval both := by
  subst read
  rw [Action.eval_bind]
  rfl

theorem eval_decoded_bind {decoder : Decoding.Decoder α} {value : α} {middle : Storage} (read : decoder.eval storage = (.ok value, middle))
    (next : α → Served World β) : (Served.decoded decoder >>= next).eval (storage, state) = (next value).eval (middle, state) := by
  have decoded : (Served.decoded decoder).eval (storage, state) = (.ok value, middle, state) := by
    unfold Served.decoded
    rw [Action.eval_bind, Action.eval_get]
    dsimp only
    rw [read]
    rfl
  rw [Action.eval_bind, decoded]

theorem eval_switch (options : Encoding.Options) {request params : Value} {method : Methods} {call : Call} {middle : Storage} (filled : storage.chain ≠ [])
    (conforms : Conforms request) (asks : Asks request method) (implemented : Implemented method) (given : Given request "params" = some params)
    (means : Means services (blockHeight state) storage method params call middle) :
    (switch services options request).eval (storage, state) = (Served.encoded (respond services options call)).eval (middle, state) := by
  have named : Decoding.getMethod request = .ok method := ((ends_getMethod conforms).ok_iff method).mpr asks
  obtain ⟨decoder, found⟩ : ∃ decoder, Decoding.decode request services (blockHeight state) method = some decoder := by
    apply Option.ne_none_iff_exists'.mp
    exact fun none => decode_none.mp none implemented
  have decoded := ((endsAt_decode filled found).ok_iff call middle).mpr ⟨params, params_iff.mpr given, means⟩
  unfold switch
  rw [eval_read_bind named, Action.eval_bind, Action.eval_get]
  change (dispatch services options (Decoding.decode request services (blockHeight state) method)).eval (storage, state) = _
  rw [found]
  exact eval_decoded_bind decoded _

/-- A request that is written for a call is answered like the call, whatever comes of it. -/
theorem request_round_trip {id : Value} {call : Call} (filled : storage.chain ≠ []) (kept : Echoes id id) (writable : Writable services call) :
    (parseJsonRpcRequest services options (.ok (requestOf id call))).eval (storage, state) =
      (caught (answering services options id call)).eval (storage, state) := by
  have conforms : Conforms (requestOf id call) := ⟨rfl, rfl, fun params given => .inl ⟨_, (Option.some.inj given).symm⟩⟩
  obtain ⟨method, named, implemented, means⟩ := means_written writable storage (blockHeight state)
  have checks : Decoding.checkJsonRPCSpec (requestOf id call) = .ok true :=
    ((ends_checkJsonRPCSpec _).ok_iff true).mpr ⟨versioned_of_conforms conforms, iff_of_true rfl conforms⟩
  have echoed : (do echo (← (requestOf id call).member "id")) = .ok id := ((ends_idOf conforms).ok_iff id).mpr kept
  have switched := eval_switch options filled conforms ⟨_, rfl, named.symm⟩ implemented rfl means
  have served : (serve services options (.ok (requestOf id call))).eval (storage, state) =
      (answering services options id call).eval (storage, state) := by
    have parsed : (checked (.ok (requestOf id call)) : Read Value) = .ok (requestOf id call) := rfl
    unfold serve answering
    rw [eval_read_bind parsed, eval_read_bind checks, if_neg Bool.noConfusion]
    unfold underId
    rw [Action.eval_bind, switched, Action.eval_bind]
    rcases (Served.encoded (respond services options call)).eval (storage, state) with ⟨fault | ret, after⟩
    · rfl
    · exact eval_read_bind echoed _ after
  unfold parseJsonRpcRequest
  rw [eval_caught, eval_caught, served]

open Conservation

def young : Storage := { chain := [genesis] }

def clientOptions : Encoding.Options := ⟨"OrbiterSDK", "0.2.0", 7⟩

/-- A negative id comes back as a positive one. -/
theorem negative_id_answered : (parseJsonRpcRequest quietServices clientOptions (.ok (requestOf (.integer (-1)) (.encoded .eth_chainId)))).eval (young, freshState) =
    (.ok (.object [("jsonrpc", .string "2.0"), ("result", .string (quantityText 8080)), ("id", .integer (2 ^ 64 - 1))]), young, freshState) := by
  have conforms : Conforms (requestOf (.integer (-1)) (.encoded .eth_chainId)) :=
    ⟨rfl, rfl, fun params given => .inl ⟨_, (Option.some.inj given).symm⟩⟩
  have means : Means quietServices 0 young .eth_chainId (.array []) (.encoded .eth_chainId) young := .inl ⟨⟨.inr (.inl rfl), rfl⟩, rfl⟩
  have shown : (Encoding.answer (.string (quantityText 8080))).assign "id" (.integer (-1 % 2 ^ 64)) =
      .object [("jsonrpc", .string "2.0"), ("result", .string (quantityText 8080)), ("id", .integer (2 ^ 64 - 1))] := by
    simp [Value.assign, Encoding.answer]
  have gives : Gives (respond quietServices clientOptions (.encoded .eth_chainId)) freshState young
    (Encoding.answer (.string (quantityText 8080))) freshState young := served_number _
  exact (requests_answered (List.cons_ne_nil _ _) rfl).1 _ _ (.inr ⟨conforms, .eth_chainId, _, _, ⟨"eth_chainId", rfl, rfl⟩,
    .inr ⟨.array [], .encoded .eth_chainId, young, ⟨by decide, by decide⟩, rfl, means, gives⟩, .integer (-1), shown.symm⟩)

/-- A call of the function `0xa9059cbb` with one word. -/
def asksContract : EthCallInfo where
  «from» := 7
  «to» := 100
  gasLimit := 21000
  gasPrice := 2500000000
  value := 0
  functor := 0xa9059cbb
  data := Hash.get 5
  fullData := [0xa9, 0x05, 0x9c, 0xbb] ++ Hash.get 5

theorem contract_call_answered : (parseJsonRpcRequest quietServices clientOptions
      (.ok (requestOf (.string "a") (.encoded (.eth_call asksContract))))).eval (young, freshState) =
    (caught (answering quietServices clientOptions (.string "a") (.encoded (.eth_call asksContract)))).eval (young, freshState) :=
  request_round_trip (List.cons_ne_nil _ _) (.string "a") ⟨by decide, by decide, by decide⟩

end OrbiterSDK.Proofs.RpcRequests
