import OrbiterSDK.Proofs.RpcArguments
import OrbiterSDK.Proofs.TxBounds

/-! What the parameters of each method have to look like, and which of them the decoders do not survive. -/

namespace OrbiterSDK.Proofs.RpcDecoders
open Lib Fault JsonRPC Decoding RpcTexts HexTexts EventTexts RpcArguments

/-- The parameters of a request, if it has any. -/
def Params (request params : Value) : Prop := ∃ members, request = .object members ∧ members.lookup "params" = some params

def Lacks (request : Value) : Prop := ∃ members, request = .object members ∧ members.lookup "params" = none

/-- What is given in a place of a list. -/
def Argument (params : Value) (idx : Nat) (value : Value) : Prop := ∃ values, params = .array values ∧ values[idx]? = some value

theorem params_unique {request left right : Value} (one : Params request left) (other : Params request right) : left = right := by
  obtain ⟨members, rfl, found⟩ := one
  obtain ⟨_, same, again⟩ := other
  cases same
  exact Option.some.inj (found.symm.trans again)

theorem not_lacks {request params : Value} (given : Params request params) : ¬ Lacks request := by
  obtain ⟨members, rfl, found⟩ := given
  rintro ⟨_, same, none⟩
  cases same
  cases found.symm.trans none

theorem ends_params (request : Value) : Ends (params request) (Params request) (Lacks request) := by
  cases request with
  | object members =>
    have lacks : Lacks (.object members) ↔ members.lookup "params" = none := by
      constructor
      · rintro ⟨_, same, none⟩
        cases same
        exact none
      · exact fun none => ⟨members, rfl, none⟩
    have given : ∀ params, Params (.object members) params ↔ members.lookup "params" = some params := by
      intro params
      constructor
      · rintro ⟨_, same, found⟩
        cases same
        exact found
      · exact fun found => ⟨members, rfl, found⟩
    unfold Decoding.params Value.constMember
    dsimp only
    cases found : members.lookup "params" with
    | none =>
      apply ends_undefined.congr
      · intro params
        rw [given, found]
        exact iff_of_false id (fun same => by cases same)
      · rw [lacks, found]
        exact iff_of_true trivial rfl
    | some params =>
      apply (ends_ok params).congr
      · intro other
        rw [given, found, Option.some.injEq]
        exact eq_comm
      · rw [lacks, found]
        exact iff_of_false id (fun same => by cases same)
  | null | string | boolean | integer | float | array =>
    apply (ends_exception _).congr
    · intro params
      refine iff_of_false id ?_
      rintro ⟨_, same, _⟩
      cases same
    · refine iff_of_false id ?_
      rintro ⟨_, same, _⟩
      cases same

theorem ends_at (params : Value) (idx : Nat) : Ends (params.at idx) (Argument params idx) False := by
  cases params with
  | array values =>
    have given : ∀ value, Argument (.array values) idx value ↔ values[idx]? = some value := by
      intro value
      constructor
      · rintro ⟨_, same, found⟩
        cases same
        exact found
      · exact fun found => ⟨values, rfl, found⟩
    unfold Value.at
    dsimp only
    cases found : values[idx]? with
    | none =>
      apply (ends_exception _).congr (fun value => ?_) Iff.rfl
      rw [given, found]
      exact iff_of_false id (fun same => by cases same)
    | some value =>
      apply (ends_ok value).congr (fun other => ?_) Iff.rfl
      rw [given, found, Option.some.injEq]
      exact eq_comm
  | null | string | boolean | integer | float | object =>
    apply (ends_exception _).congr (fun value => ?_) Iff.rfl
    refine iff_of_false id ?_
    rintro ⟨_, same, _⟩
    cases same

theorem ends_getString (value : Value) : Ends value.getString (fun text => value = .string text) False := by
  cases value with
  | string text =>
    apply (ends_ok text).congr (fun other => ?_) Iff.rfl
    rw [Value.string.injEq]
    exact eq_comm
  | null | array | boolean | integer | float | object =>
    exact (ends_exception _).congr (fun _ => iff_of_false id (fun same => by cases same)) Iff.rfl

theorem ends_getBool (value : Value) : Ends value.getBool (fun flag => value = .boolean flag) False := by
  cases value with
  | boolean flag =>
    apply (ends_ok flag).congr (fun other => ?_) Iff.rfl
    rw [Value.boolean.injEq]
    exact eq_comm
  | null | array | string | integer | float | object =>
    exact (ends_exception _).congr (fun _ => iff_of_false id (fun same => by cases same)) Iff.rfl

/-- Nothing is left undefined by one step after another. -/
theorem never {α : Type} {good : α → Prop} {late : α → Prop} (none : ∀ value, ¬ late value) : (False ∨ ∃ value, good value ∧ late value) ↔ False := by
  refine iff_of_false ?_ id
  rintro (impossible | ⟨value, _, holds⟩)
  · exact impossible
  · exact none value holds

def positional (params : Value) (idx : Nat) : Read String := do (← params.at idx).getString

theorem ends_positional (params : Value) (idx : Nat) : Ends (positional params idx) (fun text => Argument params idx (.string text)) False := by
  apply ((ends_at params idx).bind fun value _ => ends_getString value).congr
  · intro text
    constructor
    · rintro ⟨_, given, rfl⟩
      exact given
    · exact fun given => ⟨_, given, rfl⟩
  · exact never fun _ => id

theorem textAt_of {request given : Value} (found : params request = .ok given) (idx : Nat) : textAt request idx = positional given idx := by
  unfold textAt
  rw [found]
  rfl

variable {request : Value} {method : Methods}

theorem textAt_fails {fault : Fault Exception} (failed : params request = .error fault) (idx : Nat) :
    textAt request idx = .error fault := by
  unfold textAt
  rw [failed]
  rfl

/-- What the parameters of a request have to be like for a reading of them to go through, and to crash. -/
abbrev EndsGiven {α : Type} (request : Value) (outcome : Read α) (good : Value → α → Prop) (crash : Value → Prop) : Prop :=
  Ends outcome (fun value => ∃ given, Params request given ∧ good given value) (Lacks request ∨ ∃ given, Params request given ∧ crash given)

/-- Those that may end in nothing worse than an exception. -/
abbrev Survives {α : Type} (request : Value) (outcome : Read α) (good : Value → α → Prop) : Prop := EndsGiven request outcome good fun _ => False

/-- A decoder reads the parameters, whatever they are, and names itself in what it throws. -/
theorem ends_decoding {α : Type} {name : String} {outcome : Read α} (good : Value → α → Prop) (crash : Value → Prop)
    (stops : ∀ fault, params request = .error fault → outcome = .error fault)
    (reads : ∀ given, params request = .ok given → Ends outcome (good given) (crash given)) :
    EndsGiven request (decoding name outcome) good crash := by
  have ends := ends_params request
  have inner : EndsGiven request outcome good crash := by
    cases found : params request with
    | error fault =>
      have none : ∀ given, ¬ Params request given := by
        intro given holds
        cases found.symm.trans ((ends.ok_iff given).mpr holds)
      rw [stops fault found]
      cases fault with
      | exception what =>
        apply (ends_exception what).congr
        · exact fun value => iff_of_false id fun holds => holds.elim fun given both => none given both.1
        · refine iff_of_false id ?_
          rintro (lacks | ⟨given, holds, _⟩)
          · cases found.symm.trans (ends.undefined_iff.mpr lacks)
          · exact none given holds
      | undefined =>
        apply ends_undefined.congr
        · exact fun value => iff_of_false id fun holds => holds.elim fun given both => none given both.1
        · exact iff_of_true trivial (.inl (ends.undefined_iff.mp found))
    | ok given =>
      have holds := (ends.ok_iff given).mp found
      have only : ∀ other, Params request other ↔ given = other :=
        fun other => ⟨params_unique holds, fun same => same ▸ holds⟩
      apply (reads given found).congr
      · intro value
        simp only [only, exists_eq_left']
      · simp only [only, exists_eq_left', not_lacks holds, false_or]
  exact inner.mapError rfl fun what => ⟨_, rfl⟩

def Empty (params : Value) : Prop := params = .null ∨ params = .array [] ∨ params = .object []

theorem size_eq_zero (params : Value) : params.size = 0 ↔ Empty params := by
  unfold Value.size Empty
  cases params with
  | array values | object members => simp
  | null | string | boolean | integer | float => simp

theorem ends_noParams (request : Value) (name : String) : Survives request (noParams request name) fun given _ => Empty given := by
  apply ends_decoding
  · intro fault failed
    rw [failed]
    rfl
  · intro given found
    rw [found]
    change Ends (if given.size ≠ 0 then raise (name ++ " does not need params") else pure ()) _ _
    apply ((ends_ok ()).guarded _).congr
    · intro value
      rw [not_not, size_eq_zero]
      exact and_iff_left rfl
    · exact ⟨And.right, False.elim⟩
theorem ends_text {α : Type} {request : Value} {name : String} {outcome : Read α} {read : String → Read α} {spelled : String → α → Prop}
    (same : outcome = textAt request 0 >>= read) (reads : ∀ text, Ends (read text) (spelled text) False) :
    Survives request (decoding name outcome) fun given value => ∃ text, Argument given 0 (.string text) ∧ spelled text value := by
  apply ends_decoding
  · intro fault failed
    rw [same, textAt_fails failed]
    rfl
  · intro given found
    rw [same, textAt_of found]
    exact ((ends_positional given 0).bind fun text _ => reads text).congr (fun _ => Iff.rfl) (never fun _ => id)

private theorem ends_getBlockTransactionCountByHash (request : Value) : Survives request (eth_getBlockTransactionCountByHash request) fun given hash =>
    ∃ text, Argument given 0 (.string text) ∧ text = Hex.fromBytes hash.get := ends_text rfl fun text => ends_hash _ text

private theorem ends_getTransactionByHash (request : Value) : Survives request (eth_getTransactionByHash request) fun given hash =>
    ∃ text, Argument given 0 (.string text) ∧ Written text hash.get := ends_text rfl fun text => ends_looseHash _ text

private theorem ends_getTransactionReceipt (request : Value) : Survives request (eth_getTransactionReceipt request) fun given hash =>
    ∃ text, Argument given 0 (.string text) ∧ Written text hash.get := ends_text rfl fun text => ends_looseHash _ text

theorem ends_sha3 (request : Value) : Survives request (web3_sha3 request) fun given data =>
    ∃ text, given = .array [.string text] ∧ Data text data := by
  apply ends_decoding (fun given data => ∃ text, given = .array [.string text] ∧ Data text data) fun _ => False
  · intro fault failed
    rw [failed]
    rfl
  · intro given found
    rw [found, textAt_of found]
    change Ends (if given.size ≠ 1 then raise "web3_sha3 needs 1 param" else positional given 0 >>= readData "Invalid hex string") _ _
    apply (((ends_positional given 0).bind fun text _ => ends_data _ text).guarded _).congr
    · intro data
      have single : ∀ text, (¬ given.size ≠ 1 ∧ Argument given 0 (.string text)) ↔ given = .array [.string text] := by
        intro text
        constructor
        · rintro ⟨size, values, rfl, first⟩
          obtain ⟨value, rfl⟩ := List.length_eq_one_iff.mp (not_not.mp size)
          cases first
          rfl
        · rintro rfl
          exact ⟨not_not.mpr rfl, _, rfl, rfl⟩
      simp only [← single, and_assoc, exists_and_left]
    · rw [never fun _ => id]
      exact ⟨And.right, False.elim⟩

def Flag (params : Value) (flag : Bool) : Prop := if params.size = 2 then Argument params 1 (.boolean flag) else flag = false

def flagAt (params : Value) : Read Bool := if params.size = 2 then do (← params.at 1).getBool else pure false

theorem ends_flag (params : Value) : Ends (flagAt params) (Flag params) False := by
  unfold flagAt
  apply (Ends.ite (fun _ => (ends_at params 1).bind fun value _ => ends_getBool value) fun _ => ends_ok false).congr
  · intro flag
    unfold Flag
    by_cases two : params.size = 2
    · rw [if_pos two, if_pos two]
      exact ⟨fun found => found.elim fun value both => both.2 ▸ both.1, fun given => ⟨_, given, rfl⟩⟩
    · rw [if_neg two, if_neg two]
  · rw [never fun _ => id, ite_self]

/-- A height by one of its names, or by its digits. -/
def Height (storage : Storage) (text : String) (height : UInt64) : Prop :=
  (text = "latest" ∧ ∃ block, storage.latest = .ok block ∧ height = block.nHeight) ∨
    (text = "earliest" ∧ height = 0) ∨ text = quantityText height.toNat

theorem ne_quantityText {text : String} {first : Char} (begins : text.toList.head? = some first) (other : first ≠ '0') (number : Nat) :
    text ≠ quantityText number := by
  rintro rfl
  rw [toList_quantityText] at begins
  exact other (Option.some.inj begins).symm

theorem ends_latestHeight {storage : Storage} (filled : storage.chain ≠ []) :
    Ends (latestHeight storage) (fun height => ∃ block, storage.latest = .ok block ∧ height = block.nHeight) False := by
  obtain ⟨block, last⟩ : ∃ block, storage.latest = .ok block := by
    unfold Storage.latest
    cases found : storage.chain.getLast? with
    | none => exact absurd (List.getLast?_eq_none_iff.mp found) filled
    | some block => exact ⟨block, rfl⟩
  unfold latestHeight
  rw [last]
  apply (ends_ok block.nHeight).congr (fun height => ?_) Iff.rfl
  constructor
  · exact fun same => ⟨block, rfl, same⟩
  · rintro ⟨_, same, rfl⟩
    cases same
    rfl

theorem ends_height {storage : Storage} (filled : storage.chain ≠ []) (what : Exception) (text : String) :
    Ends (readHeight storage what text) (Height storage text) False := by
  unfold readHeight
  have named : ∀ {name : String} {first : Char}, name.toList.head? = some first → first ≠ '0' → text = name →
      ∀ height : UInt64, text ≠ quantityText height.toNat := by
    rintro name first begins other rfl height
    exact ne_quantityText begins other height.toNat
  by_cases latest : text = "latest"
  · rw [if_pos latest]
    apply (ends_latestHeight filled).congr (fun height => ?_) Iff.rfl
    have other : text ≠ "earliest" := by
      rw [latest]
      decide
    have digits := named rfl (by decide) latest height
    constructor
    · exact fun found => .inl ⟨latest, found⟩
    · rintro (⟨_, found⟩ | ⟨same, _⟩ | same)
      · exact found
      · exact absurd same other
      · exact absurd same digits
  · rw [if_neg latest]
    by_cases earliest : text = "earliest"
    · rw [if_pos earliest]
      apply (ends_ok (0 : UInt64)).congr (fun height => ?_) Iff.rfl
      have digits := named rfl (by decide) earliest height
      constructor
      · exact fun same => .inr (.inl ⟨earliest, same⟩)
      · rintro (⟨same, _⟩ | ⟨_, same⟩ | same)
        · exact absurd same latest
        · exact same
        · exact absurd same digits
    · rw [if_neg earliest]
      have spelled : ∀ height, Height storage text height ↔ text = quantityText height.toNat := by
        intro height
        constructor
        · rintro (⟨same, _⟩ | ⟨same, _⟩ | same)
          · exact absurd same latest
          · exact absurd same earliest
          · exact same
        · exact fun same => .inr (.inr same)
      by_cases pending : text = "pending"
      · rw [if_pos pending]
        apply (ends_exception _).congr (fun height => ?_) Iff.rfl
        rw [spelled]
        exact iff_of_false id (named rfl (by decide) pending height)
      · rw [if_neg pending]
        exact (ends_uint64 what text).congr (fun height => (spelled height).symm) Iff.rfl
theorem ends_getBlockTransactionCountByNumber {storage : Storage} (filled : storage.chain ≠ []) (request : Value) :
    Survives request (eth_getBlockTransactionCountByNumber storage request) fun given height =>
    ∃ text, Argument given 0 (.string text) ∧ Height storage text height := ends_text rfl fun text => ends_height filled _ text

def Flagged {α : Type} (spelled : String → α → Prop) (params : Value) (info : α × Bool) : Prop :=
  Flag params info.2 ∧ ∃ text, Argument params 0 (.string text) ∧ spelled text info.1

/-- A block by a text, with its transactions or without them. -/
theorem ends_flagged {α : Type} {name : String} {read : String → Read α} {spelled : String → α → Prop}
    (reads : ∀ text, Ends (read text) (spelled text) False) :
    Survives request (decoding name do
        let includeTxs ← includesTxs request
        let text ← textAt request 0
        pure (← read text, includeTxs)) (Flagged spelled) := by
  apply ends_decoding
  · intro fault failed
    unfold includesTxs
    rw [failed]
    rfl
  · intro given found
    have flags : includesTxs request = flagAt given := by
      unfold includesTxs
      rw [found]
      rfl
    rw [flags, textAt_of found]
    have inner := fun (flag : Bool) text => (reads text).bind fun (value : _) (_ : spelled text value) => ends_ok (value, flag)
    apply ((ends_flag given).bind fun flag _ => (ends_positional given 0).bind fun text _ => inner flag text).congr
    · rintro ⟨value, flag⟩
      constructor
      · rintro ⟨_, flagged, text, given, _, written, same⟩
        cases same
        exact ⟨flagged, text, given, written⟩
      · rintro ⟨flagged, text, given, written⟩
        exact ⟨flag, flagged, text, given, value, written, rfl⟩
    · exact never fun _ late => (never fun _ late => (never fun _ => id).mp late).mp late

private theorem ends_getBlockByHash (request : Value) : Survives request (eth_getBlockByHash request)
    (Flagged fun text (hash : Hash) => text = Hex.fromBytes hash.get) := ends_flagged fun text => ends_hash _ text

theorem ends_getBlockByNumber {storage : Storage} (filled : storage.chain ≠ []) (request : Value) :
    Survives request (eth_getBlockByNumber storage request) (Flagged (Height storage)) := ends_flagged fun text => ends_height filled _ text

/-- A block by name or number. -/
def Tag (text : String) : Prop := text = "latest" ∨ ∃ number, text = quantityText number

theorem ends_checkBlock (text : String) : Ends (checkBlock text) (fun _ => Tag text) False := by
  apply ((ends_ok ()).guarded _).congr
  · intro value
    rw [not_and_or, not_not, Bool.not_eq_false, numFilter_iff]
    exact and_iff_left rfl
  · exact ⟨And.right, False.elim⟩

/-- An address and a block, whose number is not looked at. -/
def Account (params : Value) (address : Address) : Prop :=
  (∃ text, Argument params 0 (.string text) ∧ Written text address.get) ∧ ∃ block, Argument params 1 (.string block) ∧ Tag block

theorem ends_account (name : String) : Survives request (decoding name (account request)) Account := by
  apply ends_decoding
  · intro fault failed
    unfold account
    rw [textAt_fails failed]
    rfl
  · intro given found
    unfold account
    rw [textAt_of found, textAt_of found]
    apply ((ends_positional given 0).bind fun text _ => (ends_positional given 1).bind fun block _ =>
      (ends_checkBlock block).bind fun _ _ => ends_address _ text).congr
    · intro address
      constructor
      · rintro ⟨text, first, block, second, _, tag, written⟩
        exact ⟨⟨text, first, written⟩, block, second, tag⟩
      · rintro ⟨⟨text, first, written⟩, block, second, tag⟩
        exact ⟨text, first, block, second, (), tag, written⟩
    · exact never fun _ late => (never fun _ late => (never fun _ => id).mp late).mp late

def OfHash (params : Value) (info : Hash × UInt64) : Prop :=
  (∃ text, Argument params 0 (.string text) ∧ Written text info.1.get) ∧ Argument params 1 (.string (quantityText info.2.toNat))

theorem ends_getTransactionByBlockHashAndIndex (request : Value) :
    Survives request (eth_getTransactionByBlockHashAndIndex request) OfHash := by
  apply ends_decoding
  · intro fault failed
    rw [textAt_fails failed]
    rfl
  · intro given found
    rw [textAt_of found, textAt_of found]
    have inner : ∀ blockHash index : String, Ends
        (if looseHashFilter blockHash = false then raise "Invalid blockHash hex"
        else if numFilter index = false then raise "Invalid index hex"
        else do pure (← readHash looseHashFilter "Invalid blockHash hex" blockHash, ← readUint64 "Invalid index hex" index))
        (fun info => Written blockHash info.1.get ∧ index = quantityText info.2.toNat) False := by
      intro blockHash index
      have both := (ends_looseHash "Invalid blockHash hex" blockHash).pair (ends_uint64 "Invalid index hex" index)
      refine (both.recheck _ ?_ id).recheck _ ?_ id
      · rintro _ ⟨_, rfl⟩
        rw [numFilter_iff.mpr ⟨_, rfl⟩]
        exact Bool.noConfusion
      · rintro _ ⟨⟨digits, spelled, written⟩, _⟩
        have passes : looseHashFilter blockHash = true :=
          ofDigits_iff.mpr ⟨digits, spelled, (inAnyCase_length written).trans (fixed_hash.length _), looseDigit_inAnyCase written⟩
        rw [passes]
        exact Bool.noConfusion
    apply ((ends_positional given 0).bind fun blockHash _ => (ends_positional given 1).bind fun index _ => inner blockHash index).congr
    · intro info
      constructor
      · rintro ⟨text, first, _, second, written, rfl⟩
        exact ⟨⟨text, first, written⟩, second⟩
      · rintro ⟨⟨text, first, written⟩, second⟩
        exact ⟨text, first, _, second, written, rfl⟩
    · exact never fun _ => (never fun _ => id).mp

/-- A height by its digits, or the last one. -/
def Recent (storage : Storage) (text : String) (height : UInt64) : Prop :=
  (text = "latest" ∧ ∃ block, storage.latest = .ok block ∧ height = block.nHeight) ∨ text = quantityText height.toNat

def OfHeight (storage : Storage) (params : Value) (info : UInt64 × UInt64) : Prop :=
  (∃ text, Argument params 0 (.string text) ∧ Recent storage text info.1) ∧ Argument params 1 (.string (quantityText info.2.toNat))

theorem ends_getTransactionByBlockNumberAndIndex {storage : Storage} (filled : storage.chain ≠ []) (request : Value) :
    Survives request (eth_getTransactionByBlockNumberAndIndex storage request) (OfHeight storage) := by
  apply ends_decoding
  · intro fault failed
    rw [textAt_fails failed]
    rfl
  · intro given found
    rw [textAt_of found, textAt_of found]
    have inner : ∀ blockNum index : String, Ends
        (if numFilter index = false then raise "Invalid index hex"
        else if blockNum = "latest" then do pure (← latestHeight storage, ← readUint64 "Invalid index hex" index)
        else do pure (← readUint64 "Invalid blockNumber hex" blockNum, ← readUint64 "Invalid index hex" index))
        (fun info => Recent storage blockNum info.1 ∧ index = quantityText info.2.toNat) False := by
      intro blockNum index
      have number := ends_uint64 "Invalid index hex" index
      refine Ends.recheck (Ends.congr (Ends.ite (fun _ => (ends_latestHeight filled).pair number)
        fun _ => (ends_uint64 "Invalid blockNumber hex" blockNum).pair number) (fun info => ?_) (by rw [ite_self])) _ ?_ id
      · have named : blockNum = "latest" → blockNum ≠ quantityText info.1.toNat := by
          rintro rfl
          exact ne_quantityText rfl (by decide) _
        unfold Recent
        by_cases latest : blockNum = "latest"
        · have other := named latest
          simp only [latest, if_true, true_and]
          rw [or_iff_left (latest ▸ other)]
        · simp only [latest, if_false, false_and, false_or]
      · rintro _ ⟨_, rfl⟩
        rw [numFilter_iff.mpr ⟨_, rfl⟩]
        exact Bool.noConfusion
    apply ((ends_positional given 0).bind fun blockNum _ => (ends_positional given 1).bind fun index _ => inner blockNum index).congr
    · intro info
      constructor
      · rintro ⟨text, first, _, second, recent, rfl⟩
        exact ⟨⟨text, first, recent⟩, second⟩
      · rintro ⟨⟨text, first, recent⟩, second⟩
        exact ⟨text, first, _, second, recent, rfl⟩
    · exact never fun _ => (never fun _ => id).mp
/-- Bytes of a transaction, one of whose items is cut off where nothing can be read any more. -/
def CutOff (past : Bytes) (params : Value) : Prop :=
  ∃ text bytes, Argument params 0 (.string text) ∧ Data text bytes ∧ ¬ Complete (TxBounds.txRules bytes.length) (bytes ++ past)

theorem ends_sendRawTransaction (reader : BlockReader) (requiredChainId : UInt64) (request : Value) :
    Ends (eth_sendRawTransaction request reader requiredChainId)
      (fun tx => ∃ given, Params request given ∧ ∃ text bytes, Argument given 0 (.string text) ∧ Data text bytes ∧
        TxBlock.ofBytes reader.lib reader.sha3 bytes reader.past requiredChainId = .ok tx)
      (Lacks request ∨ ∃ given, Params request given ∧ CutOff reader.past given) := by
  apply ends_decoding (fun given tx => ∃ text bytes, Argument given 0 (.string text) ∧ Data text bytes ∧
    TxBlock.ofBytes reader.lib reader.sha3 bytes reader.past requiredChainId = .ok tx) (CutOff reader.past)
  · intro fault failed
    rw [textAt_fails failed]
    rfl
  · intro given found
    rw [textAt_of found]
    apply ((ends_positional given 0).bind fun text _ => (ends_data _ text).bind fun bytes _ => ends_checked _).congr
    · intro tx
      constructor
      · rintro ⟨text, first, bytes, data, read⟩
        exact ⟨text, bytes, first, data, read⟩
      · rintro ⟨text, bytes, first, data, read⟩
        exact ⟨text, first, bytes, data, read⟩
    · have inside : ∀ bytes, TxBlock.ofBytes reader.lib reader.sha3 bytes reader.past requiredChainId = .error Tx.pastEnd ↔
          ¬ Complete (TxBounds.txRules bytes.length) (bytes ++ reader.past) := by
        intro bytes
        rw [← TxBounds.tx_inside_iff, not_not]
      unfold CutOff
      constructor
      · rintro (impossible | ⟨text, first, impossible | ⟨bytes, data, failed⟩⟩)
        · exact impossible.elim
        · exact impossible.elim
        · exact ⟨text, bytes, first, data, (inside bytes).mp failed⟩
      · rintro ⟨text, bytes, first, data, cut⟩
        exact .inr ⟨text, first, .inr ⟨bytes, data, (inside bytes).mpr cut⟩⟩

/-- What an object has under a name. -/
def Given (object : Value) (key : String) : Option Value :=
  match object with
  | .object members => members.lookup key
  | _ => none

/-- A field with a default, for which null may be written. -/
def Nullable {α : Type} (object : Value) (key : String) (spelled : String → α → Prop) (default value : α) : Prop :=
  ((Given object key = none ∨ Given object key = some .null) ∧ value = default) ∨
    ∃ text, Given object key = some (.string text) ∧ spelled text value

theorem contains_iff (object : Value) (key : String) : object.contains key = (Given object key).isSome := by
  cases object <;> rfl

theorem member_given {object value : Value} {key : String} (given : Given object key = some value) : object.member key = .ok value := by
  unfold Given at given
  cases object with
  | object members =>
    unfold Value.member
    dsimp only at given ⊢
    rw [given]
    rfl
  | null | array | string | integer | float | boolean => cases given

theorem ends_nullable {α : Type} {read : String → Read α} {spelled : String → α → Prop} (object : Value) (key : String) (default : α)
    (reads : ∀ text, Ends (read text) (spelled text) False) : Ends (nullable object key read default) (Nullable object key spelled default) False := by
  unfold nullable
  rw [contains_iff]
  cases given : Given object key with
  | none =>
    apply (ends_ok default).congr (fun value => ?_) Iff.rfl
    unfold Nullable
    rw [given]
    constructor
    · exact fun same => .inl ⟨.inl rfl, same⟩
    · rintro (⟨_, same⟩ | ⟨_, impossible, _⟩)
      · exact same
      · cases impossible
  | some value =>
    rw [member_given given]
    change Ends (if value.isNull = true then pure default else do read (← value.getString)) _ _
    cases value with
    | null =>
      apply (ends_ok default).congr (fun value => ?_) Iff.rfl
      unfold Nullable
      rw [given]
      constructor
      · exact fun same => .inl ⟨.inr rfl, same⟩
      · rintro (⟨_, same⟩ | ⟨_, impossible, _⟩)
        · exact same
        · cases impossible
    | string text =>
      apply (reads text).congr (fun value => ?_) Iff.rfl
      unfold Nullable
      rw [given]
      constructor
      · exact fun holds => .inr ⟨text, rfl, holds⟩
      · rintro (⟨none | null, _⟩ | ⟨_, same, holds⟩)
        · cases none
        · cases null
        · cases same
          exact holds
    | boolean | integer | float | array | object =>
      apply (ends_exception _).congr (fun value => ?_) Iff.rfl
      unfold Nullable
      rw [given]
      refine iff_of_false id ?_
      rintro (⟨none | null, _⟩ | ⟨_, same, _⟩)
      · cases none
      · cases null
      · cases same

/-- The object with the fields, and the block if something follows it. -/
def CallObject (params txObj : Value) : Prop :=
  (∃ rest, params = .array (txObj :: rest) ∧ ∀ block ∈ rest.head?, ∃ text, block = .string text ∧ Tag text) ∨
    ∃ members, params = .object members ∧ txObj = params

theorem ends_callObject (params : Value) : Ends (callObject params) (CallObject params) False := by
  cases params with
  | object members =>
    apply (ends_ok (Value.object members)).congr (fun txObj => ?_) Iff.rfl
    constructor
    · exact fun same => .inr ⟨members, rfl, same⟩
    · rintro (⟨_, same, _⟩ | ⟨_, _, same⟩)
      · cases same
      · exact same
  | array values =>
    cases values with
    | nil =>
      apply (ends_exception _).congr (fun txObj => ?_) Iff.rfl
      refine iff_of_false id ?_
      rintro (⟨_, same, _⟩ | ⟨_, same, _⟩)
      · cases same
      · cases same
    | cons first rest =>
      have spelled : ∀ txObj, CallObject (.array (first :: rest)) txObj ↔
          txObj = first ∧ ∀ block ∈ rest.head?, ∃ text, block = .string text ∧ Tag text := by
        intro txObj
        constructor
        · rintro (⟨_, same, tags⟩ | ⟨_, same, _⟩)
          · cases same
            exact ⟨rfl, tags⟩
          · cases same
        · rintro ⟨rfl, tags⟩
          exact .inl ⟨rest, rfl, tags⟩
      cases rest with
      | nil =>
        apply (ends_ok first).congr (fun txObj => ?_) Iff.rfl
        rw [spelled]
        exact (and_iff_left fun _ absent => by cases absent).symm
      | cons second rest =>
        change Ends (do
          checkBlock (← second.getString)
          pure first) _ _
        apply ((ends_getString second).bind fun text _ => (ends_checkBlock text).bind fun _ _ => ends_ok first).congr
        · intro txObj
          rw [spelled]
          constructor
          · rintro ⟨text, string, _, tag, same⟩
            refine ⟨same, ?_⟩
            intro block inside
            cases Option.mem_some.mp inside
            exact ⟨text, string, tag⟩
          · rintro ⟨same, tags⟩
            obtain ⟨text, string, tag⟩ := tags second rfl
            exact ⟨text, string, (), tag, same⟩
        · exact never fun _ => (never fun _ => id).mp
  | null | string | boolean | integer | float =>
    apply (ends_exception _).congr (fun txObj => ?_) Iff.rfl
    refine iff_of_false id ?_
    rintro (⟨_, same, _⟩ | ⟨_, same, _⟩)
    · cases same
    · cases same

/-- The fields of a call, and what follows from its bytes. -/
structure Fields (receiver : Value → Address → Prop) (txObj : Value) (info : EthCallInfo) : Prop where
  «from» : Nullable txObj "from" (fun text (address : Address) => Written text address.get) 0 info.from
  «to» : receiver txObj info.to
  gas : ∃ gas : UInt64, Nullable txObj "gas" (fun text (gas : UInt64) => text = quantityText gas.toNat) 10000000 gas ∧
    info.gasLimit = BitVec.ofNat 256 gas.toNat
  gasPrice : Nullable txObj "gasPrice" (fun text (price : Uint256) => text = quantityText price.toNat) 0 info.gasPrice
  value : Nullable txObj "value" (fun text (value : Uint256) => text = quantityText value.toNat) 0 info.value
  fullData : Nullable txObj "data" Data [] info.fullData
  functor : info.functor = if 4 ≤ info.fullData.length then Functor.ofBytes (info.fullData.take 4) else 0
  data : info.data = if 4 < info.fullData.length then info.fullData.drop 4 else []

def Describes (receiver : Value → Address → Prop) (params : Value) (info : EthCallInfo) : Prop :=
  ∃ txObj, CallObject params txObj ∧ Fields receiver txObj info

theorem ends_callInfo {receiver : Value → Address → Prop} {readTo : Value → Read Address} (name : String) (request : Value)
    (reads : ∀ txObj, Ends (readTo txObj) (receiver txObj) False) :
    Survives request (decoding name (callInfo request readTo)) (Describes receiver) := by
  apply ends_decoding
  · intro fault failed
    unfold callInfo
    rw [failed]
    rfl
  · intro given found
    unfold callInfo
    rw [found]
    apply ((ends_callObject given).bind fun txObj _ =>
      (ends_nullable txObj "from" 0 (ends_address "Invalid from address hex")).bind fun sender _ =>
      (reads txObj).bind fun target _ =>
      (ends_nullable txObj "gas" 10000000 (ends_uint64 "Invalid gas hex")).bind fun gas _ =>
      (ends_nullable txObj "gasPrice" 0 (ends_uint "Invalid gasPrice hex")).bind fun gasPrice _ =>
      (ends_nullable txObj "value" 0 (ends_uint "Invalid value hex")).bind fun value _ =>
      (ends_nullable txObj "data" [] (ends_data "Invalid data hex")).bind fun fullData _ => ends_ok _).congr
    · intro info
      constructor
      · rintro ⟨txObj, object, sender, sent, target, received, gas, limited, gasPrice, priced, value, valued, fullData, data, rfl⟩
        exact ⟨txObj, object, sent, received, ⟨gas, limited, rfl⟩, priced, valued, data, rfl, rfl⟩
      · rintro ⟨txObj, object, sent, received, ⟨gas, limited, limit⟩, priced, valued, data, functor, rest⟩
        refine ⟨txObj, object, _, sent, _, received, gas, limited, _, priced, _, valued, _, data, ?_⟩
        cases info
        rw [EthCallInfo.mk.injEq]
        exact ⟨rfl, rfl, limit, rfl, rfl, functor, rest, rfl⟩
    · simp only [and_false, exists_false, or_false]
theorem ends_memberText (object : Value) (key : String) :
    Ends (do (← object.member key).getString) (fun text => Given object key = some (.string text)) False := by
  cases object with
  | object members =>
    apply (ends_getString ((members.lookup key).getD .null)).congr (fun text => ?_) Iff.rfl
    change _ ↔ members.lookup key = some (.string text)
    cases members.lookup key with
    | none => exact iff_of_false (fun same => by cases same) (fun same => by cases same)
    | some value => exact (Option.some.injEq ..).symm.to_iff
  | null | string | boolean | integer | float | array =>
    exact (ends_exception _).congr (fun _ => iff_of_false id (fun same => by cases same)) Iff.rfl

theorem ends_call (request : Value) : Ends (eth_call request)
    (fun info => ∃ given, Params request given ∧
      Describes (fun txObj address => ∃ text, Given txObj "to" = some (.string text) ∧ Written text address.get) given info)
    (Lacks request ∨ ∃ given, Params request given ∧ False) := by
  apply ends_callInfo "eth_call" request
  intro txObj
  have read : (do
      let toAdd ← (← txObj.member "to").getString
      readAddress "Invalid to address hex" toAdd) = (do (← txObj.member "to").getString) >>= readAddress "Invalid to address hex" := by
    cases txObj.member "to" <;> rfl
  rw [read]
  exact ((ends_memberText txObj "to").bind fun text _ => ends_address _ text).congr (fun _ => Iff.rfl) (never fun _ => id)

theorem ends_estimateGas (request : Value) : Ends (eth_estimateGas request)
    (fun info => ∃ given, Params request given ∧
      Describes (fun txObj address => Nullable txObj "to" (fun text (address : Address) => Written text address.get) 0 address) given info)
    (Lacks request ∨ ∃ given, Params request given ∧ False) :=
  ends_callInfo "eth_estimateGas" request fun txObj => ends_nullable txObj "to" 0 (ends_address "Invalid to address hex")

/-- A field with a default. -/
def Field {α : Type} (object : Value) (key : String) (spelled : String → α → Prop) (default value : α) : Prop :=
  (Given object key = none ∧ value = default) ∨ ∃ text, Given object key = some (.string text) ∧ spelled text value

theorem ends_field {α : Type} {read : String → Read α} {spelled : String → α → Prop} (object : Value) (key : String) (default : α)
    (reads : ∀ text, Ends (read text) (spelled text) False) : Ends (field object key read default) (Field object key spelled default) False := by
  have present : (do read (← (← object.member key).getString)) = (do (← object.member key).getString) >>= read := by
    cases object.member key <;> rfl
  unfold field
  rw [contains_iff, present]
  cases given : Given object key with
  | none =>
    apply (ends_ok default).congr (fun value => ?_) Iff.rfl
    unfold Field
    rw [given]
    constructor
    · exact fun same => .inl ⟨rfl, same⟩
    · rintro (⟨_, same⟩ | ⟨_, impossible, _⟩)
      · exact same
      · cases impossible
  | some value =>
    apply ((ends_memberText object key).bind fun text _ => reads text).congr
    · intro value
      unfold Field
      rw [given]
      constructor
      · exact .inr
      · rintro (⟨impossible, _⟩ | found)
        · cases impossible
        · exact found
    · exact never fun _ => id

theorem ends_mapM {α β : Type} {read : α → Read β} (encode : β → α) (reads : ∀ value, Ends (read value) (fun found => value = encode found) False)
    (values : List α) : Ends (values.mapM read) (fun found => values = found.map encode) False := by
  induction values with
  | nil =>
    apply (ends_ok []).congr (fun found => ?_) Iff.rfl
    constructor
    · rintro rfl
      rfl
    · exact fun same => List.map_eq_nil_iff.mp same.symm
  | cons first rest ih =>
    rw [List.mapM_cons]
    apply ((reads first).bind fun head _ => ih.bind fun tail _ => ends_ok (head :: tail)).congr
    · intro found
      constructor
      · rintro ⟨head, same, tail, others, rfl⟩
        rw [same, others]
        rfl
      · intro same
        cases found with
        | nil => cases same
        | cons head tail =>
          obtain ⟨one, others⟩ := List.cons.inj same
          exact ⟨head, one, tail, others, rfl⟩
    · exact never fun _ => (never fun _ => id).mp

/-- The topics are hashes in lower case. -/
def Topics (object : Value) (topics : List Hash) : Prop :=
  (Given object "topics" = none ∧ topics = []) ∨
    Given object "topics" = some (.array (topics.map fun topic => .string (Hex.fromBytes topic.get)))

theorem ends_topics (object : Value) : Ends (readTopics object) (Topics object) False := by
  unfold readTopics
  rw [contains_iff]
  cases given : Given object "topics" with
  | none =>
    apply (ends_ok []).congr (fun topics => ?_) Iff.rfl
    unfold Topics
    rw [given]
    constructor
    · exact fun same => .inl ⟨rfl, same⟩
    · rintro (⟨_, same⟩ | impossible)
      · exact same
      · cases impossible
  | some value =>
    rw [member_given given]
    have spelled : ∀ topics, Topics object topics ↔ value = .array (topics.map fun topic => .string (Hex.fromBytes topic.get)) := by
      intro topics
      unfold Topics
      rw [given, Option.some.injEq, or_iff_right]
      rintro ⟨impossible, _⟩
      cases impossible
    cases value with
    | array values =>
      change Ends (do
        let topicsArray ← values.mapM Value.getString
        topicsArray.mapM (readHash hashFilter "Invalid topic hex")) _ _
      apply ((ends_mapM Value.string ends_getString values).bind fun texts _ =>
        ends_mapM (fun topic : Hash => Hex.fromBytes topic.get) (ends_hash "Invalid topic hex") texts).congr
      · intro topics
        rw [spelled, Value.array.injEq]
        constructor
        · rintro ⟨_, same, rfl⟩
          rw [same, List.map_map]
          rfl
        · intro same
          refine ⟨_, ?_, rfl⟩
          rw [same, List.map_map]
          rfl
      · exact never fun _ => id
    | null | string | boolean | integer | float | object =>
      apply (ends_exception _).congr (fun topics => ?_) Iff.rfl
      rw [spelled]
      exact iff_of_false id (fun same => by cases same)
variable {World : Type} (services : Services World) (height : UInt64) (storage : Storage)

/-- A block that is asked for by its hash, and is not there. -/
def Unknown (object : Value) : Prop := ∃ hash : Hash, Given object "blockHash" = some (.string (Hex.fromBytes hash.get)) ∧
  ((∃ after, Storage.getBlock services.reader storage services.db hash = .ok (none, after)) ∨
    Storage.getBlock services.reader storage services.db hash = .error Tx.pastEnd)

/-- The heights of the first and of the last block, and what is left of the storage: a block that is asked for is kept. -/
def Range (object : Value) (range : UInt64 × UInt64) (after : Storage) : Prop :=
  (∃ (hash : Hash) (block : Block), Given object "blockHash" = some (.string (Hex.fromBytes hash.get)) ∧
    Storage.getBlock services.reader storage services.db hash = .ok (some block, after) ∧ range = (block.nHeight, block.nHeight)) ∨
  (Given object "blockHash" = none ∧ Field object "fromBlock" (Height storage) height range.1 ∧
    Field object "toBlock" (Height storage) height range.2 ∧ after = storage)

theorem eval_lift {α : Type} (outcome : Read α) : (lift outcome).eval storage = (outcome, storage) := by
  cases outcome <;> rfl

variable {storage} in
theorem endsAt_lift {α : Type} {outcome : Read α} {good : α → Prop} {crash : Prop} (ends : Ends outcome good crash) :
    EndsAt (lift outcome) storage (fun value after => good value ∧ after = storage) crash := endsAt_of_ends ends (eval_lift storage outcome)

theorem endsAt_lift_bind {α β : Type} {outcome : Read α} {good : α → Prop} {crash : Prop} (ends : Ends outcome good crash) {next : α → Decoder β}
    {later : α → β → Storage → Prop} {fails : α → Prop} (late : ∀ value, good value → EndsAt (next value) storage (later value) (fails value)) :
    EndsAt (lift outcome >>= next) storage (fun result after => ∃ value, good value ∧ later value result after)
      (crash ∨ ∃ value, good value ∧ fails value) := by
  have threaded : ∀ value middle, good value ∧ middle = storage → EndsAt (next value) middle (later value) (fails value) := by
    rintro value _ ⟨holds, rfl⟩
    exact late value holds
  apply ((endsAt_lift ends).bind threaded).congr
  · intro result after
    simp only [and_assoc, exists_and_left, exists_eq_left]
  · simp only [and_assoc, exists_and_left, exists_eq_left]

theorem endsAt_found (found : Option Block × Storage) (storage : Storage) : EndsAt (do
      set found.2
      lift (found.1.elim (.error .undefined) fun block => .ok block.nHeight) : Decoder UInt64) storage
    (fun height after => ∃ block, found.1 = some block ∧ height = block.nHeight ∧ after = found.2) (found.1 = none) := by
  obtain ⟨_ | block, kept⟩ := found
  · constructor
    · intro height after
      refine iff_of_false (fun same => by cases same) ?_
      rintro ⟨_, same, _⟩
      cases same
    · exact iff_of_true rfl rfl
  · constructor
    · intro height after
      constructor
      · intro same
        cases same
        exact ⟨block, rfl, rfl, rfl⟩
      · rintro ⟨_, same, rfl, rfl⟩
        cases same
        rfl
    · exact iff_of_false (fun same => by cases same) (fun same => by cases same)

theorem endsAt_heightOfBlock (hash : Hash) : EndsAt (heightOfBlock services hash) storage
    (fun height after => ∃ block, Storage.getBlock services.reader storage services.db hash = .ok (some block, after) ∧ height = block.nHeight)
    ((∃ after, Storage.getBlock services.reader storage services.db hash = .ok (none, after)) ∨
      Storage.getBlock services.reader storage services.db hash = .error Tx.pastEnd) := by
  have read := ends_checked (Storage.getBlock services.reader storage services.db hash)
  refine EndsAt.of_eval ?_ ((endsAt_lift_bind storage read fun found _ => endsAt_found found storage).congr ?_ ?_)
  · unfold heightOfBlock
    rw [Action.eval_bind, Action.eval_get]
  · intro height last
    constructor
    · rintro ⟨⟨block, after⟩, found, block', same, rfl, rfl⟩
      cases same
      exact ⟨block', found, rfl⟩
    · rintro ⟨block, found, same⟩
      exact ⟨(some block, last), found, block, rfl, same, rfl⟩
  · constructor
    · rintro (failed | ⟨⟨block, after⟩, found, same⟩)
      · exact .inr failed
      · have none : block = none := same
        exact .inl ⟨after, none ▸ found⟩
    · rintro (⟨after, found⟩ | failed)
      · exact .inr ⟨(none, after), found, rfl⟩
      · exact .inl failed

theorem endsAt_logsRange (filled : storage.chain ≠ []) (object : Value) :
    EndsAt (logsRange services height object) storage (Range services height storage object) (Unknown services storage object) := by
  have asked : Given object "blockHash" ≠ none → EndsAt (do
      let blockHashHex ← lift (do (← object.member "blockHash").getString)
      let blockHash ← lift (readHash hashFilter "Invalid block hash hex" blockHashHex)
      let height ← heightOfBlock services blockHash
      pure (height, height) : Decoder (UInt64 × UInt64)) storage (Range services height storage object) (Unknown services storage object) := by
    intro present
    apply (endsAt_lift_bind storage (ends_memberText object "blockHash") fun text _ =>
      endsAt_lift_bind storage (ends_hash "Invalid block hash hex" text) fun hash _ =>
      (endsAt_heightOfBlock services storage hash).bind fun height after _ => endsAt_lift (ends_ok (height, height))).congr
    · intro range after
      constructor
      · rintro ⟨_, given, hash, rfl, _, _, ⟨block, found, rfl⟩, rfl, rfl⟩
        exact .inl ⟨hash, block, given, found, rfl⟩
      · rintro (⟨hash, block, given, found, rfl⟩ | ⟨absent, _⟩)
        · exact ⟨_, given, hash, rfl, _, after, ⟨block, found, rfl⟩, rfl, rfl⟩
        · exact absurd absent present
    · constructor
      · rintro (impossible | ⟨_, given, impossible | ⟨hash, rfl, unknown | ⟨_, _, _, impossible⟩⟩⟩)
        · exact impossible.elim
        · exact impossible.elim
        · exact ⟨hash, given, unknown⟩
        · exact impossible.elim
      · rintro ⟨hash, given, unknown⟩
        exact .inr ⟨_, given, .inr ⟨hash, rfl, .inl unknown⟩⟩
  have ranged : Given object "blockHash" = none → EndsAt (do
      let fromBlock ← lift (field object "fromBlock" (readHeight storage "Invalid fromBlock hex") height)
      let toBlock ← lift (field object "toBlock" (readHeight storage "Invalid fromBlock hex") height)
      pure (fromBlock, toBlock) : Decoder (UInt64 × UInt64)) storage (Range services height storage object) (Unknown services storage object) := by
    intro absent
    apply (endsAt_lift_bind storage (ends_field object "fromBlock" height (ends_height filled "Invalid fromBlock hex")) fun first _ =>
      endsAt_lift_bind storage (ends_field object "toBlock" height (ends_height filled "Invalid fromBlock hex")) fun last _ =>
      endsAt_lift (ends_ok (first, last))).congr
    · rintro ⟨first, last⟩ after
      constructor
      · rintro ⟨_, early, _, late, same, rfl⟩
        cases same
        exact .inr ⟨absent, early, late, rfl⟩
      · rintro (⟨_, _, given, _⟩ | ⟨_, early, late, rfl⟩)
        · cases absent.symm.trans given
        · exact ⟨first, early, last, late, rfl, rfl⟩
    · refine iff_of_false ?_ ?_
      · simp only [and_false, exists_false, or_false, not_false_eq_true]
      · rintro ⟨_, given, _⟩
        cases absent.symm.trans given
  unfold logsRange
  rw [contains_iff]
  cases given : Given object "blockHash" with
  | some value => exact asked (fun none => by cases given.symm.trans none)
  | none =>
    apply EndsAt.of_eval _ (ranged given)
    rw [Option.isSome_none, if_neg Bool.false_ne_true, Action.eval_bind, Action.eval_get]

/-- The first parameter of a request for logs, with a range, an address and topics. -/
def Logs (params : Value) (range : UInt64 × UInt64) (address : Address) (topics : List Hash) (after : Storage) : Prop :=
  ∃ object, Argument params 0 object ∧ Range services height storage object range after ∧
    Field object "address" (fun text (address : Address) => Written text address.get) 0 address ∧ Topics object topics

theorem endsAt_getLogs (filled : storage.chain ≠ []) (request : Value) : EndsAt (eth_getLogs request services height) storage
    (fun info after => ∃ given, Params request given ∧ Logs services height storage given (info.1, info.2.1) info.2.2.1 info.2.2.2 after)
    (Lacks request ∨ ∃ given, Params request given ∧ ∃ object, Argument given 0 object ∧ Unknown services storage object) := by
  have first : Ends (do (← params request).at 0) (fun object => ∃ given, Params request given ∧ Argument given 0 object) (Lacks request) := by
    apply ((ends_params request).bind fun given _ => ends_at given 0).congr (fun _ => Iff.rfl)
    simp only [and_false, exists_false, or_false]
  have body := endsAt_lift_bind storage first fun object _ => (endsAt_logsRange services height storage filled object).bind fun range after _ =>
    endsAt_lift_bind after (ends_field object "address" 0 (ends_address "Invalid address hex")) fun address _ =>
    endsAt_lift_bind after (ends_topics object) fun topics _ => endsAt_lift (ends_ok (range.1, range.2, address, topics))
  unfold eth_getLogs
  apply (body.rename rfl fun what => ⟨_, rfl⟩).congr
  · rintro ⟨low, high, address, topics⟩ after
    constructor
    · rintro ⟨object, ⟨given, holds, first⟩, _, _, ranged, _, field, _, topical, same, rfl⟩
      cases same
      exact ⟨given, holds, object, first, ranged, field, topical⟩
    · rintro ⟨given, holds, object, first, ranged, field, topical⟩
      exact ⟨object, ⟨given, holds, first⟩, (low, high), after, ranged, address, field, topics, topical, rfl, rfl⟩
  · simp only [and_false, exists_false, or_false]
    constructor
    · rintro (lacks | ⟨object, ⟨given, holds, first⟩, unknown⟩)
      · exact .inl lacks
      · exact .inr ⟨given, holds, object, first, unknown⟩
    · rintro (lacks | ⟨given, holds, object, first, unknown⟩)
      · exact .inl lacks
      · exact .inr ⟨object, ⟨given, holds, first⟩, unknown⟩

/-- What the calls of a method are written as, unless it is the one for logs. -/
def Calls : Methods → Value → Call → Prop
  | .invalid, _, _ | .eth_sendTransaction, _, _ | .eth_getLogs, _, _ => False
  | .web3_clientVersion, params, call => Empty params ∧ call = .web3_clientVersion
  | .web3_sha3, params, call => ∃ data, (∃ text, params = .array [.string text] ∧ Data text data) ∧ call = .web3_sha3 data
  | .net_version, params, call => Empty params ∧ call = .encoded .net_version
  | .net_listening, params, call => Empty params ∧ call = .net_listening
  | .net_peerCount, params, call => Empty params ∧ call = .encoded .net_peerCount
  | .eth_protocolVersion, params, call => Empty params ∧ call = .eth_protocolVersion
  | .eth_getBlockByHash, params, call => ∃ info, Flagged (fun text (hash : Hash) => text = Hex.fromBytes hash.get) params info ∧
    call = .encoded (.eth_getBlockByHash info.1 info.2)
  | .eth_getBlockByNumber, params, call => ∃ info, Flagged (Height storage) params info ∧ call = .encoded (.eth_getBlockByNumber info.1 info.2)
  | .eth_getBlockTransactionCountByHash, params, call => ∃ hash : Hash, (∃ text, Argument params 0 (.string text) ∧ text = Hex.fromBytes hash.get) ∧
    call = .encoded (.eth_getBlockTransactionCountByHash hash)
  | .eth_getBlockTransactionCountByNumber, params, call => ∃ height, (∃ text, Argument params 0 (.string text) ∧ Height storage text height) ∧
    call = .encoded (.eth_getBlockTransactionCountByNumber height)
  | .eth_chainId, params, call => Empty params ∧ call = .encoded .eth_chainId
  | .eth_syncing, params, call => Empty params ∧ call = .eth_syncing
  | .eth_coinbase, params, call => Empty params ∧ call = .eth_coinbase
  | .eth_blockNumber, params, call => Empty params ∧ call = .encoded .eth_blockNumber
  | .eth_call, params, call => ∃ info,
    Describes (fun txObj address => ∃ text, Given txObj "to" = some (.string text) ∧ Written text address.get) params info ∧
    call = .encoded (.eth_call info)
  | .eth_estimateGas, params, call => ∃ info,
    Describes (fun txObj address => Nullable txObj "to" (fun text (address : Address) => Written text address.get) 0 address) params info ∧
    call = .encoded (.eth_estimateGas info)
  | .eth_gasPrice, params, call => Empty params ∧ call = .encoded .eth_gasPrice
  | .eth_getBalance, params, call => ∃ address, Account params address ∧ call = .encoded (.eth_getBalance address)
  | .eth_getTransactionCount, params, call => ∃ address, Account params address ∧ call = .encoded (.eth_getTransactionCount address)
  | .eth_getCode, params, call => ∃ address, Account params address ∧ call = .encoded (.eth_getCode address)
  | .eth_sendRawTransaction, params, call => ∃ tx, (∃ text bytes, Argument params 0 (.string text) ∧ Data text bytes ∧
      TxBlock.ofBytes services.reader.lib services.reader.sha3 bytes services.reader.past services.chainID = .ok tx) ∧
    call = .eth_sendRawTransaction tx
  | .eth_getTransactionByHash, params, call => ∃ hash : Hash, (∃ text, Argument params 0 (.string text) ∧ Written text hash.get) ∧
    call = .encoded (.eth_getTransactionByHash hash)
  | .eth_getTransactionByBlockHashAndIndex, params, call => ∃ info, OfHash params info ∧
    call = .encoded (.eth_getTransactionByBlockHashAndIndex info.1 info.2)
  | .eth_getTransactionByBlockNumberAndIndex, params, call => ∃ info, OfHeight storage params info ∧
    call = .encoded (.eth_getTransactionByBlockNumberAndIndex info.1 info.2)
  | .eth_getTransactionReceipt, params, call => ∃ hash : Hash, (∃ text, Argument params 0 (.string text) ∧ Written text hash.get) ∧
    call = .encoded (.eth_getTransactionReceipt hash)

/-- What the parameters of a method mean. -/
def Means (method : Methods) (params : Value) (call : Call) (after : Storage) : Prop :=
  (Calls services storage method params call ∧ after = storage) ∨ (method = .eth_getLogs ∧
    ∃ fromBlock toBlock address topics, Logs services height storage params (fromBlock, toBlock) address topics after ∧
      call = .eth_getLogs fromBlock toBlock address topics)

/-- Parameters that nothing is checked of before memory is read that is not there. -/
def Crashes (method : Methods) (params : Value) : Prop :=
  (method = .eth_sendRawTransaction ∧ CutOff services.reader.past params) ∨
    (method = .eth_getLogs ∧ ∃ object, Argument params 0 object ∧ Unknown services storage object)

/-- A decoder of a method reads what the parameters mean, and crashes where they do. -/
abbrev Decodes (request : Value) (method : Methods) (decoder : Decoder Call) : Prop :=
  EndsAt decoder storage (fun call after => ∃ given, Params request given ∧ Means services height storage method given call after)
    (Lacks request ∨ ∃ given, Params request given ∧ Crashes services storage method given)

variable {services height storage}

theorem endsAt_plain {α : Type} {outcome : Storage → Read α} {call : α → Call} {good : Value → α → Prop}
    {crash : Value → Prop} (ends : Ends (outcome storage) (fun value => ∃ given, Params request given ∧ good given value)
      (Lacks request ∨ ∃ given, Params request given ∧ crash given))
    (other : method ≠ .eth_getLogs) (means : ∀ given result, Calls services storage method given result ↔ ∃ value, good given value ∧ result = call value)
    (crashes : ∀ given, crash given ↔ Crashes services storage method given) :
    Decodes services height storage request method (do
      let storage ← get
      lift ((outcome storage).map call)) := by
  refine EndsAt.of_eval ?_ ((endsAt_lift (ends.map call)).congr ?_ ?_)
  · rw [Action.eval_bind, Action.eval_get]
  · intro result after
    unfold Means
    simp only [other, false_and, or_false, means]
    constructor
    · rintro ⟨⟨value, ⟨given, holds, reads⟩, same⟩, kept⟩
      exact ⟨given, holds, ⟨value, reads, same⟩, kept⟩
    · rintro ⟨given, holds, ⟨value, reads, same⟩, kept⟩
      exact ⟨⟨value, ⟨given, holds, reads⟩, same⟩, kept⟩
  · simp only [crashes]

theorem crashes_iff (raw : method ≠ .eth_sendRawTransaction) (logs : method ≠ .eth_getLogs) (given : Value) :
    False ↔ Crashes services storage method given := by
  unfold Crashes
  simp only [raw, logs, false_and, or_false]

theorem endsAt_safe {α : Type} {outcome : Storage → Read α} {call : α → Call} {good : Value → α → Prop}
    (ends : Survives request (outcome storage) good) (raw : method ≠ .eth_sendRawTransaction) (logs : method ≠ .eth_getLogs)
    (means : ∀ given result, Calls services storage method given result ↔ ∃ value, good given value ∧ result = call value) :
    Decodes services height storage request method (do
      let storage ← get
      lift ((outcome storage).map call)) :=
  endsAt_plain ends logs means (crashes_iff raw logs)

theorem endsAt_bare {name : String} {call : Call} (raw : method ≠ .eth_sendRawTransaction)
    (logs : method ≠ .eth_getLogs) (means : ∀ given result, Calls services storage method given result ↔ Empty given ∧ result = call) :
    Decodes services height storage request method (do
      let storage ← get
      lift (((fun _ : Storage => noParams request name) storage).map fun _ => call)) := by
  refine endsAt_safe (ends_noParams request name) raw logs fun given result => ?_
  rw [means, exists_const]

theorem endsAt_decode (filled : storage.chain ≠ []) {decoder : Decoder Call}
    (found : decode request services height method = some decoder) :
    Decodes services height storage request method decoder := by
  cases method with
  | invalid | eth_sendTransaction => cases found
  | web3_clientVersion | net_version | net_listening | net_peerCount | eth_protocolVersion | eth_chainId | eth_syncing | eth_coinbase
  | eth_blockNumber | eth_gasPrice =>
    cases found
    exact endsAt_bare (by decide) (by decide) fun _ _ => Iff.rfl
  | web3_sha3 =>
    cases found
    exact endsAt_safe (ends_sha3 request) (by decide) (by decide) fun _ _ => Iff.rfl
  | eth_getBlockByHash =>
    cases found
    exact endsAt_safe (ends_getBlockByHash request) (by decide) (by decide) fun _ _ => Iff.rfl
  | eth_getBlockByNumber =>
    cases found
    exact endsAt_safe (ends_getBlockByNumber filled request) (by decide) (by decide) fun _ _ => Iff.rfl
  | eth_getBlockTransactionCountByHash =>
    cases found
    exact endsAt_safe (ends_getBlockTransactionCountByHash request) (by decide) (by decide) fun _ _ => Iff.rfl
  | eth_getBlockTransactionCountByNumber =>
    cases found
    exact endsAt_safe (ends_getBlockTransactionCountByNumber filled request) (by decide) (by decide) fun _ _ => Iff.rfl
  | eth_call =>
    cases found
    exact endsAt_safe (ends_call request) (by decide) (by decide) fun _ _ => Iff.rfl
  | eth_estimateGas =>
    cases found
    exact endsAt_safe (ends_estimateGas request) (by decide) (by decide) fun _ _ => Iff.rfl
  | eth_getBalance | eth_getTransactionCount | eth_getCode =>
    cases found
    exact endsAt_safe (ends_account _) (by decide) (by decide) fun _ _ => Iff.rfl
  | eth_getTransactionByHash =>
    cases found
    exact endsAt_safe (ends_getTransactionByHash request) (by decide) (by decide) fun _ _ => Iff.rfl
  | eth_getTransactionByBlockHashAndIndex =>
    cases found
    exact endsAt_safe (ends_getTransactionByBlockHashAndIndex request) (by decide) (by decide) fun _ _ => Iff.rfl
  | eth_getTransactionByBlockNumberAndIndex =>
    cases found
    exact endsAt_safe (ends_getTransactionByBlockNumberAndIndex filled request) (by decide) (by decide) fun _ _ => Iff.rfl
  | eth_getTransactionReceipt =>
    cases found
    exact endsAt_safe (ends_getTransactionReceipt request) (by decide) (by decide) fun _ _ => Iff.rfl
  | eth_sendRawTransaction =>
    cases found
    refine endsAt_plain (ends_sendRawTransaction services.reader services.chainID request) (by decide) (fun _ _ => Iff.rfl) fun given => ?_
    unfold Crashes
    simp only [true_and, reduceCtorEq, false_and, or_false]
  | eth_getLogs =>
    cases found
    apply ((endsAt_getLogs services height storage filled request).bind fun info after _ => endsAt_lift (ends_ok (Call.eth_getLogs info.1 info.2.1 info.2.2.1 info.2.2.2))).congr
    · intro result last
      unfold Means
      constructor
      · rintro ⟨⟨low, high, address, topics⟩, _, ⟨given, holds, logs⟩, rfl, rfl⟩
        exact ⟨given, holds, .inr ⟨rfl, low, high, address, topics, logs, rfl⟩⟩
      · rintro ⟨given, holds, ⟨impossible, _⟩ | ⟨_, low, high, address, topics, logs, rfl⟩⟩
        · exact impossible.elim
        · exact ⟨(low, high, address, topics), last, ⟨given, holds, logs⟩, rfl, rfl⟩
    · unfold Crashes
      simp only [and_false, exists_false, or_false, true_and, reduceCtorEq, false_and, false_or]

end OrbiterSDK.Proofs.RpcDecoders
