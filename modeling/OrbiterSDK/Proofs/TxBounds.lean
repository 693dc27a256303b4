import OrbiterSDK.Lib.Demands
import OrbiterSDK.Proofs.BlockShapes

/-! How far the parsers of transactions read. Lengths are taken from the bytes and are not compared with how many
bytes there are. -/

namespace OrbiterSDK.Proofs.TxBounds
open Lib Lib.Reader Action Utils Tx ByteStrings

/-- A byte that stands for itself. -/
def byteRule (allowed : UInt8 → Bool) : Rule UInt8 where
  demand first _ := if allowed first then some 0 else none

/-- The length of a list must be that of what follows. -/
def listRule (size : UInt64) : Rule UInt8 where
  demand first _ := if first < 0xf7 then none else some (first - 0xf7).toNat
  passes item := fromBigEndian64 item.tail = size - UInt64.ofNat item.length

/-- Up to 0x7f a byte is a number itself. -/
def uintRule (longest : UInt8) (fits : Nat → Bool) : Rule UInt8 where
  demand first _ :=
    let length := if 0x80 ≤ first then first - 0x80 else 0
    if longest < length then none else some length.toNat
  passes item := fits (bytesToUint item.tail)

def fits256 (value : Nat) : Bool := value < 2 ^ 256

/-- Below 0x80 the length is far too large. -/
def scalarRule (longest : UInt8) : Rule UInt8 where
  demand first _ := if longest < first - 0x80 then none else some (first - 0x80).toNat
  passes item := fits256 (bytesToUint item.tail)

/-- From 0xb7 on the length has a length itself. -/
def dataRule (last : UInt8) : Rule UInt8 where
  demand first rest :=
    if first < 0x80 then some 0
    else if first < 0xb7 then some (first - 0x80).toNat
    else if last < first then none
    else
      let count := (first - 0xb7).toNat
      some (count + if count ≤ rest.length then (fromBigEndian64 (rest.take count)).toNat else 0)

def toRule : Rule UInt8 where
  demand first _ := if first - 0x80 ≠ 20 ∧ first - 0x80 ≠ 0 then none else some (first - 0x80).toNat

/-- The items of a transaction of some size. -/
def txRules (size : Nat) : List (Rule UInt8) :=
  [byteRule (· = 0x02), listRule (UInt64.ofNat size - 1), uintRule 0x37 fun _ => true, uintRule 0x37 fun _ => true,
    uintRule 0x37 fits256, uintRule 0x37 fits256, uintRule 0x37 fun _ => true, toRule, uintRule 0x37 fits256, dataRule 0xbf,
    byteRule (· = 0xc0), byteRule fun first => first = 0x80 || first ≤ 1, scalarRule 0x20, scalarRule 0x20]

def validatorRules (size : Nat) : List (Rule UInt8) :=
  [listRule (UInt64.ofNat size), dataRule 0xff, uintRule 0xff fun _ => true, uintRule 0x37 fits256, scalarRule 0x37, scalarRule 0x37]

/-- Lengths above a bound are refused. -/
structure Bounds (refuse : UInt8 → Option Exception) (longest : UInt8) : Prop where
  above : ∀ length, longest < length → ∃ what, refuse length = some what ∧ what ≠ pastEnd
  within : ∀ length, ¬ longest < length → refuse length = none

theorem bounds_tooLarge {what : Exception} (other : what ≠ pastEnd) : Bounds (tooLarge what) 0x37 where
  above _ large := ⟨what, if_pos large, other⟩
  within _ small := if_neg small

private theorem bounds_never : Bounds (fun _ => none) 0xff where
  above length large := absurd (UInt8.le_iff_toNat_le.mpr (Nat.le_of_lt_succ length.toNat_lt)) (UInt8.not_le.mpr large)
  within _ _ := rfl

theorem bounds_data : Bounds (fun first => if first < 0xc0 then none else some "Data is too large") 0xbf where
  above first large := by
    refine ⟨_, if_neg ?_, by decide⟩
    rw [UInt8.lt_iff_toNat_lt] at large ⊢
    exact Nat.not_lt.mpr large
  within first small := by
    apply if_pos
    rw [UInt8.lt_iff_toNat_lt] at small ⊢
    exact Nat.lt_succ_of_le (Nat.not_lt.mp small)

/-- Which numbers a conversion takes. -/
structure Converts {α : Type} (convert : Bytes → Except Exception α) (fits : Nat → Bool) : Prop where
  takes : ∀ payload, fits (bytesToUint payload) = true → ∃ value, convert payload = .ok value
  refuses : ∀ payload, fits (bytesToUint payload) = false → ∃ what, convert payload = .error what ∧ what ≠ pastEnd
  bytes : ∀ byte : UInt8, fits byte.toNat = true

theorem converts_toUint64 : Converts toUint64 fun _ => true := ⟨fun _ _ => ⟨_, rfl⟩, nofun, fun _ => rfl⟩

private theorem converts_throughUint64 : Converts throughUint64 fun _ => true := ⟨fun _ _ => ⟨_, rfl⟩, nofun, fun _ => rfl⟩

theorem converts_256 : Converts fromBigEndian256 fits256 where
  takes payload small := ⟨_, if_pos (of_decide_eq_true small)⟩
  refuses payload large := ⟨_, if_neg (of_decide_eq_false large), by decide⟩
  bytes byte := by
    apply decide_eq_true
    have small := byte.toNat_lt
    omega

variable {α : Type} {refuse : UInt8 → Option Exception} {longest : UInt8}

theorem follows_byte {allowed : UInt8 → Bool} {body : UInt8 → TxReader α} (value : UInt8 → α) {what : Exception}
    (other : what ≠ pastEnd) (takes : ∀ first, allowed first = true → body first = do let _ ← take pastEnd 1; pure (value first))
    (throws : ∀ first, allowed first = false → body first = throw what) :
    Follows pastEnd (peek pastEnd >>= body) (byteRule allowed) := by
  apply follows_peek
  case refuses =>
    intro first rest refused
    cases allows : allowed first with
    | true => cases refused.symm.trans (if_pos allows)
    | false => exact ⟨what, by rw [throws first allows]; rfl, other⟩
  case asks =>
    intro first rest count asked
    cases allows : allowed first with
    | false =>
      have refused : (byteRule allowed).demand first rest = none := if_neg (by rw [allows]; decide)
      cases asked.symm.trans refused
    | true =>
      obtain rfl := Option.some.inj (asked.symm.trans (if_pos allows))
      rw [if_pos (Nat.zero_le _), if_pos (show (byteRule allowed).passes _ = true from rfl)]
      exact ⟨value first, by rw [takes first allows]; rfl⟩

theorem follows_type : Follows pastEnd (do
    let type ← peek pastEnd
    if type ≠ 0x02 then throw "Tx is not type 2"
    else do
      let _ ← take pastEnd 1
      pure () : TxReader Unit) (byteRule (· = 0x02)) :=
  follows_byte (fun _ => ()) (show "Tx is not type 2" ≠ pastEnd by decide)
    (fun _ allows => if_neg (not_not.mpr (of_decide_eq_true allows))) fun _ refused => if_pos (of_decide_eq_false refused)

private theorem follows_accessList : Follows pastEnd TxBlock.readAccessList (byteRule (· = 0xc0)) :=
  follows_byte (fun _ => ()) (show "Access list is not empty" ≠ pastEnd by decide)
    (fun _ allows => if_neg (not_not.mpr (of_decide_eq_true allows))) fun _ refused => if_pos (of_decide_eq_false refused)

theorem follows_v : Follows pastEnd TxBlock.readV (byteRule fun first => first = 0x80 || first ≤ 1) := by
  have small (first : UInt8) : 1 < (if first = 0x80 then 0 else first) ↔ (decide (first = 0x80) || decide (first ≤ 1)) = false := by
    rw [Bool.or_eq_false_iff, decide_eq_false_iff_not, decide_eq_false_iff_not, UInt8.not_le]
    by_cases zero : first = 0x80
    · rw [if_pos zero]
      exact iff_of_false (by decide) fun both => both.1 zero
    · rw [if_neg zero]
      exact ⟨fun large => ⟨zero, large⟩, And.right⟩
  apply follows_byte (fun first => if first = 0x80 then 0 else first) (show "V is not 0 or 1" ≠ pastEnd by decide)
  · intro first allows
    apply if_neg
    rw [small, allows]
    decide
  · intro first refused
    exact if_pos ((small first).mpr refused)

theorem follows_uint {convert : Bytes → Except Exception α} {fits : Nat → Bool} (bounds : Bounds refuse longest)
    (converts : Converts convert fits) : Follows pastEnd (readUint convert refuse) (uintRule longest fits) := by
  apply follows_peek
  case refuses =>
    intro first rest refused
    generalize lengthIs : (if 0x80 ≤ first then first - 0x80 else 0) = length
    have large : longest < length := by
      by_contra small
      cases refused.symm.trans (if_neg (lengthIs ▸ small))
    have some : length ≠ 0 := by
      rintro rfl
      exact absurd large (UInt8.not_lt.mpr (UInt8.le_iff_toNat_le.mpr (Nat.zero_le _)))
    obtain ⟨what, refuses, other⟩ := bounds.above length large
    refine ⟨what, ?_, other⟩
    simp only [if_pos some, refuses]
    rfl
  case asks =>
    intro first rest count asked
    generalize lengthIs : (if 0x80 ≤ first then first - 0x80 else 0) = length
    have small : ¬ longest < length := by
      intro large
      cases asked.symm.trans (if_pos (lengthIs ▸ large))
    obtain rfl : count = length.toNat := by
      rw [← lengthIs]
      exact Option.some.inj (asked.symm.trans (if_neg (lengthIs ▸ small)))
    by_cases zero : length = 0
    · subst zero
      have none : (0 : UInt8).toNat ≤ rest.length := Nat.zero_le _
      simp only [ne_eq, not_true, if_false]
      have passes : (uintRule longest fits).passes (first :: rest.take (0 : UInt8).toNat) = true := converts.bytes 0
      rw [if_pos none, if_pos passes]
      have byte (payload : Bytes) (one : payload = [] ∨ payload = [first]) : ∃ value, convert payload = .ok value := by
        apply converts.takes
        cases one with
        | inl none => exact none ▸ converts.bytes 0
        | inr one => exact one ▸ bytesToUint_singleton first ▸ converts.bytes first
      obtain ⟨value, converted⟩ := byte (if first = 0x80 then [] else [first]) (by split; exacts [.inl rfl, .inr rfl])
      refine ⟨value, ?_⟩
      change (lift (convert (if first = 0x80 then [] else [first])) : TxReader α).eval rest = _
      rw [converted]
      rfl
    · simp only [if_pos zero, bounds.within length small]
      exact convert_payload (converts.takes _) (converts.refuses _)

theorem follows_scalar {what : Exception} (other : what ≠ pastEnd) : Follows pastEnd (readScalar longest what) (scalarRule longest) := by
  apply follows_peek
  case refuses =>
    intro first rest refused
    have large : longest < first - 0x80 := by
      by_contra small
      cases refused.symm.trans (if_neg small)
    refine ⟨what, ?_, other⟩
    simp only [if_pos large]
    rfl
  case asks =>
    intro first rest count asked
    have small : ¬ longest < first - 0x80 := by
      intro large
      cases asked.symm.trans (if_pos large)
    obtain rfl := Option.some.inj (asked.symm.trans (if_neg small))
    simp only [if_neg small]
    exact convert_payload (converts_256.takes _) (converts_256.refuses _)

theorem follows_to : Follows pastEnd TxBlock.readTo toRule := by
  apply follows_peek
  case refuses =>
    intro first rest refused
    have wrong : first - 0x80 ≠ 20 ∧ first - 0x80 ≠ 0 := by
      by_contra right
      cases refused.symm.trans (if_neg right)
    refine ⟨_, ?_, show "Receiver address (to) is not a 20 byte string (address)" ≠ pastEnd by decide⟩
    simp only [if_pos wrong]
    rfl
  case asks =>
    intro first rest count asked
    have right : ¬ (first - 0x80 ≠ 20 ∧ first - 0x80 ≠ 0) := by
      intro wrong
      cases asked.symm.trans (if_pos wrong)
    obtain rfl := Option.some.inj (asked.symm.trans (if_neg right))
    simp only [if_neg right, eval_take_payload]
    split
    · rw [if_pos (show toRule.passes _ = true from rfl)]
      exact ⟨_, rfl⟩
    · rfl

theorem follows_list {size : UInt64} : Follows pastEnd (readList size) (listRule size) := by
  apply follows_peek
  case refuses =>
    intro first rest refused
    have small : first < 0xf7 := by
      by_contra large
      cases refused.symm.trans (if_neg large)
    refine ⟨_, ?_, show "Tx is not a list" ≠ pastEnd by decide⟩
    rw [if_pos small]
    rfl
  case asks =>
    intro first rest count asked
    have large : ¬ first < 0xf7 := by
      intro small
      cases asked.symm.trans (if_pos small)
    obtain rfl := Option.some.inj (asked.symm.trans (if_neg large))
    rw [if_neg large]
    simp only [eval_take_payload]
    split
    case isFalse => rfl
    case isTrue enough =>
      generalize listLengthIs : rest.take (first - 0xf7).toNat = listLength
      have count : (first - 0xf7).toNat = listLength.length := by rw [← listLengthIs, List.length_take_of_le enough]
      have passes : (listRule size).passes (first :: listLength) = true ↔
          fromBigEndian64 listLength = size - UInt64.ofNat (first - 0xf7).toNat - 1 := by
        rw [count]
        have length : UInt64.ofNat (listLength.length + 1) = UInt64.ofNat listLength.length + 1 := UInt64.ofNat_add _ _
        have sizes : size - UInt64.ofNat (listLength.length + 1) = size - UInt64.ofNat listLength.length - 1 := by grind
        exact decide_eq_true_iff.trans (iff_of_eq (congrArg _ sizes))
      generalize size - UInt64.ofNat (first - 0xf7).toNat - 1 = left at passes
      split
      case isTrue same =>
        refine ⟨(), ?_⟩
        rw [passes.mp same, if_neg fun less => UInt64.lt_irrefl _ less, if_neg fun less => UInt64.lt_irrefl _ less]
        rfl
      case isFalse differ =>
        have apart := mt passes.mpr differ
        by_cases smaller : fromBigEndian64 listLength < left
        · refine ⟨_, ?_, show "Tx RLP returns smaller size than reported" ≠ pastEnd by decide⟩
          rw [if_pos smaller]
          rfl
        · have larger := UInt64.lt_of_le_of_ne (UInt64.not_lt.mp smaller) (Ne.symm apart)
          refine ⟨_, ?_, show "Tx RLP returns larger size than reported" ≠ pastEnd by decide⟩
          rw [if_neg smaller, if_pos larger]
          rfl

theorem follows_data (bounds : Bounds refuse longest) : Follows pastEnd (readData refuse) (dataRule longest) := by
  apply follows_peek
  case refuses =>
    intro first rest refused
    by_cases small : first < 0x80
    · cases refused.symm.trans (if_pos small)
    by_cases short : first < 0xb7
    · cases refused.symm.trans ((if_neg small).trans (if_pos short))
    have large : longest < first := by
      by_contra within
      cases refused.symm.trans ((if_neg small).trans ((if_neg short).trans (if_neg within)))
    obtain ⟨what, refuses, other⟩ := bounds.above first large
    refine ⟨what, ?_, other⟩
    rw [if_neg small, if_neg short, refuses]
    rfl
  case asks =>
    intro first rest count asked
    have passes (item : Bytes) : (dataRule longest).passes item = true := rfl
    simp only [passes, if_true]
    by_cases small : first < 0x80
    · obtain rfl := Option.some.inj (asked.symm.trans (if_pos small))
      rw [if_pos (Nat.zero_le _), if_pos small]
      exact ⟨_, rfl⟩
    by_cases short : first < 0xb7
    · obtain rfl := Option.some.inj (asked.symm.trans ((if_neg small).trans (if_pos short)))
      rw [if_neg small, if_pos short]
      have behind : (do
          let _ ← take pastEnd 1
          take pastEnd (first - 0x80).toNat : TxReader Bytes).eval (first :: rest) = (take pastEnd (first - 0x80).toNat).eval rest := rfl
      rw [behind, eval_take]
      split
      · exact ⟨_, rfl⟩
      · rfl
    have within : ¬ longest < first := by
      intro above
      cases asked.symm.trans ((if_neg small).trans ((if_neg short).trans (if_pos above)))
    have count := Option.some.inj (asked.symm.trans ((if_neg small).trans ((if_neg short).trans (if_neg within))))
    rw [if_neg small, if_neg short, bounds.within first within]
    simp only [eval_take_payload]
    generalize (first - 0xb7).toNat = sizeLength at count
    by_cases sized : sizeLength ≤ rest.length
    · rw [if_pos sized] at count
      subst count
      rw [if_pos sized, eval_take, List.length_drop, List.drop_drop]
      split
      case isTrue enough =>
        rw [if_pos (by omega)]
        exact ⟨_, rfl⟩
      case isFalse short =>
        rw [if_neg (by omega)]
    · rw [if_neg sized] at count
      subst count
      rw [if_neg sized, if_neg sized]

variable {lib : Secp256k1} {sha3 : Bytes → Hash} {required : UInt64}

theorem confined_items : Confined pastEnd TxBlock.readItems ((txRules 0).drop 2) := by
  apply (follows_uint (bounds_tooLarge (by decide)) converts_toUint64).bind fun chainId => ?_
  apply (follows_uint (bounds_tooLarge (by decide)) converts_throughUint64).bind fun nonce => ?_
  apply (follows_uint (bounds_tooLarge (by decide)) converts_256).bind fun maxPriorityFeePerGas => ?_
  apply (follows_uint (bounds_tooLarge (by decide)) converts_256).bind fun maxFeePerGas => ?_
  apply (follows_uint (bounds_tooLarge (by decide)) converts_throughUint64).bind fun gasLimit => ?_
  apply follows_to.bind fun receiver => ?_
  apply (follows_uint (bounds_tooLarge (by decide)) converts_256).bind fun value => ?_
  apply (follows_data bounds_data).bind fun data => ?_
  apply follows_accessList.bind fun _ => ?_
  apply follows_v.bind fun v => ?_
  apply (follows_scalar (by decide)).bind fun r => ?_
  apply (follows_scalar (by decide)).bind fun s => ?_
  exact confined_pure _

theorem confined_validatorItems : Confined pastEnd TxValidator.readItems ((validatorRules 0).drop 1) := by
  apply (follows_data bounds_never).bind fun data => ?_
  apply (follows_uint bounds_never converts_toUint64).bind fun nHeight => ?_
  apply (follows_uint (bounds_tooLarge (by decide)) converts_256).bind fun v => ?_
  apply (follows_scalar (by decide)).bind fun r => ?_
  apply (follows_scalar (by decide)).bind fun s => ?_
  exact confined_pure _

/-- The constructor reads past the end of what is readable exactly if an item that it reads is cut off there. -/
theorem tx_inside_iff {bytes past : Bytes} :
    TxBlock.ofBytes lib sha3 bytes past required ≠ .error pastEnd ↔ Complete (txRules bytes.length) (bytes ++ past) := by
  have rest : Confined pastEnd (do
      readList (UInt64.ofNat bytes.length - 1)
      let tx ← TxBlock.readItems
      lift (tx.recovered lib sha3) : TxReader TxBlock) ((txRules bytes.length).drop 1) :=
    follows_list.bind fun _ => confined_items.finish fun tx => BlockShapes.recovered_ne_pastEnd tx
  have whole := (follows_type.bind fun _ => rest) (bytes ++ past)
  apply Iff.trans (iff_of_eq ?_) whole
  unfold TxBlock.ofBytes
  generalize bytes ++ past = memory
  cases memory with
  | nil => rfl
  | cons type rest =>
    by_cases second : type = 0x02
    · subst second
      rfl
    · simp only [Action.eval_bind, eval_peek_cons, ne_eq, second, not_false_eq_true, if_true, Action.eval_throw]

theorem validator_inside_iff {bytes past : Bytes} :
    TxValidator.ofBytes lib sha3 bytes past required ≠ .error pastEnd ↔ Complete (validatorRules bytes.length) (bytes ++ past) :=
  (follows_list.bind fun _ => confined_validatorItems.finish fun tx => BlockShapes.recoveredValidator_ne_pastEnd tx) (bytes ++ past)

/-- With nothing readable behind the bytes, both constructors return or refuse them exactly if no item is cut off. -/
theorem parsers_inside_iff (bytes : Bytes) :
    (TxBlock.ofBytes lib sha3 bytes [] required ≠ .error pastEnd ↔ Complete (txRules bytes.length) bytes) ∧
      (TxValidator.ofBytes lib sha3 bytes [] required ≠ .error pastEnd ↔ Complete (validatorRules bytes.length) bytes) := by
  have tx := @tx_inside_iff lib sha3 required bytes []
  have validator := @validator_inside_iff lib sha3 required bytes []
  rw [List.append_nil] at tx validator
  exact ⟨tx, validator⟩

/-- A list that has no length, and no list at all. -/
theorem cut_off_lists_are_read_past : ∃ cut empty : Bytes, ∀ (lib : Secp256k1) (sha3 : Bytes → Hash) (required : UInt64),
    TxBlock.ofBytes lib sha3 cut [] required = .error pastEnd ∧ TxValidator.ofBytes lib sha3 empty [] required = .error pastEnd := by
  refine ⟨[0x02, 0xf8], [], fun lib sha3 required => ⟨?_, ?_⟩⟩
  · have tx := @tx_inside_iff lib sha3 required [0x02, 0xf8] []
    exact not_not.mp (mt tx.mp (by decide))
  · have validator := @validator_inside_iff lib sha3 required [] []
    exact not_not.mp (mt validator.mp id)

end OrbiterSDK.Proofs.TxBounds
