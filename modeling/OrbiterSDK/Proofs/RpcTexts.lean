import OrbiterSDK.RpcEncoding
import OrbiterSDK.Proofs.HexTexts
import OrbiterSDK.Proofs.TxItems
import Mathlib.Data.List.DropRight

/-! The texts of numbers and of bytes in the answers to requests. -/

namespace OrbiterSDK.Proofs.RpcTexts
open Lib Utils JsonRPC Encoding EventTexts HexTexts ByteStrings TxItems
variable {World : Type}

def quantityText (number : Nat) : String := String.ofList ('0' :: 'x' :: Nat.toDigits 16 number)

/-- What is left of a text without the zeros in front. -/
def stripped (text : List Char) : List Char := text.dropWhile fun c => c == '0'

/-- Behind zeros a text has the digits of a number. -/
def Numeral (text : List Char) (number : Nat) : Prop := stripped text = if number = 0 then [] else Nat.toDigits 16 number

theorem digitChar_zero : ∀ digit < 16, digit.digitChar = '0' → digit = 0 := by decide

theorem stripped_append {front : List Char} (some : stripped front ≠ []) (back : List Char) :
    stripped (front ++ back) = stripped front ++ back := by
  unfold stripped at some ⊢
  rw [List.dropWhile_append, if_neg]
  rw [List.isEmpty_iff]
  exact some

theorem stripped_zeros {front : List Char} (none : stripped front = []) (back : List Char) : stripped (front ++ back) = stripped back := by
  unfold stripped at none ⊢
  rw [List.dropWhile_append, if_pos]
  rw [List.isEmpty_iff]
  exact none

theorem numeral_digit {text : List Char} {number digit : Nat} (numeral : Numeral text number) (small : digit < 16) :
    Numeral (text ++ [digit.digitChar]) (number * 16 + digit) := by
  unfold Numeral at numeral ⊢
  by_cases zero : number = 0
  · subst zero
    rw [if_pos rfl] at numeral
    rw [stripped_zeros numeral, Nat.zero_mul, Nat.zero_add]
    by_cases blank : digit = 0
    · subst blank
      rfl
    · have kept : digit.digitChar ≠ '0' := fun same => blank (digitChar_zero digit small same)
      rw [if_neg blank, Nat.toDigits_of_lt_base small]
      unfold stripped
      rw [List.dropWhile_cons_of_neg]
      simpa using kept
  · rw [if_neg zero] at numeral
    have some : stripped text ≠ [] := numeral.symm ▸ Nat.toDigits_ne_nil
    have positive : ¬ number * 16 + digit = 0 := by omega
    rw [stripped_append some, numeral, if_neg positive, Nat.mul_comm, ← Nat.toDigits_append_toDigits (by decide) (Nat.pos_of_ne_zero zero) small,
      Nat.toDigits_of_lt_base small]

theorem digits_append (front : Bytes) (byte : UInt8) :
    digits (front ++ [byte]) = digits front ++ [(byte.toNat / 16).digitChar] ++ [(byte.toNat % 16).digitChar] := by
  unfold digits
  rw [List.flatMap_append, List.append_assoc]
  rfl

theorem numeral_digits (bytes : Bytes) : Numeral (digits bytes) (bytesToUint bytes) := by
  induction bytes using List.reverseRecOn with
  | nil => rfl
  | append_singleton front byte ih =>
    obtain ⟨high, low, whole⟩ := byte_halves byte
    have number : bytesToUint (front ++ [byte]) = (bytesToUint front * 16 + byte.toNat / 16) * 16 + byte.toNat % 16 := by
      rw [bytesToUint_append, bytesToUint_singleton, List.length_singleton]
      omega
    rw [digits_append, number]
    exact numeral_digit (numeral_digit ih high) low

def valueOf (text : List Char) : Nat := text.foldl (fun value c => value * 16 + HexString.digit c) 0

theorem valueOf_stripped (text : List Char) : valueOf (stripped text) = valueOf text := by
  induction text with
  | nil => rfl
  | cons c rest ih =>
    by_cases zero : c = '0'
    · subst zero
      exact ih
    · unfold stripped
      rw [List.dropWhile_cons_of_neg]
      simpa using zero

theorem valueOf_append (front : List Char) (c : Char) : valueOf (front ++ [c]) = valueOf front * 16 + HexString.digit c := by
  unfold valueOf
  rw [List.foldl_append]
  rfl

theorem valueOf_digits (bytes : Bytes) : valueOf (digits bytes) = bytesToUint bytes := by
  induction bytes using List.reverseRecOn with
  | nil => rfl
  | append_singleton front byte ih =>
    obtain ⟨high, low, whole⟩ := byte_halves byte
    rw [digits_append, valueOf_append, valueOf_append, ih, digit_digitChar high, digit_digitChar low, bytesToUint_append, bytesToUint_singleton,
      List.length_singleton]
    omega

/-- The digits of a number, which are those of its bytes without zeros in front. -/
theorem stripped_unpadded {number : Nat} (positive : number ≠ 0) : stripped (digits (unpadded number)) = Nat.toDigits 16 number := by
  have numeral := numeral_digits (unpadded number)
  unfold Numeral at numeral
  rw [bytesToUint_unpadded, if_neg positive] at numeral
  exact numeral

theorem valueOf_toDigits (number : Nat) : valueOf (Nat.toDigits 16 number) = number := by
  by_cases positive : number = 0
  · subst positive
    rfl
  · rw [← stripped_unpadded positive, valueOf_stripped, valueOf_digits, bytesToUint_unpadded]

theorem toList_quantityText (number : Nat) : (quantityText number).toList = '0' :: 'x' :: Nat.toDigits 16 number := String.toList_ofList

theorem quantityText_injective {left right : Nat} (same : quantityText left = quantityText right) : left = right := by
  have texts := congrArg String.toList same
  rw [toList_quantityText, toList_quantityText] at texts
  rw [← valueOf_toDigits left, ← valueOf_toDigits right, (List.cons.inj (List.cons.inj texts).2).2]

theorem valueOf_padded (text : List Char) : valueOf (padded '0' text) = valueOf text := by
  unfold padded
  split
  · rfl
  · rfl

theorem stripped_length (text : List Char) : (stripped text).length ≤ text.length := (List.dropWhile_suffix _).length_le

theorem toDigits_first {number : Nat} (positive : number ≠ 0) {first : Char} {rest : List Char} (digits : Nat.toDigits 16 number = first :: rest) :
    first ≠ '0' := by
  rintro rfl
  have kept : stripped (Nat.toDigits 16 number) = Nat.toDigits 16 number := by
    rw [← stripped_unpadded positive]
    exact List.dropWhile_idempotent _ _
  rw [digits] at kept
  have size := stripped_length rest
  have same : stripped rest = '0' :: rest := kept
  rw [same, List.length_cons] at size
  omega

/-- No bytes, or a first one of less than two digits. -/
def Shortened (bytes : Bytes) : Prop := ∀ first rest, bytes = first :: rest → first.toNat < 16

/-- The text of bytes is their digits without zeros in front, and one zero if there are no bytes. -/
def bytesText (bytes : Bytes) : String :=
  if bytes = [] then "0x0" else String.ofList ('0' :: 'x' :: stripped (digits bytes))

theorem bytesForRPC_eq (bytes : Bytes) : bytesForRPC bytes = .ok (.string (bytesText bytes)) := by
  obtain ⟨made, built, shown, _⟩ := fromBytes_ok bytes true
  have shown : made.hex = '0' :: 'x' :: digits bytes := shown
  have text : made.forRPC = bytesText bytes := by
    unfold HexString.forRPC
    rw [shown]
    have front : ¬ (Hex.charAt ('0' :: 'x' :: digits bytes) 0 ≠ '0' ∧ Hex.charAt ('0' :: 'x' :: digits bytes) 1 ≠ 'x') := fun both => both.1 rfl
    rw [if_neg front]
    unfold bytesText
    cases bytes with
    | nil => rfl
    | cons byte rest =>
      rw [if_neg (List.cons_ne_nil _ _), if_neg]
      · rfl
      · intro same
        cases (List.cons.inj (List.cons.inj same).2).2
  unfold bytesForRPC
  rw [built]
  exact congrArg (fun text => Except.ok (Value.string text)) text

theorem uintForRPC_eq (number : Nat) : uintForRPC number = .ok (.string (quantityText number)) := by
  unfold uintForRPC
  rw [bytesForRPC_eq]
  have numeral := numeral_digits (unpadded number)
  unfold Numeral at numeral
  rw [bytesToUint_unpadded] at numeral
  unfold bytesText quantityText
  by_cases zero : number = 0
  · subst zero
    rw [if_pos (by decide +kernel)]
    rfl
  · have some : unpadded number ≠ [] := by
      intro none
      have value := bytesToUint_unpadded number
      rw [none] at value
      exact zero value.symm
    rw [if_neg some, numeral, if_neg zero]

inductive Meaning where
  | quantity (number : Nat)
  | data (bytes : Bytes)

/-- The shortest digits of a number, and two digits for each byte, from which the bytes come back. -/
def Meaning.Written : Meaning → Value → Prop
  | .quantity number, value => value = .string (quantityText number)
  | .data bytes, value => ∃ text, value = .string (String.ofList ('0' :: 'x' :: text)) ∧ text.length = 2 * bytes.length ∧
    Hex.toBytes (String.ofList ('0' :: 'x' :: text)) = .ok bytes

def Meaning.text : Meaning → String
  | .quantity number => quantityText number
  | .data bytes => bytesText bytes

inductive Step where
  | member (name : String)
  | element (index : Nat)
  deriving DecidableEq

def step : Value → Step → Option Value
  | .object members, .member name => members.lookup name
  | .array values, .element index => values[index]?
  | _, _ => none

def follow (value : Value) : List Step → Option Value
  | [] => some value
  | next :: rest => (step value next).bind fun inner => follow inner rest

structure Field where
  path : List Step
  meaning : Meaning

def Field.Written (value : Value) (field : Field) : Prop :=
  ∃ written, follow value field.path = some written ∧ field.meaning.Written written

/-- The fields of an object that is found somewhere. -/
def fieldsAt (path : List Step) (fields : List (String × Meaning)) : List Field :=
  fields.map fun field => ⟨path ++ [.member field.1], field.2⟩

def callFields (tx : TxBlock) : List (String × Meaning) := [
  ("gas", .quantity tx.gasLimit.toNat), ("gasPrice", .quantity tx.maxFeePerGas.toNat), ("input", .data tx.data),
  ("nonce", .quantity tx.nonce.toNat), ("value", .quantity tx.value.toNat), ("v", .quantity tx.v.toNat),
  ("r", .quantity tx.r.toNat), ("s", .quantity tx.s.toNat)]

def blockTxFields (tx : TxBlock) : List (String × Meaning) :=
  ("type", .quantity 0) :: ("chainId", .quantity tx.chainId.toNat) :: callFields tx

def locationFields (location : TxLocation) : List (String × Meaning) := [
  ("blockNumber", .quantity location.blockHeight.toNat), ("transactionIndex", .quantity location.blockIndex.toNat)]

def gasFields (tx : TxBlock) : List (String × Meaning) := [
  ("cumulativeGasUsed", .quantity tx.gasLimit.toNat), ("effectiveGasUsed", .quantity tx.gasLimit.toNat),
  ("effectiveGasPrice", .quantity tx.maxFeePerGas.toNat), ("gasUsed", .quantity tx.gasLimit.toNat), ("status", .quantity 1)]

def headerFields (block : Block) : List (String × Meaning) := [
  ("number", .quantity block.nHeight.toNat), ("timestamp", .quantity block.timestamp.toNat),
  ("size", .quantity block.serializeBlock.length), ("gasLimit", .quantity (2 ^ 64 - 1)), ("gasUsed", .quantity 1000000000),
  ("difficulty", .quantity 1), ("totalDifficulty", .quantity 1), ("baseFeePerGas", .quantity 2500000000)]

/-- What an answer is about. -/
inductive Subject where
  | block (block : Block) (includeTransactions : Bool)
  | pending (tx : TxBlock)
  | mined (tx : TxBlock) (location : TxLocation)
  | receipt (tx : TxBlock) (location : TxLocation)
  | number (number : Nat)
  | code (bytes : Bytes)
  | output (bytes : Bytes)

def txPath (index : Nat) : List Step := [.member "result", .member "transactions", .element index]

def Subject.fields : Subject → List Field
  | .block shown includeTransactions => fieldsAt [.member "result"] (headerFields shown) ++
    if includeTransactions then shown.txs.zipIdx.flatMap fun entry => fieldsAt (txPath entry.2) (blockTxFields entry.1) else []
  | .pending tx => fieldsAt [.member "result"] (callFields tx)
  | .mined tx location => fieldsAt [.member "result"] (locationFields location ++ callFields tx)
  | .receipt tx location => fieldsAt [.member "result"] (("type", .quantity 0) :: locationFields location ++ gasFields tx)
  | .number value => [⟨[.member "result"], .quantity value⟩]
  | .code bytes => [⟨[.member "result"], .data bytes⟩]
  | .output bytes => [⟨[.member "result"], .data bytes⟩]

/-- The type of a receipt, and data of which digits are lost. -/
def Misspelled : Subject → Field → Prop
  | .receipt _ _, field => field.path = [.member "result", .member "type"]
  | .output _, _ => False
  | _, field => ∃ bytes, field.meaning = .data bytes ∧ Shortened bytes

def Answered (subject : Subject) (value : Value) : Prop := ∀ field ∈ subject.fields, (field.Written value ↔ ¬ Misspelled subject field)

theorem bytesText_kept {bytes : Bytes} (whole : ¬ Shortened bytes) : bytesText bytes = String.ofList ('0' :: 'x' :: digits bytes) := by
  unfold Shortened at whole
  push Not at whole
  obtain ⟨first, rest, rfl, large⟩ := whole
  obtain ⟨high, _, _⟩ := byte_halves first
  have kept : (first.toNat / 16).digitChar ≠ '0' := by
    intro same
    have zero := digitChar_zero _ high same
    omega
  have text : stripped (digits (first :: rest)) = digits (first :: rest) := by
    have spelled : digits (first :: rest) = (first.toNat / 16).digitChar :: (first.toNat % 16).digitChar :: digits rest := rfl
    unfold stripped
    rw [spelled, List.dropWhile_cons_of_neg]
    simpa using kept
  unfold bytesText
  rw [if_neg (List.cons_ne_nil _ _), text]

theorem bytesText_lost {bytes : Bytes} {text : List Char} (short : Shortened bytes)
    (shown : bytesText bytes = String.ofList ('0' :: 'x' :: text)) : text.length ≠ 2 * bytes.length := by
  unfold bytesText at shown
  cases bytes with
  | nil =>
    have same : '0' :: 'x' :: ['0'] = '0' :: 'x' :: text := String.ofList_inj.mp shown
    cases same
    decide
  | cons first rest =>
    have zero : first.toNat / 16 = 0 := Nat.div_eq_of_lt (short first rest rfl)
    have spelled : digits (first :: rest) = '0' :: (first.toNat % 16).digitChar :: digits rest := by
      unfold digits
      rw [List.flatMap_cons, zero]
      rfl
    rw [if_neg (List.cons_ne_nil _ _), spelled] at shown
    have same := (List.cons.inj (List.cons.inj (String.ofList_inj.mp shown)).2).2
    have fewer := stripped_length ((first.toNat % 16).digitChar :: digits rest)
    have dropped : stripped ('0' :: (first.toNat % 16).digitChar :: digits rest) = stripped ((first.toNat % 16).digitChar :: digits rest) := rfl
    rw [List.length_cons, digits_length, ← dropped, same] at fewer
    rw [List.length_cons]
    omega

theorem written_kept {bytes : Bytes} : (Meaning.data bytes).Written (.string (String.ofList ('0' :: 'x' :: digits bytes))) :=
  ⟨digits bytes, rfl, digits_length bytes, toBytes_spelled bytes true⟩

theorem written_iff (meaning : Meaning) : meaning.Written (.string meaning.text) ↔ ¬ ∃ bytes, meaning = .data bytes ∧ Shortened bytes := by
  cases meaning with
  | quantity number =>
    refine iff_of_true rfl ?_
    rintro ⟨bytes, same, _⟩
    cases same
  | data bytes =>
    constructor
    · rintro ⟨text, shown, size, _⟩ ⟨other, same, short⟩
      cases same
      exact bytesText_lost short (Value.string.inj shown) size
    · intro right
      have whole : ¬ Shortened bytes := fun short => right ⟨bytes, rfl, short⟩
      have kept : (Meaning.data bytes).text = String.ofList ('0' :: 'x' :: digits bytes) := bytesText_kept whole
      rw [kept]
      exact written_kept

theorem quantityText_zero : quantityText 0 = "0x0" := by decide

theorem quantityText_one : quantityText 1 = "0x1" := by decide

theorem quantityText_price : quantityText 2500000000 = "0x9502f900" := by decide

def Members (value : Value) (fields : List (String × Meaning)) : Prop := ∀ field ∈ fields, step value (.member field.1) = some (.string field.2.text)

theorem blockTx_ok (tx : TxBlock) : ∃ value, blockTx tx = .ok value ∧ Members value (blockTxFields tx) := by
  constructor
  constructor
  · unfold blockTx
    simp only [uintForRPC_eq, bytesForRPC_eq]
    rfl
  · unfold Members blockTxFields callFields
    simp only [List.forall_mem_cons, Meaning.text, quantityText_zero]
    refine ⟨rfl, rfl, rfl, rfl, rfl, rfl, rfl, rfl, rfl, rfl, ?_⟩
    simp

theorem pendingTx_ok (tx : TxBlock) : ∃ value, pendingTx tx = .ok value ∧ Members value (callFields tx) := by
  constructor
  constructor
  · unfold pendingTx
    simp only [uintForRPC_eq, bytesForRPC_eq]
    rfl
  · unfold Members callFields
    simp only [List.forall_mem_cons, Meaning.text]
    refine ⟨rfl, rfl, rfl, rfl, rfl, rfl, rfl, rfl, ?_⟩
    simp

theorem minedTx_ok (tx : TxBlock) (location : TxLocation) :
    ∃ value, minedTx tx location = .ok value ∧ Members value (locationFields location ++ callFields tx) := by
  constructor
  constructor
  · unfold minedTx
    simp only [uintForRPC_eq, bytesForRPC_eq]
    rfl
  · unfold Members locationFields callFields
    simp only [List.cons_append, List.nil_append, List.forall_mem_cons, Meaning.text]
    refine ⟨rfl, rfl, rfl, rfl, rfl, rfl, rfl, rfl, rfl, rfl, ?_⟩
    simp

theorem receipt_ok (services : Services World) (tx : TxBlock) (location : TxLocation) (contractAddress : Address) (logs : List Event) :
    ∃ value, receipt services tx location contractAddress logs = .ok value ∧ Members value (locationFields location ++ gasFields tx) ∧
      step value (.member "type") = some (.string "0x00") := by
  constructor
  constructor
  · unfold receipt
    simp only [uintForRPC_eq]
    rfl
  · constructor
    · unfold Members locationFields gasFields
      simp only [List.cons_append, List.nil_append, List.forall_mem_cons, Meaning.text, quantityText_one]
      refine ⟨rfl, rfl, rfl, rfl, rfl, rfl, rfl, ?_⟩
      simp
    · rfl

/-- The transactions of a block, in the same order. -/
def TxsShown (txs : List TxBlock) (value : Value) : Prop := ∃ values, step value (.member "transactions") = some (.array values) ∧
  ∀ (index : Nat) (tx : TxBlock), txs[index]? = some tx → ∃ inner, values[index]? = some inner ∧ Members inner (blockTxFields tx)

theorem blockResult_ok (block : Block) (includeTransactions : Bool) : ∃ value, blockResult block includeTransactions = .ok value ∧
    Members value (headerFields block) ∧ (includeTransactions = true → TxsShown block.txs value) := by
  choose inner each shown using blockTx_ok
  have all : (block.txs.mapM fun tx => if includeTransactions then blockTx tx else pure (hex tx.hash.get)) =
      .ok (block.txs.map fun tx => if includeTransactions then inner tx else hex tx.hash.get) := by
    apply mapM_ok_map
    intro tx _
    cases includeTransactions with
    | false => rfl
    | true => exact each tx
  constructor
  constructor
  · unfold blockResult
    rw [all]
    simp only [uintForRPC_eq]
    rfl
  · constructor
    · unfold Members headerFields
      simp only [List.forall_mem_cons, Meaning.text, quantityText_one, quantityText_price]
      refine ⟨rfl, rfl, rfl, rfl, rfl, rfl, rfl, rfl, ?_⟩
      simp
    · intro full
      refine ⟨_, rfl, ?_⟩
      intro index tx found
      refine ⟨inner tx, ?_, shown tx⟩
      rw [List.getElem?_map, found, full]
      rfl

theorem follow_append (value : Value) (path rest : List Step) : follow value (path ++ rest) = (follow value path).bind fun inner => follow inner rest := by
  induction path generalizing value with
  | nil => rfl
  | cons next path ih =>
    change (step value next).bind (fun inner => follow inner (path ++ rest)) = ((step value next).bind fun inner => follow inner path).bind _
    cases step value next with
    | none => rfl
    | some inner => exact ih inner

/-- Wherever a text is found, it decides whether the field is written well. -/
theorem written_at {value : Value} {field : Field} {text : String} (found : follow value field.path = some (.string text)) :
    field.Written value ↔ field.meaning.Written (.string text) := by
  constructor
  · rintro ⟨written, there, well⟩
    cases found.symm.trans there
    exact well
  · exact fun well => ⟨_, found, well⟩

/-- Data of which digits are lost. -/
def Loses (field : Field) : Prop := ∃ bytes, field.meaning = .data bytes ∧ Shortened bytes

theorem members_written {value inner : Value} {path : List Step} {fields : List (String × Meaning)} (found : follow value path = some inner)
    (members : Members inner fields) : ∀ field ∈ fieldsAt path fields, (field.Written value ↔ ¬ Loses field) := by
  intro field member
  obtain ⟨pair, listed, rfl⟩ := List.mem_map.mp member
  have there : follow value (path ++ [.member pair.1]) = some (.string pair.2.text) := by
    rw [follow_append, found]
    change (step inner (.member pair.1)).bind (fun last => follow last []) = _
    rw [members pair listed]
    rfl
  exact (written_at there).trans (written_iff pair.2)

theorem answered_block (block : Block) (includeTransactions : Bool) :
    Answered (.block block includeTransactions) (getBlockJson (some block) includeTransactions) := by
  obtain ⟨result, done, header, txs⟩ := blockResult_ok block includeTransactions
  have shown : getBlockJson (some block) includeTransactions = .object [("jsonrpc", .float 2), ("result", result)] := by
    unfold getBlockJson
    dsimp only
    rw [done]
  have inside : follow (getBlockJson (some block) includeTransactions) [.member "result"] = some result := by
    rw [shown]
    rfl
  intro field member
  rcases List.mem_append.mp member with upper | lower
  · exact members_written inside header field upper
  · cases includeTransactions with
    | false => cases lower
    | true =>
      obtain ⟨⟨tx, index⟩, listed, inner⟩ := List.mem_flatMap.mp lower
      obtain ⟨values, array, each⟩ := txs rfl
      obtain ⟨value, there, members⟩ := each index tx (List.mem_zipIdx_iff_getElem?.mp listed)
      have found : follow (getBlockJson (some block) true) (txPath index) = some value := by
        change follow _ ([.member "result"] ++ [.member "transactions", .element index]) = _
        rw [follow_append, inside]
        change (step result (.member "transactions")).bind (fun list => (step list (.element index)).bind fun last => follow last []) = _
        rw [array]
        change (values[index]?).bind (fun last => follow last []) = _
        rw [there]
        rfl
      exact members_written found members field inner

theorem answered_pending (tx : TxBlock) : ∃ value, pendingTx tx = .ok value ∧ Answered (.pending tx) (answer value) := by
  obtain ⟨value, done, members⟩ := pendingTx_ok tx
  exact ⟨value, done, members_written rfl members⟩

theorem answered_mined (tx : TxBlock) (location : TxLocation) :
    ∃ value, minedTx tx location = .ok value ∧ Answered (.mined tx location) (answer value) := by
  obtain ⟨value, done, members⟩ := minedTx_ok tx location
  exact ⟨value, done, members_written rfl members⟩

/-- The type is not written like that of a transaction in a block. -/
theorem answered_receipt (services : Services World) (tx : TxBlock) (location : TxLocation) (contractAddress : Address) (logs : List Event) :
    ∃ value, receipt services tx location contractAddress logs = .ok value ∧ Answered (.receipt tx location) (answer value) := by
  obtain ⟨value, done, members, twice⟩ := receipt_ok services tx location contractAddress logs
  refine ⟨value, done, ?_⟩
  intro field member
  rcases List.mem_cons.mp member with type | other
  · subst type
    have found : follow (answer value) [.member "result", .member "type"] = some (.string "0x00") := by
      change (step value (.member "type")).bind (fun last => follow last []) = _
      rw [twice]
      rfl
    refine iff_of_false ?_ (not_not.mpr rfl)
    intro written
    have same : Value.string "0x00" = .string (quantityText 0) := (written_at found).mp written
    rw [quantityText_zero] at same
    exact absurd (Value.string.inj same) (by decide)
  · obtain ⟨pair, listed, rfl⟩ := List.mem_map.mp other
    have quantities : ∀ pair ∈ locationFields location ++ gasFields tx, pair.1 ≠ "type" ∧ ∃ number, pair.2 = .quantity number := by
      unfold locationFields gasFields
      simp
    obtain ⟨named, number, quantity⟩ := quantities pair listed
    have inside : follow (answer value) [.member "result"] = some value := rfl
    have right : ¬ Misspelled (.receipt tx location) ⟨[.member "result"] ++ [.member pair.1], pair.2⟩ := by
      intro same
      have last := (List.cons.inj (List.cons.inj same).2).1
      exact named (Step.member.inj last)
    have kept : ¬ Loses ⟨[.member "result"] ++ [.member pair.1], pair.2⟩ := by
      rintro ⟨bytes, data, _⟩
      exact Meaning.noConfusion (quantity.symm.trans data)
    exact iff_of_true ((members_written inside members _ other).mpr kept) right

theorem answered_number {number : Nat} {value : Value} (found : follow value [.member "result"] = some (.string (quantityText number))) :
    Answered (.number number) value := by
  intro field member
  cases List.mem_singleton.mp member
  exact (written_at found).trans (written_iff (.quantity number))

theorem answered_code (bytes : Bytes) : Answered (.code bytes) (answer (.string (bytesText bytes))) := by
  intro field member
  cases List.mem_singleton.mp member
  exact (written_at rfl).trans (written_iff (.data bytes))

theorem answered_output (bytes : Bytes) : Answered (.output bytes) (answer (hex bytes)) := by
  intro field member
  cases List.mem_singleton.mp member
  have text : Hex.fromBytes bytes = String.ofList ('0' :: 'x' :: digits bytes) := by
    rw [← String.toList_inj, toList_fromBytes, String.toList_ofList]
  have shown : hex bytes = .string (String.ofList ('0' :: 'x' :: digits bytes)) := congrArg Value.string text
  refine iff_of_true ?_ not_false
  rw [shown]
  exact (written_at rfl).mpr written_kept

end OrbiterSDK.Proofs.RpcTexts
