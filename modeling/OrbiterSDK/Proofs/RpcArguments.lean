import OrbiterSDK.RpcDecoding
import OrbiterSDK.Proofs.RpcTexts
import OrbiterSDK.Proofs.BlockEntries

/-! The arguments of requests: hashes, addresses, bytes and numbers, and what texts they are read from. -/

namespace OrbiterSDK.Proofs.RpcArguments
open Lib Utils Fault JsonRPC Decoding RpcTexts HexTexts EventTexts ByteStrings

/-- The bytes of an address or of a hash, with a digit more or less for none of them. -/
def Written (text : String) (bytes : Bytes) : Prop := ∃ digits, text.toList = '0' :: 'x' :: digits ∧ InAnyCase digits bytes

/-- Bytes that may lack their first digit, behind either prefix. -/
def Data (text : String) (bytes : Bytes) : Prop :=
  ∃ mark digits, Mark mark ∧ text.toList = '0' :: mark :: digits ∧ InAnyCase (padded '0' digits) bytes

theorem ends_checked {α : Type} (outcome : Except Exception α) :
    Ends (checked outcome) (fun value => outcome = .ok value) (outcome = .error Tx.pastEnd) := by
  cases outcome with
  | ok value =>
    apply (ends_ok value).congr
    · intro other
      rw [Except.ok.injEq]
      exact eq_comm
    · exact iff_of_false id (fun same => by cases same)
  | error what =>
    unfold checked
    dsimp only
    by_cases past : what = Tx.pastEnd
    · rw [if_pos past]
      apply ends_undefined.congr
      · exact fun _ => iff_of_false id (fun same => by cases same)
      · exact iff_of_true trivial (congrArg Except.error past)
    · rw [if_neg past]
      apply (ends_exception what).congr
      · exact fun _ => iff_of_false id (fun same => by cases same)
      · exact iff_of_false id fun same => past (Except.error.inj same)

/-- What a message begins with tells it from that of a read behind the end. -/
private theorem ne_pastEnd {what : Exception} {first : Char} (begins : what.toList.head? = some first) (other : first ≠ 's') : what ≠ Tx.pastEnd := by
  rintro rfl
  have same : Tx.pastEnd.toList.head? = some 's' := rfl
  exact other (Option.some.inj (begins.symm.trans same))

theorem toBytes_ne_pastEnd (text : String) : Hex.toBytes text ≠ .error Tx.pastEnd := by
  intro failed
  unfold Hex.toBytes at failed
  split at failed
  case h_1 =>
    have begins : ("toBytes: Invalid hex string: " ++ text).toList.head? = some 't' := by
      rw [String.toList_append]
      rfl
    exact ne_pastEnd begins (by decide) (Except.error.inj failed)
  case h_2 => cases failed
  case h_3 => cases failed

theorem ends_data (what : Exception) (text : String) : Ends (readData what text) (Data text) False := by
  unfold readData
  by_cases valid : Hex.isValid text.toList true = true
  · rw [if_pos valid]
    have marked : ∃ mark digits, Mark mark ∧ text.toList = '0' :: mark :: digits := by
      by_contra none
      have invalid := isValid_unmarked fun mark digits marked same => none ⟨mark, digits, marked, same⟩
      rw [invalid] at valid
      cases valid
    obtain ⟨mark, digits, marked, spelled⟩ := marked
    apply (ends_checked _).congr
    · intro bytes
      rw [toBytes_iff, withoutPrefix_marked marked spelled]
      constructor
      · exact fun read => ⟨mark, digits, marked, spelled, read⟩
      · rintro ⟨_, _, _, again, read⟩
        cases spelled.symm.trans again
        exact read
    · exact iff_of_false (toBytes_ne_pastEnd text) id
  · rw [if_neg valid]
    apply (ends_exception what).congr
    · intro bytes
      refine iff_of_false id ?_
      rintro ⟨mark, digits, marked, spelled, read⟩
      apply valid
      rw [spelled, isValid_marked marked]
      have all := hexDigits_of_inAnyCase read
      unfold padded at all
      split at all
      · exact fun c inside => all c (List.mem_cons_of_mem _ inside)
      · exact all
    · exact Iff.rfl

theorem ofDigits_iff {allowed : Char → Bool} {count : Nat} {text : String} :
    ofDigits allowed count text = true ↔ ∃ digits, text.toList = '0' :: 'x' :: digits ∧ digits.length = count ∧ ∀ c ∈ digits, allowed c = true := by
  unfold ofDigits
  split
  case h_1 digits spelled =>
    rw [Bool.and_eq_true, decide_eq_true_eq, List.all_eq_true]
    constructor
    · exact fun both => ⟨digits, spelled, both⟩
    · rintro ⟨_, again, both⟩
      cases spelled.symm.trans again
      exact both
  case h_2 other =>
    refine iff_of_false Bool.false_ne_true ?_
    rintro ⟨digits, spelled, _⟩
    exact other digits spelled

private theorem lowerDigit_ascii : ∀ code < 128, lowerDigit (Char.ofNat code) = true → (Char.ofNat code).toLower = Char.ofNat code := by decide +kernel

theorem toLower_lowerDigit {c : Char} (lower : lowerDigit c = true) : c.toLower = c := by
  by_cases small : c.toNat < 128
  · have found := lowerDigit_ascii c.toNat small
    rw [Char.ofNat_toNat] at found
    exact found lower
  · exact toLower_beyond (Nat.le_of_not_lt small)

theorem inAnyCase_lower {text : List Char} {bytes : Bytes} (lower : ∀ c ∈ text, lowerDigit c = true) : InAnyCase text bytes ↔ text = digits bytes := by
  unfold InAnyCase
  rw [List.map_congr_left fun c inside => toLower_lowerDigit (lower c inside), List.map_id']

theorem lowerDigit_digits (bytes : Bytes) : ∀ c ∈ digits bytes, lowerDigit c = true := by
  have each : ∀ number < 16, lowerDigit number.digitChar = true := by decide
  intro c inside
  rw [digits_eq] at inside
  obtain ⟨number, half, rfl⟩ := List.mem_map.mp inside
  exact each number (halves_small bytes number half)

theorem looseDigit_inAnyCase {text : List Char} {bytes : Bytes} (spelled : InAnyCase text bytes) : ∀ c ∈ text, looseDigit c = true := by
  have each : Hex.filter.all looseDigit = true := by decide +kernel
  exact fun c inside => List.all_eq_true.mp each c (hexDigits_of_inAnyCase spelled c inside)

/-- A class of values that are made of so many bytes. -/
structure Fixed {α : Type} (read : Bytes → Except Exception α) (get : α → Bytes) (count : Nat) : Prop where
  read_iff : ∀ bytes value, read bytes = .ok value ↔ bytes = get value
  inside : ∀ bytes, read bytes ≠ .error Tx.pastEnd
  length : ∀ value, 2 * (get value).length = count

theorem fixed_hash : Fixed Hash.read Hash.get 64 where
  read_iff bytes value := by
    constructor
    · intro read
      unfold Hash.read at read
      split at read
      case isTrue => cases read
      case isFalse size =>
        cases read
        exact (BlockEntries.get_hash_ofBytes (not_not.mp size)).symm
    · intro same
      rw [same]
      exact Saved.hash_read_get value
  inside bytes failed := by
    unfold Hash.read at failed
    split at failed
    case isTrue => exact absurd (Except.error.inj failed) (by decide)
    case isFalse => cases failed
  length value := congrArg (2 * ·) (Hash.get_length value)

theorem fixed_address : Fixed Address.read Address.get 40 where
  read_iff bytes value := by
    constructor
    · intro read
      unfold Address.read at read
      split at read
      case isTrue => cases read
      case isFalse size =>
        cases read
        have whole := uintToBytes_bytesToUint bytes
        have bound := bytesToUint_lt bytes
        rw [not_not.mp size] at whole bound
        have fits : bytesToUint bytes < 2 ^ 160 := bound.trans_eq (by norm_num)
        unfold Address.get Address.ofBytes
        rw [BitVec.toNat_ofNat, Nat.mod_eq_of_lt fits, whole]
    · intro same
      rw [same]
      exact Saved.address_read_get value
  inside bytes failed := by
    unfold Address.read at failed
    split at failed
    case isTrue => exact absurd (Except.error.inj failed) (by decide)
    case isFalse => cases failed
  length value := congrArg (2 * ·) (uintToBytes_length 20 _)

section Fixed
variable {α : Type} {read : Bytes → Except Exception α} {get : α → Bytes} {count : Nat} (fixed : Fixed read get count)
include fixed

theorem ends_bytes (text : String) : Ends (checked (do read (← Hex.toBytes text))) (fun value => Hex.toBytes text = .ok (get value)) False := by
  apply (ends_checked _).congr
  · intro value
    cases Hex.toBytes text with
    | error what => exact iff_of_false (fun same => by cases same) (fun same => by cases same)
    | ok bytes => exact (fixed.read_iff bytes value).trans (by rw [Except.ok.injEq])
  · refine iff_of_false ?_ id
    intro failed
    cases found : Hex.toBytes text with
    | error what =>
      rw [found] at failed
      exact toBytes_ne_pastEnd text (found.trans (congrArg Except.error (Except.error.inj failed)))
    | ok bytes =>
      rw [found] at failed
      exact fixed.inside bytes failed

theorem ends_filtered {allowed : Char → Bool} (text : String) (what : Exception)
    (right : ∀ digits value, InAnyCase digits (get value) → text.toList = '0' :: 'x' :: digits → ∀ c ∈ digits, allowed c = true) :
    Ends (if ofDigits allowed count text then checked (do read (← Hex.toBytes text)) else raise what) (fun value => Written text (get value)) False := by
  by_cases passes : ofDigits allowed count text = true
  · rw [if_pos passes]
    obtain ⟨digits, spelled, size, _⟩ := ofDigits_iff.mp passes
    apply (ends_bytes fixed text).congr (fun value => ?_) Iff.rfl
    rw [toBytes_iff, withoutPrefix_marked (.inl rfl) spelled]
    have even : padded '0' digits = digits := by
      have length := fixed.length value
      unfold padded
      rw [if_neg (by omega)]
    rw [even]
    constructor
    · exact fun read => ⟨digits, spelled, read⟩
    · rintro ⟨_, again, read⟩
      cases spelled.symm.trans again
      exact read
  · rw [if_neg passes]
    apply (ends_exception what).congr (fun value => ?_) Iff.rfl
    refine iff_of_false id ?_
    rintro ⟨digits, spelled, read⟩
    exact passes (ofDigits_iff.mpr ⟨digits, spelled, (inAnyCase_length read).trans (fixed.length value), right digits value read spelled⟩)

end Fixed

theorem ends_looseHash (what : Exception) (text : String) : Ends (readHash looseHashFilter what text) (fun hash => Written text hash.get) False :=
  ends_filtered fixed_hash text what fun _ _ spelled _ => looseDigit_inAnyCase spelled

theorem ends_address (what : Exception) (text : String) : Ends (readAddress what text) (fun address => Written text address.get) False :=
  ends_filtered fixed_address text what fun _ _ spelled _ => looseDigit_inAnyCase spelled

theorem ends_hash (what : Exception) (text : String) : Ends (readHash hashFilter what text) (fun hash => text = Hex.fromBytes hash.get) False := by
  unfold readHash
  by_cases passes : hashFilter text = true
  · rw [if_pos passes]
    obtain ⟨digits, spelled, size, lower⟩ := ofDigits_iff.mp passes
    apply (ends_bytes fixed_hash text).congr (fun hash => ?_) Iff.rfl
    have even : padded '0' digits = digits := by
      unfold padded
      rw [if_neg (by omega)]
    rw [toBytes_iff, withoutPrefix_marked (.inl rfl) spelled, even, inAnyCase_lower lower, ← String.toList_inj, spelled, toList_fromBytes,
      List.cons.injEq, List.cons.injEq, eq_self_iff_true, true_and, eq_self_iff_true, true_and]
  · rw [if_neg passes]
    apply (ends_exception what).congr (fun hash => ?_) Iff.rfl
    refine iff_of_false id ?_
    rintro rfl
    apply passes
    refine ofDigits_iff.mpr ⟨digits hash.get, toList_fromBytes _, ?_, lowerDigit_digits _⟩
    rw [digits_length, Hash.get_length]

theorem lowerDigit_toDigits (number : Nat) : ∀ c ∈ Nat.toDigits 16 number, lowerDigit c = true := by
  by_cases positive : number = 0
  · subst positive
    have zero : Nat.toDigits 16 0 = ['0'] := rfl
    rw [zero]
    intro c inside
    rw [List.mem_singleton.mp inside]
    rfl
  · rw [← stripped_unpadded positive]
    exact fun c inside => lowerDigit_digits _ c ((List.dropWhile_suffix _).subset inside)

theorem lowerDigit_small {c : Char} (lower : lowerDigit c = true) : c.toNat < 128 := by
  unfold lowerDigit at lower
  rw [Bool.or_eq_true, Bool.and_eq_true, Bool.and_eq_true, decide_eq_true_eq, decide_eq_true_eq, decide_eq_true_eq, decide_eq_true_eq] at lower
  have nine : '9'.toNat < 128 := by decide
  have last : 'f'.toNat < 128 := by decide
  rcases lower with ⟨_, small⟩ | ⟨_, small⟩
  · exact Nat.lt_of_le_of_lt small nine
  · exact Nat.lt_of_le_of_lt small last

private theorem digit_ascii : ∀ code < 128, lowerDigit (Char.ofNat code) = true →
    HexString.digit (Char.ofNat code) < 16 ∧ (HexString.digit (Char.ofNat code)).digitChar = Char.ofNat code ∧ Char.ofNat code ∈ Hex.filter := by
  decide +kernel

theorem digit_lower {c : Char} (lower : lowerDigit c = true) : HexString.digit c < 16 ∧ (HexString.digit c).digitChar = c ∧ c ∈ Hex.filter := by
  have found := digit_ascii c.toNat (lowerDigit_small lower)
  rw [Char.ofNat_toNat] at found
  exact found lower

/-- Digits that do not begin with a zero are those of their number. -/
theorem toDigits_valueOf (text : List Char) : ∀ first rest, text = first :: rest → first ≠ '0' → (∀ c ∈ text, lowerDigit c = true) →
    Nat.toDigits 16 (valueOf text) = text := by
  induction text using List.reverseRecOn with
  | nil =>
    intro first rest same
    cases same
  | append_singleton front c ih =>
    intro first rest same other lower
    obtain ⟨small, shown, _⟩ := digit_lower (lower c (List.mem_append_right front List.mem_cons_self))
    rw [valueOf_append]
    cases front with
    | nil =>
      change Nat.toDigits 16 (0 * 16 + HexString.digit c) = [c]
      rw [Nat.zero_mul, Nat.zero_add, Nat.toDigits_of_lt_base small, shown]
    | cons head front =>
      have begins : head = first := (List.cons.inj same).1
      have digits := ih head front rfl (begins ▸ other) fun c inside => lower c (List.mem_append_left _ inside)
      have positive : 0 < valueOf (head :: front) := by
        apply Nat.pos_of_ne_zero
        intro zero
        rw [zero] at digits
        have digits : ['0'] = head :: front := digits
        exact other (begins ▸ (List.cons.inj digits).1.symm)
      rw [Nat.mul_comm, ← Nat.toDigits_append_toDigits (by decide) positive small, digits, Nat.toDigits_of_lt_base small, shown]

theorem numFilter_iff {text : String} : numFilter text = true ↔ ∃ number, text = quantityText number := by
  constructor
  · intro passes
    unfold numFilter at passes
    split at passes
    case h_1 first rest spelled =>
      refine ⟨valueOf (first :: rest), ?_⟩
      rw [← String.toList_inj, spelled, toList_quantityText]
      by_cases zero : first = '0'
      · rw [if_pos zero, List.isEmpty_iff] at passes
        rw [zero, passes]
        rfl
      · rw [if_neg zero, Bool.and_eq_true, List.all_eq_true] at passes
        rw [toDigits_valueOf _ first rest rfl zero (List.forall_mem_cons.mpr passes)]
    case h_2 => cases passes
  · rintro ⟨number, rfl⟩
    by_cases positive : number = 0
    · subst positive
      decide
    · have lower := lowerDigit_toDigits number
      cases digits : Nat.toDigits 16 number with
      | nil => exact absurd digits Nat.toDigits_ne_nil
      | cons first rest =>
        rw [digits] at lower
        have spelled := toList_quantityText number
        rw [digits] at spelled
        unfold numFilter
        rw [spelled]
        change (if first = '0' then rest.isEmpty else lowerDigit first && rest.all lowerDigit) = true
        rw [if_neg (toDigits_first positive digits), Bool.and_eq_true, List.all_eq_true]
        exact List.forall_mem_cons.mp lower

theorem toBytes_lower {text : String} (lower : ∀ c ∈ Hex.withoutPrefix text, lowerDigit c = true) :
    ∃ bytes, Hex.toBytes text = .ok bytes ∧ digits bytes = padded '0' (Hex.withoutPrefix text) := by
  have numbers : (Hex.withoutPrefix text).mapM Hex.toInt = some ((Hex.withoutPrefix text).map HexString.digit) := by
    refine mapM_toInt_iff.mpr ⟨?_, ?_⟩
    · intro number inside
      obtain ⟨c, member, rfl⟩ := List.mem_map.mp inside
      exact (digit_lower (lower c member)).1
    · rw [List.map_map]
      apply List.map_congr_left
      intro c inside
      exact (toLower_lowerDigit (lower c inside)).trans (digit_lower (lower c inside)).2.1.symm
  have read := toBytes_numbers numbers
  refine ⟨_, read, ?_⟩
  have spelled := toBytes_iff.mp read
  rw [inAnyCase_lower] at spelled
  · exact spelled.symm
  · unfold padded
    split
    · exact List.forall_mem_cons.mpr ⟨by decide, lower⟩
    · exact lower

/-- The text of a number is read as the number if it has at most 32 bytes. -/
theorem toUint_quantityText (number : Nat) : toUint (quantityText number) =
    if number < 2 ^ 256 then .ok (BitVec.ofNat 256 number) else .error "Hex too big for uint conversion" := by
  have lower := lowerDigit_toDigits number
  have hex : HexDigits (Nat.toDigits 16 number) := fun c inside => (digit_lower (lower c inside)).2.2
  obtain ⟨made, built, shown⟩ := (loose_normalised (quantityText number).toList).taken _ hex (.inr ⟨'x', .inl rfl, toList_quantityText number⟩)
  have shown : made.get.toList = Nat.toDigits 16 number := by
    rw [HexString.get, String.toList_ofList]
    exact shown
  have bare := withoutPrefix_hex (shown ▸ hex)
  rw [shown] at bare
  obtain ⟨bytes, read, spelled⟩ := toBytes_lower (bare ▸ lower)
  rw [bare] at spelled
  have value : bytesToUint bytes = number := by
    rw [← valueOf_digits, spelled, valueOf_padded, valueOf_toDigits]
  have size := congrArg List.length spelled
  rw [digits_length] at size
  have fits : bytes.length ≤ 32 ↔ number < 2 ^ 256 := by
    have bound : (2 : Nat) ^ 256 = 16 ^ 64 := by norm_num
    rw [bound, ← Nat.length_toDigits_le_iff (by decide) (by decide)]
    unfold padded at size
    split at size
    · rw [List.length_cons] at size
      omega
    · omega
  unfold toUint
  rw [built]
  change made.getUint = _
  unfold HexString.getUint
  rw [read]
  change (if 32 < bytes.length then _ else _) = _
  rw [value]
  by_cases small : number < 2 ^ 256
  · have short := fits.mpr small
    rw [if_neg (by omega), if_pos small]
  · have long := mt fits.mp small
    rw [if_pos (by omega), if_neg small]

theorem toUint64_quantityText (number : Nat) : toUint64 (quantityText number) =
    if number < 2 ^ 64 then .ok (UInt64.ofNat number)
    else .error (if number < 2 ^ 256 then Uint256.outOfRange else "Hex too big for uint conversion") := by
  unfold toUint64
  rw [toUint_quantityText]
  by_cases small : number < 2 ^ 256
  · have whole : (BitVec.ofNat 256 number).toNat = number := by
      rw [BitVec.toNat_ofNat, Nat.mod_eq_of_lt small]
    rw [if_pos small, if_pos small]
    change (do pure (UInt64.ofNat (← Uint256.narrow (2 ^ 64) (BitVec.ofNat 256 number))) : Except Exception UInt64) = _
    unfold Uint256.narrow
    rw [whole]
    by_cases narrow : number < 2 ^ 64
    · rw [if_pos narrow, if_pos narrow]
      rfl
    · rw [if_neg narrow, if_neg narrow]
      rfl
  · have large : ¬ number < 2 ^ 64 := by omega
    rw [if_neg small, if_neg small, if_neg large]
    rfl

theorem ends_number {α : Type} {read : String → Except Exception α} {get : α → Nat} (what : Exception) (text : String)
    (right : ∀ number value, read (quantityText number) = .ok value ↔ number = get value)
    (inside : ∀ number, read (quantityText number) ≠ .error Tx.pastEnd) :
    Ends (if numFilter text then checked (read text) else raise what) (fun value => text = quantityText (get value)) False := by
  by_cases passes : numFilter text = true
  · rw [if_pos passes]
    obtain ⟨number, rfl⟩ := numFilter_iff.mp passes
    apply (ends_checked _).congr
    · intro value
      rw [right number value]
      exact ⟨congrArg quantityText, quantityText_injective⟩
    · exact iff_of_false (inside number) id
  · rw [if_neg passes]
    apply (ends_exception what).congr (fun value => ?_) Iff.rfl
    exact iff_of_false id fun same => passes (numFilter_iff.mpr ⟨_, same⟩)

theorem ends_uint (what : Exception) (text : String) : Ends (readUint what text) (fun value => text = quantityText value.toNat) False := by
  apply ends_number what text
  · intro number value
    rw [toUint_quantityText]
    by_cases small : number < 2 ^ 256
    · rw [if_pos small, Except.ok.injEq]
      constructor
      · rintro rfl
        rw [BitVec.toNat_ofNat, Nat.mod_eq_of_lt small]
      · rintro rfl
        rw [BitVec.ofNat_toNat, BitVec.setWidth_eq]
    · rw [if_neg small]
      refine iff_of_false (fun same => by cases same) ?_
      rintro rfl
      exact small value.isLt
  · intro number failed
    rw [toUint_quantityText] at failed
    split at failed
    · cases failed
    · exact absurd (Except.error.inj failed) (by decide)

theorem ends_uint64 (what : Exception) (text : String) : Ends (readUint64 what text) (fun value => text = quantityText value.toNat) False := by
  apply ends_number what text
  · intro number value
    rw [toUint64_quantityText]
    by_cases small : number < 2 ^ 64
    · rw [if_pos small, Except.ok.injEq]
      constructor
      · rintro rfl
        exact (UInt64.toNat_ofNat_of_lt' small).symm
      · rintro rfl
        exact UInt64.ofNat_toNat
    · rw [if_neg small]
      refine iff_of_false (fun same => by cases same) ?_
      rintro rfl
      exact small value.toNat_lt
  · intro number failed
    rw [toUint64_quantityText] at failed
    split at failed
    · cases failed
    · have named := Except.error.inj failed
      split at named
      · exact absurd named (by decide)
      · exact absurd named (by decide)

end OrbiterSDK.Proofs.RpcArguments
