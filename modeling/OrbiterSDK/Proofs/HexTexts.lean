import OrbiterSDK.HexString
import OrbiterSDK.Proofs.EventTexts

/-! What the constructors of hexadecimal strings take, and bytes that go through them. -/

namespace OrbiterSDK.Proofs.HexTexts
open Hex HexString EventTexts

def HexDigits (text : List Char) : Prop := ∀ c ∈ text, c ∈ filter

/-- The second character of a prefix. -/
def Mark (c : Char) : Prop := c = 'x' ∨ c = 'X'

/-- The digits, with a prefix or without one. -/
def Spells (value digits : List Char) : Prop := value = digits ∨ ∃ mark, Mark mark ∧ value = '0' :: mark :: digits

def spelled (strict : Bool) (digits : List Char) : List Char := if strict then '0' :: 'x' :: digits else digits

variable {text : List Char} {strict : Bool}

theorem isNone_findFirstNotOf {off : Nat} : (findFirstNotOf text off).isNone = true ↔ HexDigits (text.drop off) := by
  unfold findFirstNotOf HexDigits
  rw [Option.isNone_map, Option.isNone_iff_eq_none, List.findIdx?_eq_none_iff]
  simp only [Bool.not_eq_false', List.contains_iff_mem]

theorem isValid_loose : isValid text false = true ↔ HexDigits text := by
  unfold isValid
  rw [if_neg (by simp)]
  exact isNone_findFirstNotOf

theorem isPrefixOf_pair {first second : Char} :
    [first, second].isPrefixOf text = true ↔ ∃ rest, text = first :: second :: rest := by
  rw [List.isPrefixOf_iff_prefix]
  constructor
  · rintro ⟨rest, same⟩
    exact ⟨rest, same.symm⟩
  · rintro ⟨rest, same⟩
    exact ⟨rest, same.symm⟩

theorem isValid_marked {mark : Char} {digits : List Char} (marked : Mark mark) : isValid ('0' :: mark :: digits) true = true ↔ HexDigits digits := by
  have front : (true && !"0x".toList.isPrefixOf ('0' :: mark :: digits) && !"0X".toList.isPrefixOf ('0' :: mark :: digits)) = false := by
    rcases marked with rfl | rfl
    · rfl
    · rfl
  unfold isValid
  rw [if_neg (ne_true_of_eq_false front)]
  exact isNone_findFirstNotOf

theorem isValid_unmarked (unmarked : ∀ mark digits, Mark mark → text ≠ '0' :: mark :: digits) : isValid text true = false := by
  have lower : "0x".toList.isPrefixOf text = false := by
    apply Bool.eq_false_of_not_eq_true
    intro front
    obtain ⟨rest, same⟩ := isPrefixOf_pair.mp front
    exact unmarked 'x' rest (.inl rfl) same
  have upper : "0X".toList.isPrefixOf text = false := by
    apply Bool.eq_false_of_not_eq_true
    intro front
    obtain ⟨rest, same⟩ := isPrefixOf_pair.mp front
    exact unmarked 'X' rest (.inr rfl) same
  unfold isValid
  rw [lower, upper]
  rfl

theorem checked_ok (valid : isValid text strict = true) :
    ∃ made, checked text strict = .ok made ∧ made.hex = text ∧ made.strict = strict := by
  refine ⟨⟨text, strict, valid⟩, ?_, rfl, rfl⟩
  unfold checked
  rw [dif_pos valid]

theorem checked_error (invalid : ¬ isValid text strict = true) : ∃ what, checked text strict = .error what := by
  refine ⟨"Invalid Hex string at constructor", ?_⟩
  unfold checked
  rw [dif_neg invalid]

theorem checked_eq_ok {made : HexString} (done : checked text strict = .ok made) :
    made.hex = text ∧ made.strict = strict ∧ isValid text strict = true := by
  unfold checked at done
  split at done
  case isTrue valid =>
    cases done
    exact ⟨rfl, rfl, valid⟩
  case isFalse => cases done

theorem mark_not_digit {mark : Char} {digits : List Char} (marked : Mark mark) : ¬ HexDigits ('0' :: mark :: digits) := by
  intro all
  have inside := all mark (by simp)
  rcases marked with rfl | rfl
  · exact absurd inside (by decide)
  · exact absurd inside (by decide)

theorem adjusted_marked {mark : Char} {digits : List Char} (marked : Mark mark) : adjusted ('0' :: mark :: digits) false = digits := by
  have taken : charAt ('0' :: mark :: digits) 0 = '0' ∧ Mark (charAt ('0' :: mark :: digits) 1) := ⟨rfl, marked⟩
  exact (if_neg Bool.false_ne_true).trans (if_pos taken)

theorem adjusted_unmarked (unmarked : ∀ mark digits, Mark mark → text ≠ '0' :: mark :: digits) : adjusted text false = text := by
  refine (if_neg Bool.false_ne_true).trans (if_neg ?_)
  rintro ⟨zero, marked⟩
  cases text with
  | nil => exact absurd zero (by decide)
  | cons first rest =>
    cases rest with
    | nil =>
      have blank : ¬ (Char.ofNat 0 = 'x' ∨ Char.ofNat 0 = 'X') := by decide
      exact absurd marked blank
    | cons second digits =>
      have zero : first = '0' := zero
      exact unmarked second digits marked (congrArg (· :: second :: digits) zero)

theorem adjusted_zero (rest : List Char) : adjusted ('0' :: rest) true = '0' :: rest :=
  (if_pos rfl).trans (if_neg fun both => both.1 rfl)

theorem adjusted_nonzero (other : ∀ rest, text ≠ '0' :: rest) : adjusted text true = '0' :: 'x' :: text := by
  refine (if_pos rfl).trans (if_pos ⟨?_, ?_⟩)
  · cases text with
    | nil => decide
    | cons first rest => exact fun zero => other rest (congrArg (· :: rest) zero)
  · by_cases lower : charAt text 1 = 'x'
    · right
      rw [lower]
      decide
    · exact .inl lower

/-- Digits are taken with a prefix and without one, and kept with a prefix in the strict mode only. Nothing else is taken. -/
structure Normalised (text : List Char) (strict : Bool) : Prop where
  taken : ∀ digits, HexDigits digits → Spells text digits → ∃ made, create text strict = .ok made ∧ made.hex = spelled strict digits
  refused : (∀ digits, HexDigits digits → ¬ Spells text digits) → ∃ what, create text strict = .error what

/-- Digits that begin with a zero, and a prefix in capitals. -/
def Mistaken (text : List Char) : Prop :=
  (∃ rest, text = '0' :: rest ∧ HexDigits text) ∨ ∃ digits, HexDigits digits ∧ text = '0' :: 'X' :: digits

theorem spells_marked {mark : Char} {digits other : List Char} (marked : Mark mark) (all : HexDigits other)
    (spells : Spells ('0' :: mark :: digits) other) : other = digits := by
  rcases spells with same | ⟨another, _, same⟩
  · subst same
    exact absurd all (mark_not_digit marked)
  · cases same
    rfl

theorem spells_unmarked {text digits : List Char} (unmarked : ∀ mark digits, Mark mark → text ≠ '0' :: mark :: digits)
    (spells : Spells text digits) : text = digits := by
  rcases spells with same | ⟨mark, marked, same⟩
  · exact same
  · exact absurd same (unmarked mark digits marked)

/-- What is checked may be anything that is spelled as it should be. -/
theorem normalised_of {text shown : List Char} (made : create text strict = checked shown strict)
    (spelling : ∀ digits, HexDigits digits → Spells text digits → shown = spelled strict digits)
    (valid : isValid shown strict = true ↔ ∃ digits, HexDigits digits ∧ Spells text digits) : Normalised text strict := by
  constructor
  · intro digits all spells
    obtain ⟨value, done, same, _⟩ := checked_ok (valid.mpr ⟨digits, all, spells⟩)
    exact ⟨value, made.trans done, same.trans (spelling digits all spells)⟩
  · intro none
    have invalid : ¬ isValid shown strict = true := by
      intro holds
      obtain ⟨digits, all, spells⟩ := valid.mp holds
      exact none digits all spells
    obtain ⟨what, failed⟩ := checked_error invalid
    exact ⟨what, made.trans failed⟩

theorem loose_normalised (text : List Char) : Normalised text false := by
  by_cases unmarked : ∀ mark digits, Mark mark → text ≠ '0' :: mark :: digits
  · apply normalised_of (congrArg (checked · false) (adjusted_unmarked unmarked))
    · exact fun digits _ spells => spells_unmarked unmarked spells
    · rw [isValid_loose]
      constructor
      · exact fun all => ⟨text, all, .inl rfl⟩
      · rintro ⟨digits, all, spells⟩
        exact spells_unmarked unmarked spells ▸ all
  · simp only [not_forall, not_not] at unmarked
    obtain ⟨mark, digits, marked, rfl⟩ := unmarked
    apply normalised_of (congrArg (checked · false) (adjusted_marked marked))
    · exact fun other all spells => (spells_marked marked all spells).symm
    · rw [isValid_loose]
      constructor
      · exact fun all => ⟨digits, all, .inr ⟨mark, marked, rfl⟩⟩
      · rintro ⟨other, all, spells⟩
        exact spells_marked marked all spells ▸ all

theorem strict_marked_iff {mark : Char} {digits : List Char} (marked : Mark mark) :
    Normalised ('0' :: mark :: digits) true ↔ ¬ Mistaken ('0' :: mark :: digits) := by
  have made : create ('0' :: mark :: digits) true = checked ('0' :: mark :: digits) true := congrArg (checked · true) (adjusted_zero _)
  constructor
  · rintro normalised (⟨_, _, all⟩ | ⟨other, all, same⟩)
    · exact mark_not_digit marked all
    · cases same
      obtain ⟨value, done, shown⟩ := normalised.taken digits all (.inr ⟨'X', marked, rfl⟩)
      have kept := (checked_eq_ok (made.symm.trans done)).1
      cases kept.symm.trans shown
  · intro right
    apply normalised_of made
    · intro other all spells
      cases spells_marked marked all spells
      rcases marked with rfl | rfl
      · rfl
      · exact absurd (.inr ⟨digits, all, rfl⟩) right
    · rw [isValid_marked marked]
      constructor
      · exact fun all => ⟨digits, all, .inr ⟨mark, marked, rfl⟩⟩
      · rintro ⟨other, all, spells⟩
        exact spells_marked marked all spells ▸ all

theorem strict_zero_iff {rest : List Char} (unmarked : ∀ mark digits, Mark mark → '0' :: rest ≠ '0' :: mark :: digits) :
    Normalised ('0' :: rest) true ↔ ¬ Mistaken ('0' :: rest) := by
  have made : create ('0' :: rest) true = checked ('0' :: rest) true := congrArg (checked · true) (adjusted_zero rest)
  have invalid : ¬ isValid ('0' :: rest) true = true := ne_true_of_eq_false (isValid_unmarked unmarked)
  constructor
  · rintro normalised (⟨_, _, all⟩ | ⟨digits, _, same⟩)
    · obtain ⟨value, done, _⟩ := normalised.taken _ all (.inl rfl)
      exact invalid (checked_eq_ok (made.symm.trans done)).2.2
    · exact unmarked 'X' digits (.inr rfl) same
  · intro right
    apply normalised_of made
    · intro digits all spells
      have same := spells_unmarked unmarked spells
      exact absurd (.inl ⟨rest, rfl, same ▸ all⟩) right
    · refine iff_of_false invalid ?_
      rintro ⟨digits, all, spells⟩
      have same := spells_unmarked unmarked spells
      exact right (.inl ⟨rest, rfl, same ▸ all⟩)

theorem strict_normalised_iff (text : List Char) : Normalised text true ↔ ¬ Mistaken text := by
  by_cases unmarked : ∀ mark digits, Mark mark → text ≠ '0' :: mark :: digits
  · by_cases zero : ∃ rest, text = '0' :: rest
    · obtain ⟨rest, rfl⟩ := zero
      exact strict_zero_iff unmarked
    · have other : ∀ rest, text ≠ '0' :: rest := fun rest same => zero ⟨rest, same⟩
      have right : ¬ Mistaken text := by
        rintro (⟨rest, same, _⟩ | ⟨digits, _, same⟩)
        · exact other rest same
        · exact other _ same
      refine iff_of_true ?_ right
      apply normalised_of (congrArg (checked · true) (adjusted_nonzero other))
      · exact fun digits _ spells => congrArg ('0' :: 'x' :: ·) (spells_unmarked unmarked spells)
      · rw [isValid_marked (.inl rfl)]
        constructor
        · exact fun all => ⟨text, all, .inl rfl⟩
        · rintro ⟨digits, all, spells⟩
          exact spells_unmarked unmarked spells ▸ all
  · simp only [not_forall, not_not] at unmarked
    obtain ⟨mark, digits, marked, rfl⟩ := unmarked
    exact strict_marked_iff marked

theorem digits_hex (bytes : Bytes) : HexDigits (digits bytes) := by
  have each : ∀ digit < 16, digit.digitChar ∈ filter := by decide
  intro c inside
  obtain ⟨byte, _, member⟩ := List.mem_flatMap.mp inside
  obtain ⟨high, low, _⟩ := byte_halves byte
  rcases List.mem_pair.mp member with rfl | rfl
  · exact each _ high
  · exact each _ low

theorem fill_eq (bytes : Bytes) : ∀ front back : List Char, back.length = 2 * bytes.length →
    fill (front ++ back) front.length bytes = front ++ digits bytes := by
  induction bytes with
  | nil =>
    intro front back size
    cases List.length_eq_zero_iff.mp size
    rfl
  | cons byte rest ih =>
    intro front back size
    obtain ⟨first, second, others, rfl⟩ : ∃ first second others, back = first :: second :: others := by
      cases back with
      | nil => cases size
      | cons first back =>
        cases back with
        | nil =>
          rw [List.length_cons, List.length_cons, List.length_nil] at size
          omega
        | cons second others => exact ⟨first, second, others, rfl⟩
    have left : others.length = 2 * rest.length := by
      rw [List.length_cons, List.length_cons, List.length_cons] at size
      omega
    have written := ih (front ++ [(byte.toNat / 16).digitChar, (byte.toNat % 16).digitChar]) others left
    rw [List.append_assoc, List.append_assoc, List.length_append] at written
    have behind : front.length + 1 - front.length = 1 := Nat.add_sub_cancel_left ..
    unfold fill
    rw [List.set_append_right _ _ (Nat.le_refl _), List.set_append_right _ _ (Nat.le_add_right _ 1), Nat.sub_self, behind]
    exact written

/-- The string that the builder gives to the constructor: the prefix is written over, unless it is asked for or there is nothing to write. -/
theorem fromBytes_spells (bytes : Bytes) (strict : Bool) : ∃ text, HexString.fromBytes bytes strict = create text strict ∧
    Spells text (digits bytes) ∧ (strict = true → text = '0' :: 'x' :: digits bytes) := by
  refine ⟨_, rfl, ?_⟩
  cases strict with
  | true =>
    have size : ((List.replicate (bytes.length * 2 + 2) '0').drop 2).length = 2 * bytes.length := by
      rw [List.length_drop, List.length_replicate]
      omega
    have written := fill_eq bytes ['0', 'x'] _ size
    exact ⟨.inr ⟨'x', .inl rfl, written⟩, fun _ => written⟩
  | false =>
    refine ⟨?_, fun strict => absurd strict Bool.false_ne_true⟩
    cases bytes with
    | nil => exact .inr ⟨'x', .inl rfl, rfl⟩
    | cons byte rest =>
      have size : ('0' :: 'x' :: (List.replicate ((byte :: rest).length * 2 + 0) '0').drop 2).length = 2 * (byte :: rest).length := by
        rw [List.length_cons, List.length_cons, List.length_drop, List.length_replicate, List.length_cons]
        omega
      exact .inl (fill_eq (byte :: rest) [] _ size)

theorem create_strict {made : HexString} (done : create text strict = .ok made) : made.strict = strict :=
  (checked_eq_ok done).2.1

theorem fromBytes_ok (bytes : Bytes) (strict : Bool) : ∃ made, HexString.fromBytes bytes strict = .ok made ∧
    made.hex = spelled strict (digits bytes) ∧ made.strict = strict := by
  obtain ⟨text, built, spells, front⟩ := fromBytes_spells bytes strict
  have normalised : Normalised text strict := by
    cases strict with
    | false => exact loose_normalised text
    | true =>
      apply (strict_normalised_iff text).mpr
      rw [front rfl]
      rintro (⟨_, _, all⟩ | ⟨other, _, same⟩)
      · exact mark_not_digit (.inl rfl) all
      · cases same
  obtain ⟨made, done, shown⟩ := normalised.taken _ (digits_hex bytes) spells
  exact ⟨made, built.trans done, shown, create_strict done⟩

theorem charAt_behind (front : List Char) (text : List Char) (i : Nat) : charAt (front ++ text) (front.length + i) = charAt text i := by
  unfold charAt
  rw [List.getD_eq_getElem?_getD, List.getD_eq_getElem?_getD, List.getElem?_append_right (Nat.le_add_right _ i), Nat.add_sub_cancel_left]

theorem digit_digitChar {number : Nat} (small : number < 16) : HexString.digit number.digitChar = number := by
  unfold HexString.digit
  rw [toInt_digitChar number small]
  rfl

theorem readPairs_digits (bytes : Bytes) : ∀ (front : List Char) (i : UInt32) (ret : Bytes) (fuel : Nat), i.toNat = front.length →
    front.length + 2 * bytes.length < 2 ^ 32 → bytes.length < fuel → readPairs (front ++ digits bytes) fuel i ret = some (ret ++ bytes) := by
  induction bytes with
  | nil =>
    intro front i ret fuel here short enough
    obtain ⟨more, rfl⟩ := Nat.exists_eq_succ_of_ne_zero (Nat.ne_zero_of_lt enough)
    have ended : ¬ i.toNat < (front ++ digits []).length := by
      rw [here, List.length_append]
      exact Nat.not_lt.mpr (Nat.le_refl _)
    unfold readPairs
    rw [if_neg ended, List.append_nil]
  | cons byte rest ih =>
    intro front i ret fuel here short enough
    obtain ⟨more, rfl⟩ := Nat.exists_eq_succ_of_ne_zero (Nat.ne_zero_of_lt enough)
    obtain ⟨high, low, whole⟩ := byte_halves byte
    rw [List.length_cons] at short enough
    have spelled : digits (byte :: rest) = (byte.toNat / 16).digitChar :: (byte.toNat % 16).digitChar :: digits rest := rfl
    have goes : i.toNat < (front ++ digits (byte :: rest)).length := by
      rw [here, List.length_append, spelled, List.length_cons]
      omega
    have next : (i + 1).toNat = front.length + 1 := by
      rw [UInt32.toNat_add, here]
      exact Nat.mod_eq_of_lt (by change front.length + 1 < 2 ^ 32; omega)
    have last : (i + 2).toNat = front.length + 2 := by
      rw [UInt32.toNat_add, here]
      exact Nat.mod_eq_of_lt (by change front.length + 2 < 2 ^ 32; omega)
    have first : charAt (front ++ digits (byte :: rest)) i.toNat = (byte.toNat / 16).digitChar := by
      rw [here]
      exact charAt_behind front _ 0
    have second : charAt (front ++ digits (byte :: rest)) (i + 1).toNat = (byte.toNat % 16).digitChar := by
      rw [next]
      exact charAt_behind front _ 1
    have read := ih (front ++ [(byte.toNat / 16).digitChar, (byte.toNat % 16).digitChar]) (i + 2) (ret ++ [byte]) more
      (by rw [last, List.length_append]; rfl) (by rw [List.length_append]; change front.length + 2 + 2 * rest.length < 2 ^ 32; omega) (by omega)
    rw [List.append_assoc, List.append_assoc] at read
    unfold readPairs
    rw [if_pos goes, first, second]
    dsimp only
    rw [digit_digitChar high, digit_digitChar low, whole, UInt8.ofNat_toNat]
    exact read

/-- A counter of 32 bits does not get to the end of a longer string. -/
theorem readPairs_never {hex : List Char} (long : 2 ^ 32 ≤ hex.length) (fuel : Nat) : ∀ i ret, readPairs hex fuel i ret = none := by
  induction fuel with
  | zero => exact fun _ _ => rfl
  | succ fuel ih =>
    intro i ret
    have goes : i.toNat < hex.length := i.toNat_lt.trans_le long
    unfold readPairs
    rw [if_pos goes]
    exact ih _ _

/-- The bytes come back from the string that is built of them, and from its text. -/
structure ComesBack (bytes : Bytes) (strict : Bool) (made : HexString) : Prop where
  built : HexString.fromBytes bytes strict = .ok made
  read : ∃ fuel, made.bytes fuel = some bytes
  parsed : Hex.toBytes made.get = .ok bytes

/-- The number of characters of the string. -/
def size (bytes : Bytes) (strict : Bool) : Nat := 2 * bytes.length + if strict then 2 else 0

theorem spelled_length (bytes : Bytes) (strict : Bool) : (spelled strict (digits bytes)).length = size bytes strict := by
  unfold size
  rw [← digits_length]
  cases strict with
  | false => rfl
  | true => rfl

theorem bytes_eq {made : HexString} {bytes : Bytes} (shown : made.hex = spelled strict (digits bytes))
    (mode : made.strict = strict) (fuel : Nat) : made.bytes fuel = readPairs (spelled strict (digits bytes)) fuel (if strict then 2 else 0) [] := by
  have even : ¬ (spelled strict (digits bytes)).length % 2 ≠ 0 := by
    rw [spelled_length]
    unfold size
    split
    · omega
    · omega
  unfold HexString.bytes
  rw [shown, mode]
  exact if_neg even

theorem bytes_iff {made : HexString} {bytes : Bytes} (shown : made.hex = spelled strict (digits bytes))
    (mode : made.strict = strict) : (∃ fuel, made.bytes fuel = some bytes) ↔ size bytes strict < 2 ^ 32 := by
  constructor
  · rintro ⟨fuel, read⟩
    by_contra long
    rw [bytes_eq shown mode, readPairs_never (spelled_length bytes strict ▸ Nat.not_lt.mp long)] at read
    cases read
  · intro short
    refine ⟨bytes.length + 1, ?_⟩
    rw [bytes_eq shown mode]
    unfold size at short
    cases strict with
    | false => exact readPairs_digits bytes [] 0 [] (bytes.length + 1) rfl (by rw [List.length_nil, Nat.zero_add]; exact short) (Nat.lt_succ_self _)
    | true =>
      have fits : ['0', 'x'].length + 2 * bytes.length < 2 ^ 32 := by
        rw [Nat.add_comm]
        exact short
      exact readPairs_digits bytes ['0', 'x'] 2 [] (bytes.length + 1) rfl fits (Nat.lt_succ_self _)

theorem toBytes_spelled (bytes : Bytes) (strict : Bool) : Hex.toBytes (String.ofList (spelled strict (digits bytes))) = .ok bytes := by
  cases strict with
  | false => exact toBytes_hexFromBytes bytes
  | true =>
    apply toBytes_of_digits
    unfold withoutPrefix spelled
    rw [String.toList_ofList]
    rfl

theorem comesBack_iff (bytes : Bytes) (strict : Bool) : (∃ made, ComesBack bytes strict made) ↔ size bytes strict < 2 ^ 32 := by
  obtain ⟨made, built, shown, mode⟩ := fromBytes_ok bytes strict
  rw [← bytes_iff shown mode]
  constructor
  · rintro ⟨other, back⟩
    cases built.symm.trans back.built
    exact back.read
  · intro read
    have parsed : Hex.toBytes made.get = .ok bytes := by
      unfold HexString.get
      rw [shown]
      exact toBytes_spelled bytes strict
    exact ⟨made, built, read, parsed⟩

/-- Bytes come back from strings of less than 2^32 characters, and texts are normalised except for two kinds of them in the strict mode. -/
theorem hex_exact_iff (bytes : Bytes) (text : List Char) (strict : Bool) : ((∃ made, ComesBack bytes strict made) ↔ size bytes strict < 2 ^ 32) ∧
    (Normalised text strict ↔ ¬ (strict = true ∧ Mistaken text)) := by
  constructor
  · exact comesBack_iff bytes strict
  · cases strict with
    | false => exact iff_of_true (loose_normalised text) fun mistaken => absurd mistaken.1 Bool.false_ne_true
    | true =>
      rw [strict_normalised_iff]
      exact not_congr (iff_and_self.mpr fun _ => rfl)

/-- Half a byte, and a byte below sixteen. -/
theorem leading_zero_refused : ¬ Normalised ['0', 'a'] true ∧ ¬ Normalised ['0', 'X', '1'] true := by
  constructor
  · intro normalised
    have digits : HexDigits ['0', 'a'] := List.forall_mem_cons.mpr ⟨by decide, List.forall_mem_singleton.mpr (by decide)⟩
    exact (strict_normalised_iff _).mp normalised (.inl ⟨['a'], rfl, digits⟩)
  · intro normalised
    have digits : HexDigits ['1'] := List.forall_mem_singleton.mpr (by decide)
    exact (strict_normalised_iff _).mp normalised (.inr ⟨['1'], digits, rfl⟩)

/-- The bytes are what the digits spell in either case. -/
def InAnyCase (text : List Char) (bytes : Bytes) : Prop := text.map Char.toLower = digits bytes

/-- The first of an odd number of digits is half a byte. -/
def padded {α : Type} (zero : α) (digits : List α) : List α := if digits.length % 2 = 1 then zero :: digits else digits

theorem toInt_ascii : ∀ code < 128, (Hex.toInt (Char.ofNat code)).all
    (fun digit => digit < 16 && (Char.ofNat code).toLower = digit.digitChar) = true := by decide +kernel

def LowerDigit (c : Char) : Prop := ('0' ≤ c ∧ c ≤ '9') ∨ ('a' ≤ c ∧ c ≤ 'f')

instance (c : Char) : Decidable (LowerDigit c) := inferInstanceAs (Decidable (_ ∨ _))

private theorem isSome_ascii : ∀ code < 128, LowerDigit (Char.ofNat code).toLower → (Hex.toInt (Char.ofNat code)).isSome = true := by decide +kernel

private theorem lowerDigit_digitChar : ∀ digit < 16, LowerDigit digit.digitChar := by decide +kernel

private theorem digitChar_ascii : ∀ digit < 16, digit.digitChar.toNat < 128 := by decide

theorem toInt_beyond {c : Char} (beyond : 128 ≤ c.toNat) : Hex.toInt c = none := by
  have above : ∀ last : Char, last.toNat < 128 → ¬ c ≤ last := by
    intro last small le
    have le : c.toNat ≤ last.toNat := le
    omega
  unfold Hex.toInt
  rw [if_neg fun both => above '9' (by decide) both.2, if_neg fun both => above 'f' (by decide) both.2,
    if_neg fun both => above 'F' (by decide) both.2]

theorem toLower_beyond {c : Char} (beyond : 128 ≤ c.toNat) : c.toLower = c := by
  unfold Char.toLower
  rw [dif_neg]
  rintro ⟨_, le⟩
  have le : c.toNat ≤ 'Z'.toNat := le
  have small : 'Z'.toNat < 128 := by decide
  omega

theorem toInt_iff {c : Char} {digit : Nat} : Hex.toInt c = some digit ↔ digit < 16 ∧ c.toLower = digit.digitChar := by
  by_cases small : c.toNat < 128
  · have sound := toInt_ascii c.toNat small
    have complete := isSome_ascii c.toNat small
    rw [Char.ofNat_toNat] at sound complete
    have reads : ∀ other, Hex.toInt c = some other → other < 16 ∧ c.toLower = other.digitChar := by
      intro other found
      rw [found, Option.all_some, Bool.and_eq_true, decide_eq_true_eq, decide_eq_true_eq] at sound
      exact sound
    refine ⟨reads digit, ?_⟩
    rintro ⟨fits, lower⟩
    obtain ⟨other, found⟩ := Option.isSome_iff_exists.mp (complete (lower ▸ lowerDigit_digitChar digit fits))
    obtain ⟨inside, same⟩ := reads other found
    have digits : digit = other := by rw [← digit_digitChar fits, ← lower, same, digit_digitChar inside]
    rw [found, digits]
  · have beyond : 128 ≤ c.toNat := Nat.le_of_not_lt small
    rw [toInt_beyond beyond, toLower_beyond beyond]
    refine iff_of_false (fun found => by cases found) ?_
    rintro ⟨fits, rfl⟩
    exact small (digitChar_ascii digit fits)

theorem mapM_toInt_iff : ∀ {numbers : List Nat}, text.mapM Hex.toInt = some numbers ↔
    (∀ number ∈ numbers, number < 16) ∧ text.map Char.toLower = numbers.map Nat.digitChar := by
  induction text with
  | nil =>
    intro numbers
    cases numbers <;> simp
  | cons c rest ih =>
    intro numbers
    rw [List.mapM_cons]
    cases numbers with
    | nil => 
      simp only [Option.bind_eq_bind, Option.bind_eq_some_iff]
      refine iff_of_false ?_ ?_
      · rintro ⟨_, _, _, _, same⟩
        cases same
      · rintro ⟨_, same⟩
        cases same
    | cons number numbers =>
      simp only [Option.bind_eq_bind, Option.bind_eq_some_iff, List.map_cons, List.cons.injEq, List.forall_mem_cons]
      constructor
      · rintro ⟨_, first, _, later, same⟩
        cases same
        obtain ⟨small, lower⟩ := toInt_iff.mp first
        obtain ⟨all, spelled⟩ := ih.mp later
        exact ⟨⟨small, all⟩, lower, spelled⟩
      · rintro ⟨⟨small, all⟩, lower, spelled⟩
        exact ⟨number, toInt_iff.mpr ⟨small, lower⟩, numbers, ih.mpr ⟨all, spelled⟩, rfl⟩

theorem digits_eq (bytes : Bytes) : digits bytes = (halves bytes).map Nat.digitChar := by
  unfold digits halves
  rw [List.map_flatMap]
  rfl

theorem halves_small (bytes : Bytes) : ∀ number ∈ halves bytes, number < 16 := by
  intro number inside
  obtain ⟨byte, _, member⟩ := List.mem_flatMap.mp inside
  obtain ⟨high, low, _⟩ := byte_halves byte
  rcases List.mem_pair.mp member with rfl | rfl
  · exact high
  · exact low

theorem halves_joinPairs {numbers : List Nat} (even : numbers.length % 2 = 0) (small : ∀ number ∈ numbers, number < 16) :
    halves (joinPairs numbers) = numbers := by
  induction numbers using joinPairs.induct with
  | case1 high low rest ih =>
    obtain ⟨first, second, others⟩ := (List.forall_mem_cons.trans (and_congr_right' List.forall_mem_cons)).mp small
    rw [List.length_cons, List.length_cons] at even
    have byte : (UInt8.ofNat (high * 16 + low)).toNat = high * 16 + low := UInt8.toNat_ofNat_of_lt' (by change _ < 256; omega)
    change (UInt8.ofNat (high * 16 + low)).toNat / 16 :: (UInt8.ofNat (high * 16 + low)).toNat % 16 :: halves (joinPairs rest) = _
    rw [ih (by omega) others, byte]
    congr 1
    · omega
    · congr 1
      omega
  | case2 numbers short =>
    cases numbers with
    | nil => rfl
    | cons first rest =>
      cases rest with
      | nil => cases even
      | cons second rest => exact absurd rfl (short first second rest)

theorem toBytes_numbers {text : String} {numbers : List Nat} (read : (withoutPrefix text).mapM Hex.toInt = some numbers) :
    Hex.toBytes text = .ok (joinPairs (padded 0 numbers)) := by
  unfold Hex.toBytes
  rw [read]
  cases numbers with
  | nil => rfl
  | cons first rest =>
    unfold padded
    dsimp only
    rw [List.length_cons]
    by_cases even : rest.length % 2 = 0
    · have odd : (rest.length + 1) % 2 = 1 := by omega
      rw [if_pos even, if_pos odd]
      change _ = Except.ok (UInt8.ofNat (0 * 16 + first) :: joinPairs rest)
      rw [Nat.zero_mul, Nat.zero_add]
    · have even' : ¬ (rest.length + 1) % 2 = 1 := by omega
      rw [if_neg even, if_neg even']

theorem map_padded {α β : Type} (f : α → β) (zero : α) (digits : List α) : (padded zero digits).map f = padded (f zero) (digits.map f) := by
  unfold padded
  rw [List.length_map]
  split <;> rfl

theorem mem_padded {numbers : List Nat} (small : ∀ number ∈ numbers, number < 16) : ∀ number ∈ padded 0 numbers, number < 16 := by
  unfold padded
  split
  · exact List.forall_mem_cons.mpr ⟨by decide, small⟩
  · exact small

theorem padded_even {α : Type} (zero : α) (digits : List α) : (padded zero digits).length % 2 = 0 := by
  unfold padded
  split
  · rw [List.length_cons]
    omega
  · omega

theorem mapM_padded {numbers : List Nat} (read : (padded '0' text).mapM Hex.toInt = some numbers) (even : numbers.length % 2 = 0) :
    ∃ inner, text.mapM Hex.toInt = some inner ∧ padded 0 inner = numbers := by
  unfold padded at read
  split at read
  case isTrue odd =>
    rw [List.mapM_cons] at read
    simp only [Option.bind_eq_bind, Option.bind_eq_some_iff] at read
    obtain ⟨half, first, inner, later, same⟩ := read
    have first : some 0 = some half := first
    cases first
    cases same
    refine ⟨inner, later, ?_⟩
    rw [List.length_cons] at even
    unfold padded
    rw [if_pos (by omega)]
  case isFalse =>
    refine ⟨numbers, read, ?_⟩
    unfold padded
    rw [if_neg (by omega)]

/-- Bytes are read from their digits, in either case and without one zero in front of them. -/
theorem toBytes_iff {text : String} {bytes : Bytes} : Hex.toBytes text = .ok bytes ↔ InAnyCase (padded '0' (withoutPrefix text)) bytes := by
  unfold InAnyCase
  rw [digits_eq]
  constructor
  · intro read
    cases found : (withoutPrefix text).mapM Hex.toInt with
    | none =>
      unfold Hex.toBytes at read
      rw [found] at read
      cases read
    | some numbers =>
      rw [toBytes_numbers found] at read
      cases read
      obtain ⟨small, spelled⟩ := mapM_toInt_iff.mp found
      rw [halves_joinPairs (padded_even 0 numbers) (mem_padded small), map_padded, map_padded, spelled]
      rfl
  · intro spelled
    have size := halves_length bytes
    have read := mapM_toInt_iff.mpr ⟨halves_small bytes, spelled⟩
    obtain ⟨inner, found, same⟩ := mapM_padded read (by omega)
    rw [toBytes_numbers found, same, joinPairs_halves]

private theorem digit_in_filter : ∀ code < 128, (Hex.toInt (Char.ofNat code)).isSome = true → Char.ofNat code ∈ Hex.filter := by decide +kernel

theorem hexDigits_of_inAnyCase {bytes : Bytes} (spelled : InAnyCase text bytes) : HexDigits text := by
  intro c inside
  have member : c.toLower ∈ digits bytes := by
    rw [← show text.map Char.toLower = digits bytes from spelled]
    exact List.mem_map_of_mem inside
  rw [digits_eq] at member
  obtain ⟨number, half, same⟩ := List.mem_map.mp member
  have read := toInt_iff.mpr ⟨halves_small bytes number half, same.symm⟩
  have small : c.toNat < 128 := by
    by_contra large
    rw [toInt_beyond (Nat.le_of_not_lt large)] at read
    cases read
  have found := digit_in_filter c.toNat small
  rw [Char.ofNat_toNat, read] at found
  exact found rfl

theorem inAnyCase_length {bytes : Bytes} (spelled : InAnyCase text bytes) : text.length = 2 * bytes.length := by
  have size := congrArg List.length spelled
  rw [List.length_map, digits_length] at size
  exact size

theorem withoutPrefix_marked {text : String} {mark : Char} {digits : List Char} (marked : Mark mark) (spelled : text.toList = '0' :: mark :: digits) :
    Hex.withoutPrefix text = digits := by
  unfold Hex.withoutPrefix
  rw [spelled]
  rcases marked with rfl | rfl
  · rfl
  · rfl

theorem withoutPrefix_hex {text : String} (hex : HexDigits text.toList) : Hex.withoutPrefix text = text.toList := by
  unfold Hex.withoutPrefix
  split
  case h_1 spelled => exact absurd (spelled ▸ hex) (mark_not_digit (.inl rfl))
  case h_2 spelled => exact absurd (spelled ▸ hex) (mark_not_digit (.inr rfl))
  case h_3 => rfl

end OrbiterSDK.Proofs.HexTexts
