import OrbiterSDK.Proofs.AbiRoundTrip
import OrbiterSDK.Lib.Judged

/-! Which bytes the decoder reads. Sums with offsets and lengths are compared with the size
of a view after they have been reduced to 64 bits, and offsets of dynamic tuples are not compared
at all: the decoder stays inside exactly if the words that it gets to as offsets and lengths
allow for that. -/

namespace OrbiterSDK.ABI
open Utils

namespace Decoder

/-- An offset or a length in some bytes. -/
def wordAt (bytes : Bytes) (index : Nat) : Nat := (fromBigEndian64 ((bytes.drop index).take 32)).toNat

/-- An offset, a length where it points to and as many bytes behind are inside. -/
def ReadableBytes (bytes : Bytes) (index : Nat) : Prop :=
  index + 32 ≤ bytes.length ∧ wordAt bytes index + 32 ≤ bytes.length ∧
    wordAt bytes index + 32 + wordAt bytes (wordAt bytes index) ≤ bytes.length

/-- No sum that is made of such words needs more than 64 bits. -/
def TameBytes (bytes : Bytes) (index : Nat) : Prop :=
  index + 32 ≤ bytes.length → wordAt bytes index + 32 < 2 ^ 64 ∧
    (wordAt bytes index + 32 ≤ bytes.length → wordAt bytes index + 32 + wordAt bytes (wordAt bytes index) < 2 ^ 64)

end Decoder
open Decoder

/-- A word is in the range of its type. -/
def Word.Fits : Word → Bytes → Prop
  | uint more, word => bytesToUint word < 2 ^ (8 * (more.val + 1))
  | int more, word => narrowInt (more + 1) (bytesToInt256 word) = .ok (bytesToInt256 word)
  | bool, _ => True
  | address, _ => True
  | hash, _ => True
  | enumeration more, word => bytesToUint word < 2 ^ (8 * (more.val + 1))

mutual

/-- There is a value to read, with all that it consists of inside. -/
def Ty.Readable : Ty → Bytes → Nat → Prop
  | .word word, bytes, index => index + 32 ≤ bytes.length ∧ word.Fits ((bytes.drop index).take 32)
  | .bytes, bytes, index => ReadableBytes bytes index
  | .string, bytes, index => ReadableBytes bytes index
  | .vector element, bytes, index =>
    index + 32 ≤ bytes.length ∧ wordAt bytes index + 32 ≤ bytes.length ∧
      ∀ place < wordAt bytes (wordAt bytes index),
        element.Readable (bytes.drop (wordAt bytes index + 32)) (place * element.headSize)
  | .tuple members, bytes, index =>
    if members.isTupleOfDynamicTypes then
      index + 32 ≤ bytes.length ∧ wordAt bytes index ≤ bytes.length ∧ members.Readable (bytes.drop (wordAt bytes index)) 0
    else index + 32 * members.tupleSize ≤ bytes.length ∧ members.Readable bytes index

def Tys.Readable : Tys → Bytes → Nat → Prop
  | .last ty, bytes, index => ty.Readable bytes index
  | .cons ty rest, bytes, index => ty.Readable bytes index ∧ rest.Readable bytes (index + ty.headSize)

end

mutual

/-- The offsets and lengths that the decoder gets to: those of a value as far as the checks in
front of them pass and the values in front of it can be read. -/
def Ty.Tame : Ty → Bytes → Nat → Prop
  | .word _, _, _ => True
  | .bytes, bytes, index => TameBytes bytes index
  | .string, bytes, index => TameBytes bytes index
  | .vector element, bytes, index =>
    index + 32 ≤ bytes.length → wordAt bytes index + 32 < 2 ^ 64 ∧
      (wordAt bytes index + 32 ≤ bytes.length → ∀ place < wordAt bytes (wordAt bytes index),
        (∀ earlier < place, element.Readable (bytes.drop (wordAt bytes index + 32)) (earlier * element.headSize)) →
          element.Tame (bytes.drop (wordAt bytes index + 32)) (place * element.headSize))
  | .tuple members, bytes, index =>
    if members.isTupleOfDynamicTypes then
      index + 32 ≤ bytes.length → wordAt bytes index ≤ bytes.length ∧ members.Tame (bytes.drop (wordAt bytes index)) 0
    else index + 32 * members.tupleSize ≤ bytes.length → members.Tame bytes index

def Tys.Tame : Tys → Bytes → Nat → Prop
  | .last ty, bytes, index => ty.Tame bytes index
  | .cons ty rest, bytes, index => ty.Tame bytes index ∧ (ty.Readable bytes index → rest.Tame bytes (index + ty.headSize))

end
end OrbiterSDK.ABI

namespace OrbiterSDK.Proofs.AbiSafety
open Lib Utils ABI Decoder AbiRoundTrip
open Tx (pastEnd)

section Words
variable {bytes : Bytes} {index : Nat}

theorem range_inside {finish : Nat} (forward : index ≤ finish) (fits : finish ≤ bytes.length) :
    range bytes index finish = pure ((bytes.drop index).take (finish - index)) := if_pos ⟨forward, fits⟩

theorem range_backward {finish : Nat} (backward : finish < index) : range bytes index finish = .error pastEnd :=
  if_neg fun ⟨forward, _⟩ => Nat.not_lt.mpr forward backward

theorem add64_wraps {left right : Nat} (fits : left < 2 ^ 64) (few : right < 2 ^ 64) (wraps : 2 ^ 64 ≤ left + right) :
    add64 left right = left + right - 2 ^ 64 := by
  have once : left + right - 2 ^ 64 < 2 ^ 64 := by omega
  unfold add64
  rw [Nat.mod_eq_sub_mod wraps, Nat.mod_eq_of_lt once]

theorem wordAt_lt (bytes : Bytes) (index : Nat) : wordAt bytes index < 2 ^ 64 := UInt64.toNat_lt _

theorem word64_inside (fits : index + 32 ≤ bytes.length) (short : bytes.length < 2 ^ 64) : word64 bytes index = pure (wordAt bytes index) := by
  have exact : add64 index 32 = index + 32 := add64_exact (by omega)
  have size : index + 32 - index = 32 := Nat.add_sub_cancel_left ..
  unfold word64
  rw [exact, range_inside (by omega) fits, pure_bind, size]
  rfl

/-- The end of a word that wraps around is in front of its beginning. -/
private theorem word64_wraps (fits : index < 2 ^ 64) (wraps : 2 ^ 64 ≤ index + 32) : word64 bytes index = .error pastEnd := by
  have once := add64_wraps fits (by decide) wraps
  unfold word64
  rw [range_backward (by omega)]
  rfl

end Words

section Parts
variable {α : Type} {bytes : Bytes} {index : Nat} {sound ready : Prop} {result : α → Prop} {what : Exception}

/-- What is read behind a value is read from the place that its type says. -/
theorem judged_behind {β : Type} {run : Except Exception (α × Nat)} {next : α × Nat → Except Exception β} {place : Nat} {later last : Prop}
    {final : β → Prop} (first : Judged pastEnd run sound ready (·.2 = place))
    (others : ∀ value, Judged pastEnd (next (value, place)) later last final) :
    Judged pastEnd (run >>= next) (sound ∧ (ready → later)) (ready ∧ last) final := by
  apply first.bind
  rintro ⟨value, behind⟩ (same : behind = place)
  rw [same]
  exact others value

theorem judged_enough {needed : Nat} {next : Unit → Except Exception α} (other : what ≠ pastEnd)
    (rest : needed ≤ bytes.length → Judged pastEnd (next ()) sound ready result) :
    Judged pastEnd (enough bytes needed what >>= next) (needed ≤ bytes.length → sound) (needed ≤ bytes.length ∧ ready) result := by
  have judged : Judged pastEnd (enough bytes needed what >>= next) (¬ bytes.length < needed → sound) (¬ bytes.length < needed ∧ ready) result :=
    .guard other fun goes => rest (Nat.le_of_not_lt goes)
  rw [Nat.not_lt] at judged
  exact judged

theorem judged_fixed {convert : Bytes → Except Exception α} {fits : Prop} (other : what ≠ pastEnd)
    (converted : Judged pastEnd (convert ((bytes.drop index).take 32)) True fits fun _ => True) :
    Judged pastEnd (decodeFixed what convert bytes index) True (index + 32 ≤ bytes.length ∧ fits) (·.2 = index + 32) := by
  have rest : index + 32 ≤ bytes.length → Judged pastEnd (do
      let word ← range bytes index (index + 32)
      let value ← convert word
      pure (value, index + 32)) (True ∧ (fits → True)) (fits ∧ True) (·.2 = index + 32) := by
    intro inside
    have size : index + 32 - index = 32 := Nat.add_sub_cancel_left ..
    rw [range_inside (by omega) inside, pure_bind, size]
    exact converted.bind fun value _ => .value rfl
  apply (judged_enough other rest).congr
  · exact iff_of_true (fun _ => ⟨trivial, fun _ => trivial⟩) trivial
  · rw [and_true]

theorem judged_narrow (size value : Nat) : Judged pastEnd (narrow size value) True (value < 2 ^ (8 * size)) fun _ => True := by
  unfold narrow
  by_cases fits : value < 2 ^ (8 * size)
  · rw [if_pos fits]
    exact (Judged.value trivial).congr Iff.rfl (iff_of_true trivial fits)
  · rw [if_neg fits]
    exact (Judged.refused (by decide)).congr Iff.rfl (iff_of_false id fits)

theorem judged_narrowInt (size : Nat) (value : Int) : Judged pastEnd (narrowInt size value) True (narrowInt size value = .ok value) fun _ => True := by
  have either : narrowInt size value = pure value ∨ narrowInt size value = .error Uint256.outOfRange := by
    unfold narrowInt
    exact ite_eq_or_eq ..
  cases either with
  | inl same =>
    rw [same]
    exact (Judged.value trivial).congr Iff.rfl (iff_of_true trivial rfl)
  | inr refused =>
    rw [refused]
    exact (Judged.refused (by decide)).congr Iff.rfl (iff_of_false id nofun)

theorem decodeWord_judged (word : Word) : Judged pastEnd (decodeWord word bytes index) True
    (index + 32 ≤ bytes.length ∧ word.Fits ((bytes.drop index).take 32)) (·.2 = index + 32) := by
  cases word with
  | uint more => exact judged_fixed (by decide) (judged_narrow _ _)
  | int more => exact judged_fixed (by decide) (judged_narrowInt _ _)
  | bool => exact judged_fixed (by decide) (.value trivial)
  | address => exact judged_fixed (by decide) (.value trivial)
  | hash => exact judged_fixed (by decide) (.value trivial)
  | enumeration more => exact judged_fixed (by decide) (judged_narrow _ _)

theorem judged_start {first second : Exception} {next : Nat → Nat → Except Exception α} (short : bytes.length < 2 ^ 64) (other : first ≠ pastEnd)
    (another : second ≠ pastEnd) (rest : wordAt bytes index + 32 ≤ bytes.length →
      Judged pastEnd (next (wordAt bytes index) (wordAt bytes (wordAt bytes index))) sound ready result) :
    Judged pastEnd (do
      enough bytes (index + 32) first
      let start ← word64 bytes index
      enough bytes (add64 start 32) second
      let length ← word64 bytes start
      next start length)
      (index + 32 ≤ bytes.length → wordAt bytes index + 32 < 2 ^ 64 ∧ (wordAt bytes index + 32 ≤ bytes.length → sound))
      (index + 32 ≤ bytes.length ∧ wordAt bytes index + 32 ≤ bytes.length ∧ ready) result := by
  apply judged_enough other
  intro inside
  have small := wordAt_lt bytes index
  rw [word64_inside inside short, pure_bind]
  by_cases wraps : 2 ^ 64 ≤ wordAt bytes index + 32
  · have once := add64_wraps small (by decide) wraps
    rw [once, enough_pure (by omega), pure_bind, word64_wraps small wraps]
    apply Judged.faulty.congr
    · exact iff_of_false id fun ⟨fits, _⟩ => by omega
    · exact iff_of_false id fun ⟨fits, _⟩ => by omega
  · have exact : add64 (wordAt bytes index) 32 = wordAt bytes index + 32 := add64_exact (by omega)
    rw [exact]
    have judged : Judged pastEnd (enough bytes (wordAt bytes index + 32) second >>= fun _ =>
        word64 bytes (wordAt bytes index) >>= fun length => next (wordAt bytes index) length)
        (wordAt bytes index + 32 ≤ bytes.length → sound) (wordAt bytes index + 32 ≤ bytes.length ∧ ready) result := by
      apply judged_enough another
      intro behind
      rw [word64_inside behind short, pure_bind]
      exact rest behind
    apply judged.congr
    · exact ⟨fun holds => ⟨by omega, holds⟩, And.right⟩
    · exact Iff.rfl

theorem decodeBytes_judged {first second third : Exception} (short : bytes.length < 2 ^ 64) (other : first ≠ pastEnd)
    (another : second ≠ pastEnd) (last : third ≠ pastEnd) :
    Judged pastEnd (decodeBytes first second third bytes index) (TameBytes bytes index) (ReadableBytes bytes index) (·.2 = index + 32) := by
  apply judged_start short other another
  intro inside
  have small := wordAt_lt bytes (wordAt bytes index)
  have exact : add64 (wordAt bytes index) 32 = wordAt bytes index + 32 := add64_exact (by omega)
  rw [exact]
  by_cases wraps : 2 ^ 64 ≤ wordAt bytes index + 32 + wordAt bytes (wordAt bytes index)
  · have once := add64_wraps (by omega) small wraps
    rw [once, enough_pure (by omega), pure_bind, range_backward (by omega)]
    apply Judged.faulty.congr
    · exact iff_of_false id (by omega)
    · exact iff_of_false id (by omega)
  · have fits : add64 (wordAt bytes index + 32) (wordAt bytes (wordAt bytes index)) =
        wordAt bytes index + 32 + wordAt bytes (wordAt bytes index) := add64_exact (by omega)
    have judged : Judged pastEnd (do
        enough bytes (wordAt bytes index + 32 + wordAt bytes (wordAt bytes index)) third
        let data ← range bytes (wordAt bytes index + 32) (wordAt bytes index + 32 + wordAt bytes (wordAt bytes index))
        pure (data, index + 32))
        (wordAt bytes index + 32 + wordAt bytes (wordAt bytes index) ≤ bytes.length → True)
        (wordAt bytes index + 32 + wordAt bytes (wordAt bytes index) ≤ bytes.length ∧ True) (·.2 = index + 32) := by
      apply judged_enough last
      intro behind
      rw [range_inside (by omega) behind, pure_bind]
      exact .value rfl
    rw [fits]
    apply judged.congr
    · exact iff_of_true (fun _ => trivial) (by omega)
    · rw [and_true]

/-- A loop is judged by its rounds: each one counts if all in front of it have a result. -/
theorem decodeElements_judged {decodeElement : Nat → Except Exception (α × Nat)} {size : Nat} {sound ready : Nat → Prop}
    (each : ∀ index, Judged pastEnd (decodeElement index) (sound index) (ready index) (·.2 = index + size)) (count : Nat) :
    ∀ start : Nat, Judged pastEnd (decodeElements decodeElement count start)
      (∀ place < count, (∀ earlier < place, ready (start + earlier * size)) → sound (start + place * size))
      (∀ place < count, ready (start + place * size)) fun _ => True := by
  induction count with
  | zero =>
    intro start
    apply (Judged.value trivial).congr
    · exact iff_of_true trivial nofun
    · exact iff_of_true trivial nofun
  | succ count ih =>
    intro start
    have shifted (place : Nat) : start + (place + 1) * size = start + size + place * size := by
      rw [Nat.succ_mul]
      omega
    have first : start + 0 * size = start := by rw [Nat.zero_mul, Nat.add_zero]
    have judged : Judged pastEnd (decodeElements decodeElement (count + 1) start) _ _ fun _ => True :=
      judged_behind (each start) fun value => (ih (start + size)).bind fun values _ => .value trivial
    apply judged.congr
    · rw [Nat.forall_lt_succ_left]
      simp only [Nat.forall_lt_succ_left, first, shifted]
      constructor
      · rintro ⟨here, later⟩
        exact ⟨fun _ => here, fun place few ⟨reads, others⟩ => (later reads).1 place few others⟩
      · rintro ⟨here, later⟩
        exact ⟨here nofun, fun reads => ⟨fun place few others => later place few ⟨reads, others⟩, fun _ => trivial⟩⟩
    · rw [and_true, Nat.forall_lt_succ_left]
      simp only [first, shifted]

end Parts

mutual

theorem decode_judged : (ty : Ty) → ∀ (bytes : Bytes) (index : Nat), bytes.length < 2 ^ 64 →
    Judged pastEnd (decode ty bytes index) (ty.Tame bytes index) (ty.Readable bytes index) (·.2 = index + ty.headSize)
  | .word word, bytes, index, short => decodeWord_judged word
  | .bytes, bytes, index, short => decodeBytes_judged short (by decide) (by decide) (by decide)
  | .string, bytes, index, short => decodeBytes_judged short (by decide) (by decide) (by decide)
  | .vector element, bytes, index, short => by
    apply judged_start short (by decide) (by decide)
    intro inside
    have shorter : (bytes.drop (wordAt bytes index + 32)).length < 2 ^ 64 := by
      rw [List.length_drop]
      omega
    have exact : add64 (wordAt bytes index) 32 = wordAt bytes index + 32 := add64_exact (by omega)
    rw [exact, subspan_pure inside, pure_bind]
    have loop := decodeElements_judged (fun place => decode_judged element (bytes.drop (wordAt bytes index + 32)) place shorter)
      (wordAt bytes (wordAt bytes index)) 0
    simp only [Nat.zero_add] at loop
    apply Judged.congr
    · apply loop.bind
      intro values _
      exact .value rfl
    · exact and_iff_left fun _ => trivial
    · exact and_iff_left trivial
  | .tuple members, bytes, index, short => by
    unfold decode Ty.Tame Ty.Readable Ty.headSize
    by_cases dynamic : members.isTupleOfDynamicTypes = true
    · simp only [if_pos dynamic]
      apply judged_enough (by decide)
      intro inside
      rw [word64_inside inside short, pure_bind]
      by_cases behind : wordAt bytes index ≤ bytes.length
      · have shorter : (bytes.drop (wordAt bytes index)).length < 2 ^ 64 := by
          rw [List.length_drop]
          omega
        rw [subspan_pure behind, pure_bind]
        apply Judged.congr
        · apply judged_behind (decodeTuple_judged members (bytes.drop (wordAt bytes index)) 0 shorter)
          intro values
          exact .value rfl
        · exact ⟨fun holds => ⟨behind, holds.1⟩, fun holds => ⟨holds.2, fun _ => trivial⟩⟩
        · exact ⟨fun holds => ⟨behind, holds.1⟩, fun holds => ⟨holds.2, trivial⟩⟩
      · have outside : subspan bytes (wordAt bytes index) = .error pastEnd := if_neg behind
        rw [outside]
        apply Judged.faulty.congr
        · exact iff_of_false id fun ⟨fits, _⟩ => behind fits
        · exact iff_of_false id fun ⟨fits, _⟩ => behind fits
    · simp only [if_neg dynamic]
      apply judged_enough (by decide)
      intro inside
      exact decodeTuple_judged members bytes index short
termination_by structural ty => ty

theorem decodeTuple_judged : (tys : Tys) → ∀ (bytes : Bytes) (index : Nat), bytes.length < 2 ^ 64 →
    Judged pastEnd (decodeTuple tys bytes index) (tys.Tame bytes index) (tys.Readable bytes index) (·.2 = index + tys.headSizes)
  | .last ty, bytes, index, short => decode_judged ty bytes index short
  | .cons ty rest, bytes, index, short => by
    have judged : Judged pastEnd (decodeTuple (.cons ty rest) bytes index) _ _ (·.2 = index + (Tys.cons ty rest).headSizes) :=
      judged_behind (decode_judged ty bytes index short) fun value =>
        judged_behind (decodeTuple_judged rest bytes (index + ty.headSize) short) fun values => .value (Nat.add_assoc ..)
    apply judged.congr
    · exact and_congr_right fun _ => imp_congr_right fun _ => and_iff_left fun _ => trivial
    · exact and_congr_right fun _ => and_iff_left trivial
termination_by structural tys => tys

end

theorem readable_inside {ty : Ty} {bytes : Bytes} {index : Nat} (reads : ty.Readable bytes index) : index + 32 ≤ bytes.length := by
  cases ty with
  | word word => exact reads.1
  | bytes => exact reads.1
  | string => exact reads.1
  | vector element => exact reads.1
  | tuple members =>
    have some : 1 ≤ members.tupleSize := by
      cases members with
      | last ty => exact Nat.le_refl 1
      | cons ty rest => exact Nat.le_add_left 1 _
    unfold Ty.Readable at reads
    by_cases dynamic : members.isTupleOfDynamicTypes = true
    · rw [if_pos dynamic] at reads
      exact reads.1
    · rw [if_neg dynamic] at reads
      omega

theorem decodeElements_stops {α : Type} {decodeElement : Nat → Except Exception (α × Nat)} {what : Exception} (more : Nat) {count : Nat} :
    ∀ {start : Nat}, decodeElements decodeElement count start = .error what → decodeElements decodeElement (count + more) start = .error what := by
  induction count with
  | zero => exact nofun
  | succ count ih =>
    intro start failed
    rw [Nat.succ_add]
    unfold decodeElements at failed ⊢
    cases here : decodeElement start with
    | error other =>
      rw [here] at failed
      exact failed
    | ok read =>
      rw [here] at failed
      cases later : decodeElements decodeElement count read.2 with
      | error other =>
        have same : other = what := Except.error.inj ((congrArg (· >>= fun values => pure (read.1 :: values)) later).symm.trans failed)
        exact (congrArg (· >>= fun values => pure (read.1 :: values)) (ih (later.trans (congrArg _ same))))
      | ok values => cases (congrArg (· >>= fun values => pure (read.1 :: values)) later).symm.trans failed

/-- Whatever its length says, the loop of a vector ends within one round for each word of its view, and one more. -/
theorem loop_ends (element : Ty) {view : Bytes} (short : view.length < 2 ^ 64) (count : Nat) :
    decodeElements (decode element view) count 0 = decodeElements (decode element view) (min count (view.length / 32 + 1)) 0 := by
  by_cases few : count ≤ view.length / 32 + 1
  · rw [Nat.min_eq_left few]
  · have judged := decodeElements_judged (fun place => decode_judged element view place short) (view.length / 32 + 1) 0
    have never : ¬ ∃ values, decodeElements (decode element view) (view.length / 32 + 1) 0 = .ok values := by
      intro result
      have last := readable_inside (judged.reads.mp result (view.length / 32) (Nat.lt_succ_self _))
      have least := Nat.mul_le_mul_left (view.length / 32) (headSize_least element)
      omega
    rw [Nat.min_eq_right (by omega)]
    cases failed : decodeElements (decode element view) (view.length / 32 + 1) 0 with
    | error what =>
      have later := decodeElements_stops (count - (view.length / 32 + 1)) failed
      rw [Nat.add_sub_cancel' (by omega)] at later
      exact later
    | ok values => exact absurd ⟨values, failed⟩ never

/-- The decoder reads inside of its input only, and no loop of it goes on for longer than its view does. -/
structure Safe (tys : Tys) (bytes : Bytes) : Prop where
  inside : decodeData tys bytes ≠ .error pastEnd
  ends : ∀ (element : Ty) (view : Bytes) (count : Nat), view.length ≤ bytes.length →
    decodeElements (decode element view) count 0 = decodeElements (decode element view) (min count (view.length / 32 + 1)) 0

theorem decoding_is_safe_iff {tys : Tys} {bytes : Bytes} (short : bytes.length < 2 ^ 64) : Safe tys bytes ↔ tys.Tame bytes 0 := by
  have judged : Judged pastEnd (decodeData tys bytes) _ _ fun _ => True :=
    judged_behind (decodeTuple_judged tys bytes 0 short) fun values => .value trivial
  constructor
  · intro safe
    exact (judged.safe.mp safe.inside).1
  · intro tame
    constructor
    · exact judged.safe.mpr ⟨tame, fun _ => trivial⟩
    · intro element view count shorter
      exact loop_ends element (Nat.lt_of_le_of_lt shorter short) count

abbrev text : Tys := .last .string

/-- The bytes of a string behind an offset and a length. -/
def textBytes (offset length : Nat) : Bytes := uintToBytes 32 offset ++ uintToBytes 32 length ++ uintToBytes 32 0x6162

theorem honest_text_is_safe : Safe text (textBytes 32 32) := by
  apply (decoding_is_safe_iff (by decide)).mpr
  intro _
  decide

/-- Sums that wrap around and the offset of a tuple lead outside. -/
theorem hostile_offsets_lead_outside : ¬ Safe text (textBytes (2 ^ 64 - 32) 0) ∧ ¬ Safe text (textBytes 32 (2 ^ 64 - 64)) ∧
    ¬ Safe (.last (.tuple text)) (textBytes 97 0) := by
  refine ⟨?_, ?_, ?_⟩
  · intro safe
    exact safe.inside (by decide)
  · intro safe
    exact safe.inside (by decide)
  · intro safe
    exact safe.inside (by decide)

end OrbiterSDK.Proofs.AbiSafety
