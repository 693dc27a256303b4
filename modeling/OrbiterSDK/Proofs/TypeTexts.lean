import OrbiterSDK.JsonAbi

/-! Names of types that are taken apart and put together again. Clients put the components of a tuple in parentheses,
with what its type has behind the word for tuples. -/

namespace OrbiterSDK.Proofs.TypeTexts
open Lib Hex JsonAbi

def textOf (members : List (String × Json)) (name : String) : Option (List Char) :=
  match members.lookup name with
  | some (.string text) => some text.toList
  | _ => none

def joined (texts : List (List Char)) : List Char := [','].intercalate texts

mutual

/-- The name of the type of a parameter. -/
def flatten : Json → Option (List Char)
  | .object members => do
    let type ← textOf members "type"
    if (members.lookup "components").isSome then do
      let texts ← componentsOf members
      some ('(' :: joined texts ++ ')' :: type.drop "tuple".length)
    else some type
  | _ => none

def componentsOf : List (String × Json) → Option (List (List Char))
  | [] => none
  | member :: rest => if member.1 = "components" then componentOf member else componentsOf rest

def componentOf : String × Json → Option (List (List Char))
  | (_, value) => flattenArray value

def flattenArray : Json → Option (List (List Char))
  | .array values => flattenAll values
  | _ => none

def flattenAll : List Json → Option (List (List Char))
  | [] => some []
  | value :: rest => do
    let text ← flatten value
    let texts ← flattenAll rest
    some (text :: texts)

end

def brackets (count : Nat) : List Char := (List.replicate count "[]".toList).flatten

theorem brackets_length (count : Nat) : (brackets count).length = 2 * count := by
  unfold brackets
  induction count with
  | zero => rfl
  | succ count ih =>
    rw [List.replicate_succ, List.flatten_cons, List.length_append, ih]
    change 2 + 2 * count = _
    omega

theorem flatten_extra {name : String} {value : Json} (members : List (String × Json)) (other : name ≠ "components") (another : name ≠ "type") :
    flatten (.object ((name, value) :: members)) = flatten (.object members) := by
  have type : textOf ((name, value) :: members) "type" = textOf members "type" := by
    unfold textOf
    rw [List.lookup_cons, beq_false_of_ne another.symm]
  have components : ((name, value) :: members).lookup "components" = members.lookup "components" := by
    rw [List.lookup_cons, beq_false_of_ne other.symm]
  have inner : componentsOf ((name, value) :: members) = componentsOf members := by
    rw [componentsOf, if_neg other]
  rw [flatten, flatten, type, components, inner]

private theorem flatten_plain (type : List Char) : flatten (.object (plainMembers type)) = some type := by
  rw [flatten]
  change some (String.ofList type).toList = _
  rw [String.toList_ofList]

theorem flatten_tuple (components : List Json) (count : Nat) :
    flatten (.object [("components", .array components), ("type", .string (String.ofList (tupleType count)))]) =
      (flattenAll components).map fun texts => '(' :: joined texts ++ ')' :: brackets count := by
  have suffix : (String.ofList (tupleType count)).toList.drop "tuple".length = brackets count := by
    rw [String.toList_ofList]
    rfl
  rw [flatten]
  change (flattenAll components).bind (fun texts => some ('(' :: joined texts ++ ')' :: (String.ofList (tupleType count)).toList.drop "tuple".length)) = _
  rw [suffix]
  cases flattenAll components with
  | none => rfl
  | some texts => rfl

theorem handleTupleComponents_cons (type : List Char) (rest : List (List Char)) : handleTupleComponents (type :: rest) = (do
    let compObj ← typeMembers type
    let obj ← handleTupleComponents rest
    pure (.object compObj :: obj)) := by
  rw [handleTupleComponents]
  congr 1
  unfold typeMembers
  cases isTuple type with
  | error what => rfl
  | ok tuple =>
    cases tuple with
    | false => rfl
    | true =>
      dsimp only
      split
      case h_1 failed =>
        rw [failed]
        rfl
      case h_2 known =>
        rw [known]
        rfl

/-- What the members of a type are flattened to. -/
def Shows (type text : List Char) : Prop := ∃ members, typeMembers type = .ok members ∧ flatten (.object members) = some text

theorem showsAll_iff {types texts : List (List Char)} :
    (∃ components, handleTupleComponents types = .ok components ∧ flattenAll components = some texts) ↔ List.Forall₂ Shows types texts := by
  induction types generalizing texts with
  | nil =>
    rw [handleTupleComponents, List.forall₂_nil_left_iff]
    constructor
    · rintro ⟨components, done, flat⟩
      cases done
      exact (Option.some.inj flat).symm
    · intro empty
      exact ⟨[], rfl, congrArg some empty.symm⟩
  | cons type rest ih =>
    rw [handleTupleComponents_cons]
    constructor
    · rintro ⟨components, done, flat⟩
      obtain ⟨members, first, done⟩ := bind_eq_ok.mp done
      obtain ⟨others, later, done⟩ := bind_eq_ok.mp done
      cases done
      rw [flattenAll] at flat
      obtain ⟨text, shown, flat⟩ := Option.bind_eq_some_iff.mp flat
      obtain ⟨behind, further, flat⟩ := Option.bind_eq_some_iff.mp flat
      cases flat
      exact .cons ⟨members, first, shown⟩ (ih.mp ⟨others, later, further⟩)
    · intro all
      cases all with
      | cons first later =>
        obtain ⟨members, done, shown⟩ := first
        obtain ⟨others, rest, further⟩ := ih.mpr later
        refine ⟨.object members :: others, bind_eq_ok.mpr ⟨members, done, bind_eq_ok.mpr ⟨others, rest, rfl⟩⟩, ?_⟩
        rw [flattenAll, shown, further]
        rfl

theorem charAt_of_lt {text : List Char} {i : Nat} (inside : i < text.length) : charAt text i = text[i] := by
  unfold charAt
  rw [List.getD_eq_getElem?_getD, List.getElem?_eq_getElem inside]
  rfl

variable {type : List Char}

private theorem isArray_ok (long : 2 ≤ type.length) : ∃ array, isArray type = .ok array := by
  unfold isArray
  rw [if_neg (Nat.not_lt.mpr long)]
  exact ⟨_, rfl⟩

theorem isArray_long {array : Bool} (read : isArray type = .ok array) : 2 ≤ type.length := by
  unfold isArray at read
  split at read
  case isTrue => cases read
  case isFalse long => exact Nat.not_lt.mp long

theorem countFrom_ok (opened : charAt type 0 = '(') : ∀ start count, ∃ total, countFrom type start count = .ok total := by
  intro start
  induction start using Nat.twoStepInduction with
  | zero => exact fun count => ⟨count, rfl⟩
  | one =>
    intro count
    refine ⟨count, ?_⟩
    unfold countFrom
    rw [opened, if_neg (by decide)]
  | more start ih _ =>
    intro count
    unfold countFrom
    split
    case isTrue => exact ih (count + 1)
    case isFalse => exact ⟨count, rfl⟩

theorem isTuple_ok (long : 2 ≤ type.length) : ∃ tuple, isTuple type = .ok tuple := by
  obtain ⟨array, read⟩ := isArray_ok long
  unfold isTuple
  rw [read]
  cases array with
  | false => exact ⟨_, rfl⟩
  | true =>
    change ∃ tuple, (if charAt type 0 = '(' then _ else _ : Except Exception Bool) = .ok tuple
    split
    case isTrue opened =>
      obtain ⟨count, counted⟩ := countFrom_ok opened (countStart type.length) 0
      refine ⟨charAt type (type.length - 2 * count - 1) = ')', ?_⟩
      unfold countTupleArrays
      rw [counted]
      rfl
    case isFalse => exact ⟨false, rfl⟩

theorem isTuple_long {tuple : Bool} (read : isTuple type = .ok tuple) : 2 ≤ type.length := by
  obtain ⟨array, first, _⟩ := bind_eq_ok.mp read
  exact isArray_long first

/-- What a name is taken for that is taken for a tuple: parentheses with something inside, and brackets behind them. -/
structure Taken (type : List Char) (count : Nat) (inner tail : List Char) : Prop where
  text : type = '(' :: (inner ++ ')' :: tail)
  size : tail.length = 2 * count
  counted : arrays type = .ok count
  types : getTupleTypes type = .ok (splitTypes inner 0 [])

theorem text_between {text : List Char} {last : Nat} (first : charAt text 0 = '(') (positive : 0 < last) (inside : last < text.length)
    (closed : charAt text last = ')') : text = '(' :: ((text.drop 1).take (last - 1) ++ ')' :: text.drop (last + 1)) := by
  cases text with
  | nil => exact absurd inside (Nat.not_lt_zero last)
  | cons head rest =>
    obtain ⟨before, rfl⟩ := Nat.exists_eq_succ_of_ne_zero (Nat.ne_of_gt positive)
    have within : before < rest.length := Nat.lt_of_succ_lt_succ inside
    have head_open : head = '(' := first
    have close : rest[before] = ')' := by
      rw [← charAt_of_lt within]
      exact closed
    rw [head_open]
    apply congrArg ('(' :: ·)
    change rest = rest.take before ++ ')' :: rest.drop (before + 1)
    rw [← close, ← List.drop_eq_getElem_cons within, List.take_append_drop]

theorem taken_of (tuple : isTuple type = .ok true) : ∃ count inner tail, Taken type count inner tail := by
  have long := isTuple_long tuple
  obtain ⟨array, read, decided⟩ := bind_eq_ok.mp tuple
  have found : ∃ count, arrays type = .ok count ∧ charAt type 0 = '(' ∧ charAt type (type.length - 2 * count - 1) = ')' := by
    unfold arrays
    rw [read]
    cases array with
    | false =>
      have both := Except.ok.inj decided
      rw [Bool.and_eq_true, decide_eq_true_eq, decide_eq_true_eq] at both
      exact ⟨0, rfl, both⟩
    | true =>
      change (if charAt type 0 = '(' then _ else _ : Except Exception Bool) = .ok true at decided
      split at decided
      case isTrue opened =>
        obtain ⟨count, counted, closed⟩ := bind_eq_ok.mp decided
        exact ⟨count, counted, opened, of_decide_eq_true (Except.ok.inj closed)⟩
      case isFalse => cases decided
  obtain ⟨count, counted, opened, closed⟩ := found
  have positive : 0 < type.length - 2 * count - 1 := by
    apply Nat.pos_of_ne_zero
    intro zero
    rw [zero, opened] at closed
    exact absurd closed (by decide)
  refine ⟨count, (type.drop 1).take (type.length - 2 * count - 1 - 1), type.drop (type.length - 2 * count - 1 + 1), ?_⟩
  constructor
  case text => exact text_between opened positive (by omega) closed
  case size =>
    rw [List.length_drop]
    omega
  case counted => exact counted
  case types =>
    unfold getTupleTypes
    rw [counted]
    apply congrArg (fun inner => Except.ok (splitTypes inner 0 []))
    rw [List.take_take, List.length_take, List.length_drop]
    congr 1
    omega

theorem joined_cons (text : List Char) {rest : List (List Char)} (some : rest ≠ []) : joined (text :: rest) = text ++ ',' :: joined rest := by
  unfold joined
  rw [List.intercalate_cons_of_ne_nil some, List.append_assoc]
  rfl

theorem splitTypes_some (text : List Char) : ∀ counter tmp, splitTypes text counter tmp ≠ [] := by
  induction text with
  | nil => exact fun _ _ => List.cons_ne_nil _ _
  | cons c rest ih =>
    intro counter tmp
    unfold splitTypes
    dsimp only
    split
    · exact List.cons_ne_nil _ _
    · exact ih _ _

/-- Wherever a text is split, its pieces make it up again. -/
theorem joined_splitTypes (text : List Char) : ∀ counter tmp, joined (splitTypes text counter tmp) = tmp ++ text := by
  induction text with
  | nil =>
    intro counter tmp
    rw [List.append_nil]
    exact List.intercalate_singleton
  | cons c rest ih =>
    intro counter tmp
    unfold splitTypes
    dsimp only
    split
    case isTrue comma =>
      rw [joined_cons _ (splitTypes_some _ _ _), ih, comma.1]
      rfl
    case isFalse =>
      rw [ih, List.append_assoc]
      rfl

theorem piece_length {text : List Char} {counter : UInt16} {piece : List Char} (member : piece ∈ splitTypes text counter []) :
    piece.length ≤ text.length := by
  have size := splitTypes_size text counter []
  have part : piece.length + 1 ≤ ((splitTypes text counter []).map fun type => type.length + 1).sum :=
    List.le_sum_of_mem (List.mem_map.mpr ⟨piece, member, rfl⟩)
  rw [size, List.length_nil] at part
  omega

theorem shows_plain {type text : List Char} (plain : isTuple type = .ok false) : Shows type text ↔ text = type := by
  unfold Shows typeMembers
  rw [plain]
  constructor
  · rintro ⟨members, done, flat⟩
    cases done
    rw [flatten_plain] at flat
    exact (Option.some.inj flat).symm
  · rintro rfl
    exact ⟨_, rfl, flatten_plain text⟩

theorem shows_taken {type text : List Char} {count : Nat} {inner tail : List Char} (tuple : isTuple type = .ok true)
    (taken : Taken type count inner tail) : Shows type text ↔
      ∃ texts, List.Forall₂ Shows (splitTypes inner 0 []) texts ∧ text = '(' :: joined texts ++ ')' :: brackets count := by
  unfold Shows typeMembers
  rw [tuple]
  change (∃ members, (getTupleTypes type >>= fun types => handleTupleComponents types >>= fun components => tupleMembers type components) = .ok members ∧ _) ↔ _
  rw [taken.types]
  unfold tupleMembers
  rw [taken.counted]
  constructor
  · rintro ⟨members, done, flat⟩
    obtain ⟨pieces, split, done⟩ := bind_eq_ok.mp done
    cases split
    obtain ⟨components, inside, done⟩ := bind_eq_ok.mp done
    cases done
    rw [flatten_tuple] at flat
    obtain ⟨texts, all, same⟩ := Option.map_eq_some_iff.mp flat
    exact ⟨texts, showsAll_iff.mp ⟨components, inside, all⟩, same.symm⟩
  · rintro ⟨texts, all, rfl⟩
    obtain ⟨components, inside, flat⟩ := showsAll_iff.mpr all
    refine ⟨_, bind_eq_ok.mpr ⟨_, rfl, bind_eq_ok.mpr ⟨components, inside, rfl⟩⟩, ?_⟩
    rw [flatten_tuple, flat]
    rfl

/-- Texts of the same lengths in the same places. -/
def Measured (types texts : List (List Char)) : Prop := List.Forall₂ (fun type text => text.length = type.length) types texts

theorem joined_length {types texts : List (List Char)} (measured : Measured types texts) : (joined texts).length = (joined types).length := by
  induction measured with
  | nil => rfl
  | @cons type text types texts same rest ih =>
    cases rest with
    | nil =>
      unfold joined
      rw [List.intercalate_singleton, List.intercalate_singleton]
      exact same
    | cons =>
      rw [joined_cons _ (List.cons_ne_nil _ _), joined_cons _ (List.cons_ne_nil _ _), List.length_append, List.length_append, same,
        List.length_cons, List.length_cons, ih]

theorem joined_inj {types texts : List (List Char)} (measured : Measured types texts) (whole : joined texts = joined types) : texts = types := by
  induction measured with
  | nil => rfl
  | @cons type text types texts same rest ih =>
    cases rest with
    | nil =>
      unfold joined at whole
      rw [List.intercalate_singleton, List.intercalate_singleton] at whole
      rw [whole]
    | cons =>
      rw [joined_cons _ (List.cons_ne_nil _ _), joined_cons _ (List.cons_ne_nil _ _)] at whole
      obtain ⟨first, later⟩ := List.append_inj whole same
      rw [first, ih (List.cons.inj later).2]

/-- Whatever is shown has as many characters as the name. -/
theorem shows_length (size : Nat) : ∀ type text, type.length = size → Shows type text → text.length = type.length := by
  induction size using Nat.strong_induction_on with
  | _ size ih =>
    intro type text long shows
    obtain ⟨members, done, _⟩ := id shows
    obtain ⟨tuple, read, _⟩ := bind_eq_ok.mp done
    cases tuple with
    | false => rw [(shows_plain read).mp shows]
    | true =>
      obtain ⟨count, inner, tail, taken⟩ := taken_of read
      obtain ⟨texts, all, rfl⟩ := (shows_taken read taken).mp shows
      have total : type.length = inner.length + 2 * count + 2 := by
        rw [taken.text, List.length_cons, List.length_append, List.length_cons, taken.size]
        omega
      have measured : Measured (splitTypes inner 0 []) texts := by
        refine List.forall₂_iff_zip.mpr ⟨all.length_eq, ?_⟩
        intro piece text pair
        have short := piece_length (List.of_mem_zip pair).1
        exact ih piece.length (by omega) piece text rfl ((List.forall₂_iff_zip.mp all).2 pair)
      have whole := joined_length measured
      rw [joined_splitTypes, List.nil_append] at whole
      change (('(' :: joined texts) ++ ')' :: brackets count).length = _
      rw [List.length_append, List.length_cons, List.length_cons, brackets_length, whole, total]
      omega

/-- A name, and what is inside of what is taken for a tuple. -/
inductive Reached : List Char → List Char → Prop where
  | here (type : List Char) : Reached type type
  | inside {type piece last : List Char} {types : List (List Char)} (tuple : isTuple type = .ok true)
      (split : getTupleTypes type = .ok types) (member : piece ∈ types) (further : Reached piece last) : Reached type last

/-- Brackets are taken from the end that are not there. -/
def Misread (type : List Char) : Prop :=
  isTuple type = .ok true ∧ ∃ count, arrays type = .ok count ∧ type.drop (type.length - 2 * count) ≠ brackets count

/-- Nothing is too short to be looked at. -/
def Parsed (type : List Char) : Prop := ∀ piece, Reached type piece → 2 ≤ piece.length

def Legible (type : List Char) : Prop := ∀ piece, Reached type piece → 2 ≤ piece.length ∧ ¬ Misread piece

private theorem reached_plain {type piece : List Char} (plain : isTuple type ≠ .ok true) (reached : Reached type piece) : piece = type := by
  cases reached with
  | here => rfl
  | inside tuple => exact absurd tuple plain

theorem taken_tail {count : Nat} {inner tail : List Char} (taken : Taken type count inner tail) :
    type.drop (type.length - 2 * count) = tail := by
  have front : type = ('(' :: inner ++ [')']) ++ tail := by
    rw [taken.text, List.append_assoc]
    rfl
  have size : type.length - 2 * count = ('(' :: inner ++ [')']).length := by
    rw [← taken.size, front, List.length_append]
    omega
  rw [size]
  exact (congrArg _ front).trans List.drop_left

theorem misread_iff {count : Nat} {inner tail : List Char} (tuple : isTuple type = .ok true)
    (taken : Taken type count inner tail) : Misread type ↔ tail ≠ brackets count := by
  constructor
  · rintro ⟨_, other, counted, wrong⟩
    cases taken.counted.symm.trans counted
    rw [taken_tail taken] at wrong
    exact wrong
  · intro wrong
    refine ⟨tuple, count, taken.counted, ?_⟩
    rw [taken_tail taken]
    exact wrong

theorem taken_shorter {count : Nat} {inner tail piece : List Char} (taken : Taken type count inner tail)
    (member : piece ∈ splitTypes inner 0 []) : piece.length < type.length := by
  have short := piece_length member
  rw [taken.text, List.length_cons, List.length_append]
  omega

/-- A name comes back if and only if all that is reached is long enough and none of it is misread. -/
theorem shows_self_iff (size : Nat) : ∀ type, type.length = size → (Shows type type ↔ Legible type) := by
  induction size using Nat.strong_induction_on with
  | _ size ih =>
    intro type long
    constructor
    · intro shows piece reached
      obtain ⟨members, done, _⟩ := id shows
      obtain ⟨tuple, read, _⟩ := bind_eq_ok.mp done
      cases tuple with
      | false =>
        have plain : isTuple type ≠ .ok true := by
          rw [read]
          simp
        cases reached_plain plain reached
        exact ⟨isTuple_long read, fun misread => plain misread.1⟩
      | true =>
        obtain ⟨count, inner, tail, taken⟩ := taken_of read
        obtain ⟨texts, all, whole⟩ := (shows_taken read taken).mp shows
        have measured : Measured (splitTypes inner 0 []) texts := all.imp fun piece text pair => shows_length _ piece text rfl pair
        have inside := joined_length measured
        rw [joined_splitTypes, List.nil_append] at inside
        rw [taken.text] at whole
        obtain ⟨front, back⟩ := List.append_inj (List.cons.inj whole).2 inside.symm
        have same : texts = splitTypes inner 0 [] := by
          apply joined_inj measured
          rw [joined_splitTypes, List.nil_append]
          exact front.symm
        cases reached with
        | here => exact ⟨isTuple_long read, fun misread => (misread_iff read taken).mp misread (List.cons.inj back).2⟩
        | @inside _ inner_piece _ types _ split member further =>
          cases taken.types.symm.trans split
          rw [same] at all
          have itself := List.forall₂_same.mp all inner_piece member
          exact (ih _ (long ▸ taken_shorter taken member) inner_piece rfl).mp itself piece further
    · intro legible
      obtain ⟨enough, right⟩ := legible type (.here type)
      obtain ⟨tuple, read⟩ := isTuple_ok enough
      cases tuple with
      | false => exact (shows_plain read).mpr rfl
      | true =>
        obtain ⟨count, inner, tail, taken⟩ := taken_of read
        have there : tail = brackets count := not_not.mp fun wrong => right ((misread_iff read taken).mpr wrong)
        refine (shows_taken read taken).mpr ⟨splitTypes inner 0 [], ?_, ?_⟩
        · apply List.forall₂_same.mpr
          intro piece member
          apply (ih _ (long ▸ taken_shorter taken member) piece rfl).mpr
          exact fun last further => legible last (.inside read taken.types member further)
        · rw [joined_splitTypes, List.nil_append, ← there]
          exact taken.text

theorem components_iff (types : List (List Char)) : (∃ components, handleTupleComponents types = .ok components) ↔
    ∀ type ∈ types, ∃ members, typeMembers type = .ok members := by
  induction types with
  | nil =>
    rw [handleTupleComponents]
    exact iff_of_true ⟨[], rfl⟩ fun _ member => absurd member List.not_mem_nil
  | cons type rest ih =>
    rw [handleTupleComponents_cons, List.forall_mem_cons, ← ih]
    constructor
    · rintro ⟨components, done⟩
      obtain ⟨members, first, done⟩ := bind_eq_ok.mp done
      obtain ⟨others, later, _⟩ := bind_eq_ok.mp done
      exact ⟨⟨members, first⟩, others, later⟩
    · rintro ⟨⟨members, first⟩, others, later⟩
      exact ⟨_, bind_eq_ok.mpr ⟨members, first, bind_eq_ok.mpr ⟨others, later, rfl⟩⟩⟩

/-- There is a description if and only if all that is reached is long enough. -/
theorem parsed_iff (size : Nat) : ∀ type, type.length = size → ((∃ members, typeMembers type = .ok members) ↔ Parsed type) := by
  induction size using Nat.strong_induction_on with
  | _ size ih =>
    intro type long
    constructor
    · rintro ⟨members, done⟩ piece reached
      obtain ⟨tuple, read, done⟩ := bind_eq_ok.mp done
      cases reached with
      | here => exact isTuple_long read
      | @inside _ inner _ types known split member further =>
        cases read.symm.trans known
        obtain ⟨pieces, same, done⟩ := bind_eq_ok.mp done
        cases same.symm.trans split
        obtain ⟨components, all, _⟩ := bind_eq_ok.mp done
        have shorter : inner.length < type.length := by
          obtain ⟨count, text, tail, taken⟩ := taken_of known
          cases taken.types.symm.trans split
          exact taken_shorter taken member
        exact (ih _ (long ▸ shorter) inner rfl).mp ((components_iff types).mp ⟨components, all⟩ inner member) piece further
    · intro parsed
      obtain ⟨tuple, read⟩ := isTuple_ok (parsed type (.here type))
      unfold typeMembers
      rw [read]
      cases tuple with
      | false => exact ⟨_, rfl⟩
      | true =>
        obtain ⟨count, inner, tail, taken⟩ := taken_of read
        have each : ∀ piece ∈ splitTypes inner 0 [], ∃ members, typeMembers piece = .ok members := by
          intro piece member
          apply (ih _ (long ▸ taken_shorter taken member) piece rfl).mpr
          exact fun last further => parsed last (.inside read taken.types member further)
        obtain ⟨components, all⟩ := (components_iff _).mpr each
        obtain ⟨members, made⟩ : ∃ members, tupleMembers type components = .ok members := ⟨_, bind_eq_ok.mpr ⟨count, taken.counted, rfl⟩⟩
        exact ⟨members, bind_eq_ok.mpr ⟨true, rfl, bind_eq_ok.mpr ⟨_, taken.types, bind_eq_ok.mpr ⟨components, all, made⟩⟩⟩⟩

theorem typeMembers_iff (type : List Char) : (∃ members, typeMembers type = .ok members) ↔ Parsed type := parsed_iff _ type rfl

theorem shows_iff_legible (type : List Char) : Shows type type ↔ Legible type := shows_self_iff _ type rfl

end OrbiterSDK.Proofs.TypeTexts
