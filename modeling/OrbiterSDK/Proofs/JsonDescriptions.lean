import OrbiterSDK.Proofs.TypeTexts

/-! Which descriptions of methods and events tell clients the signatures that the node hashes. -/

namespace OrbiterSDK.Proofs.JsonDescriptions
open Lib Hex ABI FunctorEncoder ContractReflectionInterface JsonAbi TypeTexts

def isLetter (c : Char) : Bool := !(['(', ')', '[', ']', ','].contains c)

/-- There are two letters between any two commas, if so many have been seen. -/
def full : Nat → List Char → Bool
  | seen, [] => 2 ≤ seen
  | seen, c :: rest => if c = ',' then 2 ≤ seen && full 0 rest else full (seen + if isLetter c then 1 else 0) rest

/-- Parentheses and brackets. -/
def Plain (text : List Char) : Prop := ∀ c ∈ text, c ≠ ',' ∧ isLetter c = false

theorem full_plain {text : List Char} (plain : Plain text) (rest : List Char) : ∀ seen, full seen (text ++ rest) = full seen rest := by
  induction text with
  | nil => exact fun _ => rfl
  | cons c text ih =>
    intro seen
    obtain ⟨other, blank⟩ := plain c List.mem_cons_self
    rw [List.cons_append, full, if_neg other, blank]
    exact ih (fun c member => plain c (List.mem_cons_of_mem _ member)) seen

theorem full_end {tail : List Char} (plain : Plain tail) (text : List Char) : ∀ seen, full seen (text ++ tail) = full seen text := by
  induction text with
  | nil =>
    intro seen
    have same := full_plain plain [] seen
    rw [List.append_nil] at same
    exact same
  | cons c text ih =>
    intro seen
    rw [List.cons_append, full, full]
    split
    · rw [ih]
    · exact ih _

theorem full_comma (text rest : List Char) : ∀ seen, full seen (text ++ ',' :: rest) = (full seen text && full 0 rest) := by
  induction text with
  | nil =>
    intro seen
    exact if_pos rfl
  | cons c text ih =>
    intro seen
    rw [List.cons_append, full, full]
    split
    · rw [ih, Bool.and_assoc]
    · exact ih _

theorem full_length (text : List Char) : ∀ seen, full seen text = true → 2 ≤ seen + text.length := by
  induction text with
  | nil =>
    intro seen enough
    exact of_decide_eq_true enough
  | cons c text ih =>
    intro seen enough
    unfold full at enough
    split at enough
    · rw [Bool.and_eq_true, decide_eq_true_eq] at enough
      exact Nat.le_trans enough.1 (Nat.le_add_right _ _)
    · have more := ih _ enough
      rw [List.length_cons]
      split at more
      · omega
      · omega

theorem full_splitTypes (text : List Char) : ∀ counter tmp, full 0 (tmp ++ text) = true →
    ∀ piece ∈ splitTypes text counter tmp, full 0 piece = true := by
  induction text with
  | nil =>
    intro counter tmp enough piece member
    rw [List.append_nil] at enough
    cases List.mem_singleton.mp member
    exact enough
  | cons c rest ih =>
    intro counter tmp enough
    unfold splitTypes
    dsimp only
    split
    case isTrue comma =>
      rw [comma.1, full_comma, Bool.and_eq_true] at enough
      exact List.forall_mem_cons.mpr ⟨enough.1, ih _ [] enough.2⟩
    case isFalse =>
      apply ih
      rw [List.append_assoc]
      exact enough

theorem plain_brackets (count : Nat) : Plain (brackets count) := by
  intro c member
  obtain ⟨pair, listed, inside⟩ := List.mem_flatten.mp member
  cases List.eq_of_mem_replicate listed
  rcases List.mem_cons.mp inside with same | inside
  · subst same
    decide
  · cases List.mem_singleton.mp inside
    decide

private theorem full_tuple (inner : List Char) (count : Nat) : full 0 ('(' :: (inner ++ ')' :: brackets count)) = full 0 inner := by
  have opening : Plain ['('] := List.forall_mem_singleton.mpr (by decide)
  have closing : Plain (')' :: brackets count) := List.forall_mem_cons.mpr ⟨by decide, plain_brackets count⟩
  exact (full_plain opening _ 0).trans (full_end closing inner 0)

theorem countFrom_brackets {type : List Char} : ∀ start count total, start ≤ type.length → countFrom type start count = .ok total →
    ∃ found, total = count + found ∧ 2 * found ≤ start ∧ (type.take start).drop (start - 2 * found) = brackets found := by
  intro start
  induction start using Nat.twoStepInduction with
  | zero =>
    intro count total _ done
    cases done
    exact ⟨0, rfl, Nat.le_refl 0, rfl⟩
  | one =>
    intro count total inside done
    unfold countFrom at done
    split at done
    · cases done
    · cases done
      refine ⟨0, rfl, Nat.zero_le 1, ?_⟩
      exact List.drop_eq_nil_of_le (List.length_take_le _ _)
  | more start ih _ =>
    intro count total inside done
    unfold countFrom at done
    split at done
    case isTrue both =>
      obtain ⟨found, rfl, less, there⟩ := ih (count + 1) total (by omega) done
      refine ⟨found + 1, by omega, by omega, ?_⟩
      have pair : type.take (start + 2) = type.take start ++ ['[', ']'] := by
        rw [List.take_add_one, List.take_add_one, List.getElem?_eq_getElem (by omega), List.getElem?_eq_getElem (by omega), List.append_assoc,
          ← charAt_of_lt, ← charAt_of_lt, both.1, both.2]
        rfl
      have size : (type.take start).length = start := List.length_take_of_le (by omega)
      have back : start + 2 - 2 * (found + 1) = start - 2 * found := by omega
      rw [pair, back, List.drop_append_of_le_length (by omega), there]
      unfold brackets
      rw [List.replicate_succ', List.flatten_append]
      rfl
    case isFalse =>
      cases done
      refine ⟨0, rfl, Nat.zero_le _, ?_⟩
      exact List.drop_eq_nil_of_le (List.length_take_le _ _)

theorem countStart_short {size : Nat} (short : size ≤ 2 ^ 32) : countStart size = size ∨ countStart size = 0 := by
  unfold countStart
  by_cases half : size ≤ 2 ^ 31
  · left
    rw [Int.bmod_def]
    omega
  · right
    rw [Int.bmod_def]
    omega

theorem misread_long {type : List Char} (misread : Misread type) : 2 ^ 32 < type.length := by
  by_contra short
  obtain ⟨tuple, count, counted, wrong⟩ := misread
  apply wrong
  obtain ⟨array, read, counted⟩ := bind_eq_ok.mp counted
  cases array with
  | false =>
    cases counted
    exact List.drop_length
  | true =>
    have counted : countFrom type (countStart type.length) 0 = .ok count := counted
    rcases countStart_short (Nat.not_lt.mp short) with whole | none
    · rw [whole] at counted
      obtain ⟨found, same, _, there⟩ := countFrom_brackets _ _ _ (Nat.le_refl _) counted
      rw [List.take_length] at there
      rw [Nat.zero_add] at same
      rw [same]
      exact there
    · rw [none] at counted
      cases counted
      exact List.drop_length

/-- Names that are not too long, and with letters between their commas. -/
theorem legible_full {type : List Char} (enough : full 0 type = true) (short : type.length ≤ 2 ^ 32) : Legible type := by
  intro piece reached
  induction reached with
  | here type =>
    have letters := full_length type 0 enough
    rw [Nat.zero_add] at letters
    exact ⟨letters, fun misread => Nat.not_lt.mpr short (misread_long misread)⟩
  | @inside type piece last types tuple split member further ih =>
    obtain ⟨count, inner, tail, taken⟩ := taken_of tuple
    cases taken.types.symm.trans split
    have shorter := taken_shorter taken member
    have there : tail = brackets count :=
      not_not.mp fun wrong => Nat.not_lt.mpr short (misread_long ((misread_iff tuple taken).mpr wrong))
    rw [taken.text, there, full_tuple] at enough
    exact ih (full_splitTypes inner 0 [] enough piece member) (Nat.le_of_lt (shorter.trans_le short))

mutual

/-- No tuple is empty. -/
def solid : ParamType → Bool
  | .word _ => true
  | .bytes => true
  | .string => true
  | .vector element => solid element
  | .tuple members => !members.isEmpty && allSolid members

def allSolid : List ParamType → Bool
  | [] => true
  | ty :: rest => solid ty && allSolid rest

end

theorem commaSeparated_eq (names : List (List Char)) : commaSeparated names = joined names := by
  have commas : ∀ name rest, ((name :: rest).map fun name => name ++ [',']).flatten = joined (name :: rest) ++ [','] := by
    intro name rest
    induction rest generalizing name with
    | nil =>
      unfold joined
      rw [List.intercalate_singleton]
      exact List.append_nil _
    | cons next rest ih =>
      rw [List.map_cons, List.flatten_cons, ih, joined_cons name (List.cons_ne_nil _ _), List.append_assoc, List.append_assoc]
      rfl
  unfold commaSeparated
  cases names with
  | nil => rfl
  | cons name rest =>
    dsimp only
    rw [commas, if_pos (List.append_ne_nil_of_right_ne_nil _ (List.cons_ne_nil _ _)), List.dropLast_concat]

theorem full_joined {names : List (List Char)} (some : names ≠ []) (every : ∀ name ∈ names, full 0 name = true) : full 0 (joined names) = true := by
  induction names with
  | nil => exact absurd rfl some
  | cons name rest ih =>
    obtain ⟨first, later⟩ := List.forall_mem_cons.mp every
    cases rest with
    | nil =>
      unfold joined
      rw [List.intercalate_singleton]
      exact first
    | cons next rest =>
      rw [joined_cons name (List.cons_ne_nil _ _), full_comma, first]
      exact ih (List.cons_ne_nil _ _) later

theorem full_wordName (word : Word) : full 0 (wordName word) = true := by
  cases word with
  | uint more =>
    revert more
    decide +kernel
  | int more =>
    revert more
    decide +kernel
  | bool => decide
  | address => decide
  | hash => decide
  | enumeration => exact (by decide : full 0 "uint8".toList = true)

private theorem typeName_vector {element : ParamType} (other : element ≠ .word (.uint 0)) :
    typeName (.vector element) = typeName element ++ "[]".toList := by
  rw [typeName]
  exact other

theorem listArgumentTypesV_some {types : List ParamType} (some : types.isEmpty = false) : listArgumentTypesV types ≠ [] := by
  cases types with
  | nil => cases some
  | cons ty rest => exact List.cons_ne_nil _ _

mutual

theorem full_typeName : (ty : ParamType) → solid ty = true → full 0 (typeName ty) = true
  | .word word, _ => full_wordName word
  | .bytes, _ => by decide
  | .string, _ => by decide
  | .vector element, whole => by
    by_cases bytes : element = .word (.uint 0)
    · subst bytes
      decide
    · rw [typeName_vector bytes]
      exact (full_end (plain_brackets 1) (typeName element) 0).trans (full_typeName element whole)
  | .tuple members, whole => by
    obtain ⟨some, every⟩ := Bool.and_eq_true_iff.mp whole
    have text : typeName (.tuple members) = '(' :: (joined (listArgumentTypesV members) ++ ')' :: brackets 0) := by
      rw [typeName, commaSeparated_eq]
      rfl
    have filled : members.isEmpty = false := by simpa using some
    rw [text, full_tuple]
    exact full_joined (listArgumentTypesV_some filled) (full_listArgumentTypesV members every)

theorem full_listArgumentTypesV : (types : List ParamType) → allSolid types = true → ∀ name ∈ listArgumentTypesV types, full 0 name = true
  | [], _ => fun _ member => absurd member List.not_mem_nil
  | ty :: rest, every => by
    obtain ⟨first, later⟩ := Bool.and_eq_true_iff.mp every
    exact List.forall_mem_cons.mpr ⟨full_typeName ty first, full_listArgumentTypesV rest later⟩

end

section Inputs
variable {α : Type} {convert : α → Except Exception Json} {typeOf : α → List Char}

theorem inputs_shows (each : ∀ entry text, (∃ json, convert entry = .ok json ∧ flatten json = some text) ↔ Shows (typeOf entry) text)
    (entries : List α) : ∀ texts, (∃ values, entries.mapM convert = .ok values ∧ flattenAll values = some texts) ↔
      List.Forall₂ Shows (entries.map typeOf) texts := by
  induction entries with
  | nil =>
    intro texts
    rw [List.map_nil, List.forall₂_nil_left_iff]
    constructor
    · rintro ⟨values, done, flat⟩
      cases done
      exact (Option.some.inj flat).symm
    · intro empty
      exact ⟨[], rfl, congrArg some empty.symm⟩
  | cons entry rest ih =>
    intro texts
    constructor
    · rintro ⟨values, done, flat⟩
      obtain ⟨json, first, others, later, rfl⟩ := mapM_ok_cons.mp done
      rw [flattenAll] at flat
      obtain ⟨text, shown, flat⟩ := Option.bind_eq_some_iff.mp flat
      obtain ⟨behind, further, flat⟩ := Option.bind_eq_some_iff.mp flat
      cases flat
      exact .cons ((each entry text).mp ⟨json, first, shown⟩) ((ih behind).mp ⟨others, later, further⟩)
    · intro all
      rw [List.map_cons] at all
      cases all with
      | @cons _ text _ behind first later =>
        obtain ⟨json, done, shown⟩ := (each entry text).mpr first
        obtain ⟨others, rest, further⟩ := (ih behind).mpr later
        refine ⟨json :: others, mapM_ok_cons.mpr ⟨json, done, others, rest, rfl⟩, ?_⟩
        rw [flattenAll, shown, further]
        rfl

/-- The names come back if and only if each of them does. -/
theorem inputs_legible (each : ∀ entry text, (∃ json, convert entry = .ok json ∧ flatten json = some text) ↔ Shows (typeOf entry) text)
    (entries : List α) : (∃ values, entries.mapM convert = .ok values ∧ (flattenAll values).map joined = some (joined (entries.map typeOf))) ↔
      ∀ name ∈ entries.map typeOf, Legible name := by
  constructor
  · rintro ⟨values, done, flat⟩
    obtain ⟨texts, all, whole⟩ := Option.map_eq_some_iff.mp flat
    have shows := (inputs_shows each entries texts).mp ⟨values, done, all⟩
    have measured : Measured (entries.map typeOf) texts := shows.imp fun name text pair => shows_length _ name text rfl pair
    have same := joined_inj measured whole
    rw [same] at shows
    exact fun name member => (shows_iff_legible name).mp (List.forall₂_same.mp shows name member)
  · intro legible
    have shows : List.Forall₂ Shows (entries.map typeOf) (entries.map typeOf) :=
      List.forall₂_same.mpr fun name member => (shows_iff_legible name).mpr (legible name member)
    obtain ⟨values, done, all⟩ := (inputs_shows each entries _).mpr shows
    exact ⟨values, done, congrArg (Option.map joined) all⟩

end Inputs

theorem flatten_described {type text : List Char} (extra : List (String × Json))
    (same : ∀ members, flatten (.object (extra ++ members)) = flatten (.object members)) :
    (∃ json, (typeMembers type >>= fun members => pure (.object (extra ++ members))) = Except.ok json ∧ flatten json = some text) ↔
      Shows type text := by
  constructor
  · rintro ⟨json, done, flat⟩
    obtain ⟨members, made, done⟩ := bind_eq_ok.mp done
    cases done
    exact ⟨members, made, same members ▸ flat⟩
  · rintro ⟨members, made, flat⟩
    exact ⟨_, bind_eq_ok.mpr ⟨members, made, rfl⟩, (same members).trans flat⟩

theorem method_input_shows (input : List Char × String) (text : List Char) :
    (∃ json, (typeMembers input.1 >>= fun inObj => pure (.object (("name", .string input.2) :: inObj))) = Except.ok json ∧
      flatten json = some text) ↔ Shows input.1 text :=
  flatten_described [("name", .string input.2)] fun members => flatten_extra members (by decide) (by decide)

theorem event_arg_shows (arg : List Char × String × Bool) (text : List Char) :
    (∃ json, (typeMembers arg.1 >>= fun inObj => pure (.object (("indexed", .boolean arg.2.2) :: ("name", .string arg.2.1) :: inObj))) = Except.ok json ∧
      flatten json = some text) ↔ Shows arg.1 text :=
  flatten_described [("indexed", .boolean arg.2.2), ("name", .string arg.2.1)] fun members =>
    (flatten_extra _ (by decide) (by decide)).trans (flatten_extra members (by decide) (by decide))

theorem outputs_iff (outputs : List (List Char)) : (∃ values, parseMethodOutput outputs = .ok values) ↔
    outputs = [[]] ∨ ∀ output ∈ outputs, Parsed output := by
  have each : ∀ output, (∃ json, (outputMembers output >>= fun outObj => pure (Json.object outObj)) = Except.ok json) ↔ Parsed output := by
    intro output
    rw [← typeMembers_iff]
    constructor
    · rintro ⟨json, done⟩
      obtain ⟨members, made, _⟩ := bind_eq_ok.mp done
      obtain ⟨_, _, made⟩ := bind_eq_ok.mp made
      obtain ⟨inner, described, _⟩ := bind_eq_ok.mp made
      exact ⟨inner, described⟩
    · rintro ⟨inner, described⟩
      obtain ⟨tuple, read, _⟩ := bind_eq_ok.mp described
      exact ⟨_, bind_eq_ok.mpr ⟨_, bind_eq_ok.mpr ⟨tuple, read, bind_eq_ok.mpr ⟨inner, described, rfl⟩⟩, rfl⟩⟩
  unfold parseMethodOutput
  split
  case isTrue nothing => exact iff_of_true ⟨[], rfl⟩ (.inl nothing)
  case isFalse some =>
    constructor
    · rintro ⟨values, done⟩
      right
      intro output member
      obtain ⟨json, _, made⟩ := mapM_mem done member
      exact (each output).mp ⟨json, made⟩
    · rintro (nothing | all)
      · exact absurd nothing some
      · exact mapM_ok fun output member => (each output).mpr (all output member)

/-- The list of types that clients make of the inputs. -/
def inputTypes : Json → Option (List Char)
  | .object members =>
    match members.lookup "inputs" with
    | some (.array values) => (flattenAll values).map joined
    | _ => none
  | _ => none

def clientSignature : Json → Option (List Char)
  | .object members => do
    let name ← textOf members "name"
    let types ← inputTypes (.object members)
    some (name ++ '(' :: types ++ [')'])
  | _ => none

/-- The types that the node lists, and with them the signature that it hashes. -/
structure Tells (json : Json) (name : String) (types : List ParamType) : Prop where
  listed : inputTypes json = some (listArgumentTypes types)
  signed : clientSignature json = some (signature name types)

/-- Outputs that can be read. A single empty one stands for none. -/
def Returned (outputs : List (List Char)) : Prop := outputs = [[]] ∨ ∀ output ∈ outputs, Parsed output

/-- The names that are added to types do not change them. -/
theorem map_mapIdx {α β γ : Type} (entries : List α) (pair : Nat → α → β) (back : β → γ) (forth : α → γ)
    (same : ∀ i entry, back (pair i entry) = forth entry) : (entries.mapIdx pair).map back = entries.map forth := by
  apply List.ext_getElem?
  intro i
  rw [List.getElem?_map, List.getElem?_map, List.getElem?_mapIdx]
  cases entries[i]? with
  | none => rfl
  | some entry => exact congrArg some (same i entry)

theorem tells_of {members : List (String × Json)} {name : String} {types : List ParamType} (named : textOf members "name" = some name.toList)
    (listed : inputTypes (.object members) = some (listArgumentTypes types)) : Tells (.object members) name types := by
  refine ⟨listed, ?_⟩
  rw [clientSignature, named, listed]
  rfl

theorem method_iff (name : String) (stateMutability : FunctionTypes) (types : List ParamType) (argsNames : List String) (rets : List (List Char)) :
    (∃ json, methodToJSON (populateMethodTypesMap name stateMutability (listArgumentTypesV types) argsNames rets) = .ok json ∧ Tells json name types) ↔
      (∀ type ∈ listArgumentTypesV types, Legible type) ∧ Returned rets := by
  have inputs := inputs_legible method_input_shows ((listArgumentTypesV types).mapIdx fun i arg => (arg, argsNames.getD i ""))
  rw [map_mapIdx (listArgumentTypesV types) (fun i arg => (arg, argsNames.getD i "")) Prod.fst id fun _ _ => rfl, List.map_id,
    ← commaSeparated_eq] at inputs
  rw [← inputs]
  unfold Returned
  rw [← outputs_iff]
  constructor
  · rintro ⟨json, done, tells⟩
    obtain ⟨values, made, done⟩ := bind_eq_ok.mp done
    obtain ⟨outputs, returned, done⟩ := bind_eq_ok.mp done
    cases done
    exact ⟨⟨values, made, tells.listed⟩, outputs, returned⟩
  · rintro ⟨⟨values, made, listed⟩, outputs, returned⟩
    exact ⟨_, bind_eq_ok.mpr ⟨values, made, bind_eq_ok.mpr ⟨outputs, returned, rfl⟩⟩, tells_of rfl listed⟩

theorem event_iff (name : String) (anonymous : Bool) (args : List (ParamType × Bool)) (argsNames : List String) :
    (∃ json, eventToJSON (populateEventTypesMap name anonymous (args.map fun arg => (typeName arg.1, arg.2)) argsNames) = .ok json ∧
      Tells json name (args.map Prod.fst)) ↔ ∀ type ∈ listArgumentTypesV (args.map Prod.fst), Legible type := by
  have names : listArgumentTypesV (args.map Prod.fst) = args.map fun arg => typeName arg.1 := by
    induction args with
    | nil => rfl
    | cons arg rest ih => exact congrArg (typeName arg.1 :: ·) ih
  have inputs := inputs_legible event_arg_shows ((args.map fun arg => (typeName arg.1, arg.2)).mapIdx fun i arg => (arg.1, argsNames.getD i "", arg.2))
  have types := map_mapIdx (args.map fun arg => (typeName arg.1, arg.2)) (fun i arg => (arg.1, argsNames.getD i "", arg.2)) Prod.fst Prod.fst
    fun _ _ => rfl
  rw [List.map_map] at types
  rw [types.trans names.symm, ← commaSeparated_eq] at inputs
  rw [← inputs]
  constructor
  · rintro ⟨json, done, tells⟩
    obtain ⟨values, made, done⟩ := bind_eq_ok.mp done
    cases done
    exact ⟨values, made, tells.listed⟩
  · rintro ⟨values, made, listed⟩
    exact ⟨_, bind_eq_ok.mpr ⟨values, made, rfl⟩, tells_of rfl listed⟩

/-- Methods and events are described right if and only if their types are legible, which types without empty tuples are
whose names have no more than 2^32 characters. -/
theorem json_tells_iff (name : String) (stateMutability : FunctionTypes) (anonymous : Bool) (types : List ParamType)
    (args : List (ParamType × Bool)) (argsNames : List String) (rets : List (List Char)) :
    ((∃ json, methodToJSON (populateMethodTypesMap name stateMutability (listArgumentTypesV types) argsNames rets) = .ok json ∧
        Tells json name types) ↔ (∀ type ∈ listArgumentTypesV types, Legible type) ∧ Returned rets) ∧
    ((∃ json, eventToJSON (populateEventTypesMap name anonymous (args.map fun arg => (typeName arg.1, arg.2)) argsNames) = .ok json ∧
        Tells json name (args.map Prod.fst)) ↔ ∀ type ∈ listArgumentTypesV (args.map Prod.fst), Legible type) ∧
    ∀ ty, solid ty = true → (typeName ty).length ≤ 2 ^ 32 → Legible (typeName ty) := by
  refine ⟨method_iff name stateMutability types argsNames rets, event_iff name anonymous args argsNames, ?_⟩
  intro ty whole short
  exact legible_full (full_typeName ty whole) short

def pairs : Nat → ParamType
  | 0 => .bytes
  | depth + 1 => .tuple [pairs depth, pairs depth]

/-- The same with a name that is shorter by one. -/
def uneven : Nat → ParamType
  | 0 => .word .bool
  | depth + 1 => .tuple [uneven depth, pairs depth]

theorem typeName_pair (first second : ParamType) :
    typeName (.tuple [first, second]) = '(' :: (typeName first ++ ',' :: (typeName second ++ [')'])) := by
  rw [typeName, commaSeparated_eq]
  unfold listArgumentTypesV listArgumentTypesV listArgumentTypesV
  rw [joined_cons _ (List.cons_ne_nil _ _)]
  unfold joined
  rw [List.intercalate_singleton]
  change '(' :: ((typeName first ++ ',' :: typeName second) ++ [')']) = _
  rw [List.append_assoc]
  rfl

theorem doubled (depth : Nat) : 2 ^ (depth + 1 + 3) = 2 * 2 ^ (depth + 3) := by
  have same : depth + 1 + 3 = depth + 3 + 1 := Nat.add_right_comm depth 1 3
  rw [same, Nat.pow_succ']

theorem pairs_length (depth : Nat) : (typeName (pairs depth)).length + 3 = 2 ^ (depth + 3) := by
  induction depth with
  | zero => rfl
  | succ depth ih =>
    have double := doubled depth
    unfold pairs
    rw [typeName_pair, List.length_cons, List.length_append, List.length_cons, List.length_append, List.length_singleton]
    omega

theorem uneven_length (depth : Nat) : (typeName (uneven depth)).length + 4 = 2 ^ (depth + 3) := by
  induction depth with
  | zero => rfl
  | succ depth ih =>
    have even := pairs_length depth
    have double := doubled depth
    unfold uneven
    rw [typeName_pair, List.length_cons, List.length_append, List.length_cons, List.length_append, List.length_singleton]
    omega

/-- A list of pairs. Where the loop over the brackets begins, there are those of the first member. -/
def nestedPairs : ParamType := .vector (.tuple [.vector (.vector (.word .bool)), uneven 29])

theorem uneven_closed (depth : Nat) : ∃ front, typeName (uneven (depth + 2)) = front ++ [')', ')'] := by
  refine ⟨'(' :: (typeName (uneven (depth + 1)) ++ ',' :: '(' :: (typeName (pairs depth) ++ ',' :: typeName (pairs depth))), ?_⟩
  have last : typeName (pairs (depth + 1)) = '(' :: (typeName (pairs depth) ++ ',' :: (typeName (pairs depth) ++ [')'])) := typeName_pair _ _
  change typeName (.tuple [uneven (depth + 1), pairs (depth + 1)]) = _
  rw [typeName_pair, last]
  simp only [List.append_assoc, List.cons_append, List.nil_append]

private theorem charAt_behind (front text : List Char) (i : Nat) : charAt (front ++ text) (front.length + i) = charAt text i := by
  unfold charAt
  rw [List.getD_eq_getElem?_getD, List.getD_eq_getElem?_getD, List.getElem?_append_right (Nat.le_add_right _ i), Nat.add_sub_cancel_left]

/-- A list of tuples, whose first member has brackets where the loop over the brackets begins. -/
def farName (front : List Char) : List Char := ("(bool[][],".toList ++ front) ++ ")))[]".toList

theorem farName_length (front : List Char) : (farName front).length = ("(bool[][],".toList ++ front).length + 5 := List.length_append

private theorem farName_last (front : List Char) (i : Nat) : charAt (farName front) (("(bool[][],".toList ++ front).length + i) = charAt ")))[]".toList i :=
  charAt_behind _ _ i

theorem misread_far {front : List Char} (start : countStart (farName front).length = 9) : Misread (farName front) := by
  have size := farName_length front
  have array : isArray (farName front) = .ok true := by
    have third : (farName front).length - 2 = ("(bool[][],".toList ++ front).length + 3 := by omega
    have fourth : (farName front).length - 1 = ("(bool[][],".toList ++ front).length + 4 := by omega
    unfold isArray
    rw [third, fourth, farName_last, farName_last, if_neg (by omega)]
    rfl
  have count : countTupleArrays (farName front) = .ok 2 := by
    unfold countTupleArrays
    rw [start]
    rfl
  have counted : arrays (farName front) = .ok 2 := by
    unfold arrays
    rw [array]
    exact count
  have closing : charAt (farName front) ((farName front).length - 2 * 2 - 1) = ')' := by
    have place : (farName front).length - 2 * 2 - 1 = ("(bool[][],".toList ++ front).length + 0 := by omega
    rw [place, farName_last]
    rfl
  refine ⟨?_, 2, counted, ?_⟩
  · unfold isTuple
    rw [array]
    change (if charAt (farName front) 0 = '(' then countTupleArrays (farName front) >>= _ else pure false : Except Exception Bool) = _
    have opened : charAt (farName front) 0 = '(' := rfl
    rw [if_pos opened, count]
    exact congrArg Except.ok (decide_eq_true closing)
  · have place : (farName front).length - 2 * 2 = ("(bool[][],".toList ++ front).length + 1 := by omega
    unfold farName at place ⊢
    rw [place, List.drop_length_add_append]
    decide

theorem countStart_far : countStart 4294967305 = 9 := by
  unfold countStart
  rw [Int.bmod_def]
  omega

theorem typeName_nestedPairs : ∃ front, typeName nestedPairs = farName front ∧ (farName front).length = 4294967305 := by
  obtain ⟨front, text⟩ := uneven_closed 27
  have size := uneven_length 29
  have power : 2 ^ (29 + 3) = 4294967296 := by norm_num
  have closed : typeName (uneven 29) = front ++ [')', ')'] := text
  have list : typeName nestedPairs = typeName (.tuple [.vector (.vector (.word .bool)), uneven 29]) ++ "[]".toList :=
    typeName_vector ParamType.noConfusion
  have first : typeName (.vector (.vector (.word .bool))) = "bool[][]".toList := by
    have small : ParamType.word .bool ≠ .word (.uint 0) := fun same => Word.noConfusion (ParamType.word.inj same)
    rw [typeName_vector ParamType.noConfusion, typeName_vector small]
    rfl
  refine ⟨front, ?_, ?_⟩
  · rw [list, typeName_pair, first, closed]
    unfold farName
    simp only [List.append_assoc, List.cons_append]
    rfl
  · rw [closed, List.length_append, power] at size
    rw [farName_length, List.length_append]
    change 10 + front.length + 5 = _
    change front.length + 2 + 4 = _ at size
    omega

theorem nestedPairs_illegible : ¬ Legible (typeName nestedPairs) := by
  obtain ⟨front, name, size⟩ := typeName_nestedPairs
  intro legible
  apply (legible _ (.here _)).2
  rw [name]
  apply misread_far
  rw [size]
  exact countStart_far

theorem empty_illegible : ¬ Legible (typeName (.tuple [])) := by
  have tuple : isTuple ['(', ')'] = .ok true := rfl
  have split : getTupleTypes ['(', ')'] = .ok [[]] := rfl
  intro legible
  have long := (legible [] (.inside tuple split List.mem_cons_self (.here []))).1
  exact absurd long (by decide)

/-- A method of a long list of pairs of pairs, and one of an empty tuple. -/
theorem long_list_not_told :
    (¬ ∃ json, methodToJSON (populateMethodTypesMap "set" .nonPayable (listArgumentTypesV [nestedPairs]) [] [[]]) = .ok json ∧
      Tells json "set" [nestedPairs]) ∧
    ¬ ∃ json, methodToJSON (populateMethodTypesMap "set" .nonPayable (listArgumentTypesV [.tuple []]) [] [[]]) = .ok json ∧
      Tells json "set" [.tuple []] := by
  constructor
  · intro told
    have legible := ((method_iff "set" .nonPayable [nestedPairs] [] [[]]).mp told).1
    exact nestedPairs_illegible (legible _ List.mem_cons_self)
  · intro told
    have legible := ((method_iff "set" .nonPayable [.tuple []] [] [[]]).mp told).1
    exact empty_illegible (legible _ List.mem_cons_self)

end OrbiterSDK.Proofs.JsonDescriptions
