import OrbiterSDK.Lib.Simulation
import Mathlib.Data.Finset.Basic
import Mathlib.Tactic.Common

/-! Objects that put themselves on a list when they are changed for the first time. At the end of
a run all objects of the list are closed, for good or to be as they were, and no other object is. -/

namespace Lib

/-- A kind of objects, each made of a value. -/
structure Enlisting (ε : Type) where
  Value : Type
  Object : Type
  Call : Type
  Reply : Type
  make : Value → Object
  step : Object → Call → Except ε Reply × Object
  listed : Object → Bool
  close : Bool → Object → Object

/-- The values themselves with the same calls: what is answered, whether the call is one that
puts an object on the list, and whether an object can be put there again once it was closed. -/
structure Enlisting.Plain {ε : Type} (kind : Enlisting ε) where
  answer : kind.Value → kind.Call → Except ε kind.Reply × kind.Value
  marks : kind.Value → kind.Call → Bool
  releases : Bool

/-- How objects stand for two values, the one to go back to and the one that is worked on. -/
structure Enlisting.Refines {ε : Type} {kind : Enlisting ε} (plain : kind.Plain) where
  Shows : kind.Object → kind.Value → kind.Value → Prop
  Allowed : kind.Object → kind.Call → Prop
  make_shows : ∀ value, Shows (kind.make value) value value
  make_listed : ∀ value, kind.listed (kind.make value) = false
  step_agrees : ∀ {object back value call}, Shows object back value → Allowed object call →
    (kind.step object call).1 = (plain.answer value call).1 ∧ Shows (kind.step object call).2 back (plain.answer value call).2
  step_listed : ∀ {object back value call}, Shows object back value → Allowed object call →
    kind.listed (kind.step object call).2 = (kind.listed object || plain.marks value call)
  unmarked : ∀ {value call}, plain.marks value call = false → (plain.answer value call).2 = value
  close_shows : ∀ {object back value}, Shows object back value → ∀ kept,
    Shows (kind.close kept object) (if kept then value else back) (if kept then value else back)
  close_listed : ∀ {object kept}, kind.listed (kind.close kept object) = (kind.listed object && !plain.releases)

namespace Enlisting
variable {ε κ γ : Type} [DecidableEq κ] [DecidableEq γ] {kinds : κ → Enlisting ε}

/-- What is run: calls of objects, and new groups of objects. Whatever is answered or thrown decides how it goes on. -/
inductive Script (kinds : κ → Enlisting ε) (γ : Type) where
  | done
  | throw (what : ε)
  | call (key : κ) (call : (kinds key).Call) (next : Except ε (kinds key).Reply → Script kinds γ)
  | create (group : γ) (fresh : (key : κ) → (kinds key).Value) (next : Except ε Unit → Script kinds γ)

/-- The objects that there are in some groups, and what the run that goes on has put on its lists. -/
structure Objects (kinds : κ → Enlisting ε) (γ : Type) where
  objects : (key : κ) → (kinds key).Object
  groups : Finset γ
  used : List κ := []
  recent : List γ := []

/-- What objects belong to, and what is thrown when a group is missing or there already. -/
structure Setting (ε κ γ : Type) where
  group : κ → γ
  absent : ε
  taken : ε

variable (setting : Setting ε κ γ)

namespace Objects

def call (state : Objects kinds γ) (key : κ) (call : (kinds key).Call) : Except ε (kinds key).Reply × Objects kinds γ :=
  let (answer, object) := (kinds key).step (state.objects key) call
  (answer, { state with
    objects := Function.update state.objects key object
    used := if (kinds key).listed object && !(kinds key).listed (state.objects key) then state.used ++ [key] else state.used })

def create (state : Objects kinds γ) (group : γ) (fresh : (key : κ) → (kinds key).Value) : Objects kinds γ :=
  { state with
    objects := fun key => if setting.group key = group then (kinds key).make (fresh key) else state.objects key
    groups := insert group state.groups
    recent := state.recent ++ [group] }

end Objects

def Script.run : Script kinds γ → Objects kinds γ → Except ε Unit × Objects kinds γ
  | done, state => (.ok (), state)
  | throw what, state => (.error what, state)
  | call key given next, state =>
    if setting.group key ∈ state.groups then (next (state.call key given).1).run (state.call key given).2
    else (next (.error setting.absent)).run state
  | create group fresh next, state =>
    if group ∈ state.groups then (next (.error setting.taken)).run state
    else (next (.ok ())).run (state.create setting group fresh)

/-- All objects of a list are closed, the last one first. -/
def closeAll (kept : Bool) (used : List κ) (objects : (key : κ) → (kinds key).Object) : (key : κ) → (kinds key).Object :=
  used.reverse.foldl (fun objects key => Function.update objects key ((kinds key).close kept (objects key))) objects

/-- The end of a run. The groups that a run has made go with it if it is not kept. -/
def Objects.finish (state : Objects kinds γ) (kept : Bool) : Objects kinds γ where
  objects := closeAll kept state.used state.objects
  groups := if kept then state.groups else state.groups \ state.recent.toFinset

/-- A run to its end, which may have been meant as a trial. -/
def Objects.serve (state : Objects kinds γ) (script : Script kinds γ) (trial : Bool) : Except ε Unit × Objects kinds γ :=
  let (result, state) := script.run setting state
  (result, state.finish (result.isOk && !trial))

/-! What runs do to the values. -/

@[ext] structure Store (kinds : κ → Enlisting ε) (γ : Type) where
  values : (key : κ) → (kinds key).Value
  groups : Finset γ

/-- The values, and the objects that were put on the list once and cannot be put there again. -/
@[ext] structure Ledger (kinds : κ → Enlisting ε) (γ : Type) extends Store kinds γ where
  spent : κ → Bool := fun _ => false

/-- The values while a run goes on, and the objects that it changed. -/
structure Draft (kinds : κ → Enlisting ε) (γ : Type) extends Ledger kinds γ where
  touched : κ → Bool := fun _ => false

variable (plain : (key : κ) → (kinds key).Plain)

namespace Store

def call (store : Store kinds γ) (key : κ) (call : (kinds key).Call) : Except ε (kinds key).Reply × Store kinds γ :=
  let (answer, value) := (plain key).answer (store.values key) call
  (answer, { store with values := Function.update store.values key value })

def create (store : Store kinds γ) (group : γ) (fresh : (key : κ) → (kinds key).Value) : Store kinds γ where
  values key := if setting.group key = group then fresh key else store.values key
  groups := insert group store.groups

end Store

namespace Draft

def call (draft : Draft kinds γ) (key : κ) (call : (kinds key).Call) : Except ε (kinds key).Reply × Draft kinds γ :=
  let (answer, store) := draft.toStore.call plain key call
  (answer, { draft with
    toStore := store
    touched := Function.update draft.touched key (draft.touched key || (plain key).marks (draft.values key) call) })

def create (draft : Draft kinds γ) (group : γ) (fresh : (key : κ) → (kinds key).Value) : Draft kinds γ where
  toStore := draft.toStore.create setting group fresh
  spent key := if setting.group key = group then false else draft.spent key
  touched key := if setting.group key = group then false else draft.touched key

end Draft

def Script.write : Script kinds γ → Store kinds γ → Except ε Unit × Store kinds γ
  | done, store => (.ok (), store)
  | throw what, store => (.error what, store)
  | call key given next, store =>
    if setting.group key ∈ store.groups then (next (store.call plain key given).1).write (store.call plain key given).2
    else (next (.error setting.absent)).write store
  | create group fresh next, store =>
    if group ∈ store.groups then (next (.error setting.taken)).write store
    else (next (.ok ())).write (store.create setting group fresh)

def Script.draft : Script kinds γ → Draft kinds γ → Except ε Unit × Draft kinds γ
  | done, draft => (.ok (), draft)
  | throw what, draft => (.error what, draft)
  | call key given next, draft =>
    if setting.group key ∈ draft.groups then (next (draft.call plain key given).1).draft (draft.call plain key given).2
    else (next (.error setting.absent)).draft draft
  | create group fresh next, draft =>
    if group ∈ draft.groups then (next (.error setting.taken)).draft draft
    else (next (.ok ())).draft (draft.create setting group fresh)

/-- A run that leaves no trace unless it is kept. -/
def Store.serve (store : Store kinds γ) (script : Script kinds γ) (trial : Bool) : Except ε Unit × Store kinds γ :=
  let (result, after) := script.write setting plain store
  (result, if result.isOk && !trial then after else store)

/-- A run that is not kept changes nothing but the objects that are not put on the list any more. -/
def Draft.finish (draft : Draft kinds γ) (before : Store kinds γ) (kept : Bool) : Ledger kinds γ where
  values key := if kept || draft.spent key then draft.values key else before.values key
  groups := if kept then draft.groups else before.groups
  spent key := draft.spent key || (draft.touched key && !(plain key).releases)

def Ledger.serve (ledger : Ledger kinds γ) (script : Script kinds γ) (trial : Bool) : Except ε Unit × Ledger kinds γ :=
  let (result, draft) := script.draft setting plain { ledger with }
  (result, draft.finish plain ledger.toStore (result.isOk && !trial))

/-! The objects follow the values. -/

variable {setting plain}
variable (refines : (key : κ) → (kinds key).Refines (plain key))

/-- Every call of the run is made where it is allowed. -/
def Script.Fine (setting : Setting ε κ γ) (refines : (key : κ) → (kinds key).Refines (plain key)) : Script kinds γ → Objects kinds γ → Prop
  | done, _ => True
  | throw _, _ => True
  | call key given next, state =>
    if setting.group key ∈ state.groups then
      (refines key).Allowed (state.objects key) given ∧ (next (state.call key given).1).Fine setting refines (state.call key given).2
    else (next (.error setting.absent)).Fine setting refines state
  | create group fresh next, state =>
    if group ∈ state.groups then (next (.error setting.taken)).Fine setting refines state
    else (next (.ok ())).Fine setting refines (state.create setting group fresh)

theorem Script.fine_of_allowed {setting : Setting ε κ γ} {refines : (key : κ) → (kinds key).Refines (plain key)}
    (free : ∀ key object given, (refines key).Allowed object given) (script : Script kinds γ) :
    ∀ state : Objects kinds γ, script.Fine setting refines state := by
  induction script with
  | done => exact fun _ => trivial
  | throw what => exact fun _ => trivial
  | call key given next ih =>
    intro state
    rw [Script.Fine]
    split
    case isTrue => exact ⟨free key _ given, ih _ _⟩
    case isFalse => exact ih _ _
  | create group fresh next ih =>
    intro state
    rw [Script.Fine]
    split
    case isTrue => exact ih _ _
    case isFalse => exact ih _ _

/-- One object while a run goes on that began with some values. -/
structure Standing (setting : Setting ε κ γ) (before : Store kinds γ) (state : Objects kinds γ) (draft : Draft kinds γ) (key : κ) : Prop where
  shows : ∃ back, (refines key).Shows (state.objects key) back (draft.values key) ∧
    (draft.spent key = false → draft.touched key = false → back = draft.values key) ∧
    (draft.spent key = false → setting.group key ∈ before.groups → back = before.values key)
  listed : (kinds key).listed (state.objects key) = (draft.spent key || draft.touched key)
  used : key ∈ state.used ↔ draft.touched key = true ∧ draft.spent key = false

structure Follows (setting : Setting ε κ γ) (before : Store kinds γ) (state : Objects kinds γ) (draft : Draft kinds γ) : Prop where
  groups : state.groups = draft.groups
  old : state.groups \ state.recent.toFinset = before.groups
  nodup : state.used.Nodup
  used : ∀ key ∈ state.used, setting.group key ∈ state.groups
  standing : ∀ key, setting.group key ∈ state.groups → Standing refines setting before state draft key

variable {refines} {state : Objects kinds γ} {draft : Draft kinds γ} {before : Store kinds γ}

section Calls
omit [DecidableEq γ]

theorem call_objects {key other : κ} {given : (kinds key).Call} (apart : other ≠ key) :
    (state.call key given).2.objects other = state.objects other := Function.update_of_ne apart _ _

theorem call_object {key : κ} {given : (kinds key).Call} :
    (state.call key given).2.objects key = ((kinds key).step (state.objects key) given).2 := Function.update_self _ _ _

/-- The call puts the object on the list, if it was not there and is there now. -/
theorem call_used {key : κ} {given : (kinds key).Call} : (state.call key given).2.used =
    if (kinds key).listed ((kinds key).step (state.objects key) given).2 && !(kinds key).listed (state.objects key) then state.used ++ [key]
    else state.used := rfl

theorem call_used_of_ne {key other : κ} {given : (kinds key).Call} (apart : other ≠ key) :
    other ∈ (state.call key given).2.used ↔ other ∈ state.used := by
  rw [call_used]
  split
  · rw [List.mem_append, List.mem_singleton]
    exact or_iff_left apart
  · rfl

theorem standing_call_of_ne {key other : κ} {given : (kinds key).Call} (apart : other ≠ key) (standing : Standing refines setting before state draft other) :
    Standing refines setting before (state.call key given).2 (draft.call plain key given).2 other := by
  have value : (draft.call plain key given).2.values other = draft.values other := Function.update_of_ne apart _ _
  have touched : (draft.call plain key given).2.touched other = draft.touched other := Function.update_of_ne apart _ _
  constructor
  · rw [call_objects apart, value, touched]
    exact standing.shows
  · rw [call_objects apart, touched]
    exact standing.listed
  · rw [call_used_of_ne apart, touched]
    exact standing.used

theorem standing_call {key : κ} {given : (kinds key).Call} (allowed : (refines key).Allowed (state.objects key) given)
    (standing : Standing refines setting before state draft key) : (state.call key given).1 = (draft.call plain key given).1 ∧
      Standing refines setting before (state.call key given).2 (draft.call plain key given).2 key := by
  obtain ⟨back, shows, untouched, kept⟩ := standing.shows
  obtain ⟨same, shows'⟩ := (refines key).step_agrees shows allowed
  have listed := (refines key).step_listed shows allowed
  have value : (draft.call plain key given).2.values key = ((plain key).answer (draft.values key) given).2 := Function.update_self _ _ _
  have touched : (draft.call plain key given).2.touched key = (draft.touched key || (plain key).marks (draft.values key) given) :=
    Function.update_self _ _ _
  refine ⟨same, ?_, ?_, ?_⟩
  · rw [call_object, value, touched]
    refine ⟨back, shows', fun unspent now => ?_, kept⟩
    rw [Bool.or_eq_false_iff] at now
    rw [(refines key).unmarked now.2]
    exact untouched unspent now.1
  · rw [call_object, listed, standing.listed, touched, Bool.or_assoc]
    rfl
  · rw [call_used, listed, touched]
    have before := standing.used
    have now := standing.listed
    have spent : (draft.call plain key given).2.spent key = draft.spent key := rfl
    rw [spent]
    cases spent : draft.spent key <;> cases touched : draft.touched key <;>
      cases marks : (plain key).marks (draft.values key) given <;> simp_all

end Calls

theorem follows_call {key : κ} {given : (kinds key).Call} (here : setting.group key ∈ state.groups)
    (allowed : (refines key).Allowed (state.objects key) given) (follows : Follows refines setting before state draft) :
    (state.call key given).1 = (draft.call plain key given).1 ∧
      Follows refines setting before (state.call key given).2 (draft.call plain key given).2 := by
  have standing := follows.standing key here
  obtain ⟨same, next⟩ := standing_call allowed standing
  refine ⟨same, follows.groups, follows.old, ?_, ?_, ?_⟩
  · rw [call_used]
    split
    case isTrue fresh =>
      rw [Bool.and_eq_true, Bool.not_eq_true', standing.listed, Bool.or_eq_false_iff] at fresh
      refine List.nodup_append.mpr ⟨follows.nodup, List.nodup_singleton key, ?_⟩
      rintro used member other single rfl
      rw [List.mem_singleton.mp single] at member
      exact Bool.false_ne_true (fresh.2.2.symm.trans (standing.used.mp member).1)
    case isFalse => exact follows.nodup
  · intro other member
    by_cases apart : other = key
    · rw [apart]
      exact here
    · exact follows.used other ((call_used_of_ne apart).mp member)
  · intro other there
    by_cases apart : other = key
    · rw [apart]
      exact next
    · exact standing_call_of_ne apart (follows.standing other there)

omit [DecidableEq κ] in
theorem Follows.kept {group : γ} (follows : Follows refines setting before state draft) (old : group ∈ before.groups) :
    group ∈ state.groups := by
  rw [← follows.old] at old
  exact (Finset.mem_sdiff.mp old).1

omit [DecidableEq κ] in
theorem follows_create {group : γ} {fresh : (key : κ) → (kinds key).Value} (free : group ∉ state.groups)
    (follows : Follows refines setting before state draft) :
    Follows refines setting before (state.create setting group fresh) (draft.create setting group fresh) := by
  refine ⟨congrArg (insert group) follows.groups, ?_, follows.nodup, fun key member => Finset.mem_insert_of_mem (follows.used key member), ?_⟩
  · have same : (insert group state.groups) \ (state.recent ++ [group]).toFinset = state.groups \ state.recent.toFinset := by
      ext other
      have apart (inside : other ∈ state.groups) : other ≠ group := fun same => free (same ▸ inside)
      simp only [Finset.mem_sdiff, Finset.mem_insert, List.mem_toFinset, List.mem_append, List.mem_singleton, not_or]
      constructor
      · rintro ⟨here, old, other⟩
        exact ⟨here.resolve_left other, old⟩
      · rintro ⟨here, old⟩
        exact ⟨.inr here, old, apart here⟩
    exact same.trans follows.old
  · intro key inside
    by_cases new : setting.group key = group
    · have object : (state.create setting group fresh).objects key = (kinds key).make (fresh key) := if_pos new
      have value : (draft.create setting group fresh).values key = fresh key := if_pos new
      have spent : (draft.create setting group fresh).spent key = false := if_pos new
      have touched : (draft.create setting group fresh).touched key = false := if_pos new
      have unused : key ∉ state.used := fun member => free (new ▸ follows.used key member)
      constructor
      · rw [object, value]
        exact ⟨fresh key, (refines key).make_shows _, fun _ _ => rfl, fun _ old => absurd (follows.kept (new ▸ old)) free⟩
      · rw [object, spent, touched, (refines key).make_listed]
        rfl
      · rw [touched]
        exact ⟨fun member => absurd member unused, fun impossible => Bool.noConfusion impossible.1⟩
    · have object : (state.create setting group fresh).objects key = state.objects key := if_neg new
      have value : (draft.create setting group fresh).values key = draft.values key := if_neg new
      have spent : (draft.create setting group fresh).spent key = draft.spent key := if_neg new
      have touched : (draft.create setting group fresh).touched key = draft.touched key := if_neg new
      have standing := follows.standing key ((Finset.mem_insert.mp inside).resolve_left new)
      constructor
      · rw [object, value, spent, touched]
        exact standing.shows
      · rw [object, spent, touched]
        exact standing.listed
      · rw [touched, spent]
        exact standing.used

/-- By induction on what is run. -/
theorem follows_run (script : Script kinds γ) : ∀ {state : Objects kinds γ} {draft : Draft kinds γ},
    Follows refines setting before state draft → script.Fine setting refines state →
      (script.run setting state).1 = (script.draft setting plain draft).1 ∧
        Follows refines setting before (script.run setting state).2 (script.draft setting plain draft).2 := by
  induction script with
  | done => exact fun follows _ => ⟨rfl, follows⟩
  | throw what => exact fun follows _ => ⟨rfl, follows⟩
  | call key given next ih =>
    intro state draft follows fine
    rw [Script.run, Script.draft, ← follows.groups]
    rw [Script.Fine] at fine
    by_cases here : setting.group key ∈ state.groups
    · rw [if_pos here] at fine
      rw [if_pos here, if_pos here]
      obtain ⟨same, after⟩ := follows_call here fine.1 follows
      rw [← same]
      exact ih _ after fine.2
    · rw [if_neg here] at fine
      rw [if_neg here, if_neg here]
      exact ih _ follows fine
  | create group fresh next ih =>
    intro state draft follows fine
    rw [Script.run, Script.draft, ← follows.groups]
    rw [Script.Fine] at fine
    by_cases there : group ∈ state.groups
    · rw [if_pos there] at fine
      rw [if_pos there, if_pos there]
      exact ih _ follows fine
    · rw [if_neg there] at fine
      rw [if_neg there, if_neg there]
      exact ih _ (follows_create there follows) fine

omit [DecidableEq γ] in
/-- Each object of the list is closed once, and no other one. -/
theorem closeAll_eq {kept : Bool} {used : List κ} (nodup : used.Nodup) (objects : (key : κ) → (kinds key).Object) (key : κ) :
    closeAll kept used objects key = if key ∈ used then (kinds key).close kept (objects key) else objects key := by
  unfold closeAll
  rw [← List.nodup_reverse] at nodup
  have turned : key ∈ used ↔ key ∈ used.reverse := List.mem_reverse.symm
  simp only [turned]
  generalize used.reverse = used at nodup ⊢
  induction used generalizing objects with
  | nil => rfl
  | cons first rest ih =>
    obtain ⟨apart, nodup⟩ := List.nodup_cons.mp nodup
    rw [List.foldl_cons, ih _ nodup]
    by_cases same : key = first
    · rw [same, if_neg apart, Function.update_self, if_pos List.mem_cons_self]
    · rw [Function.update_of_ne same]
      simp only [List.mem_cons, same, false_or]

/-- The objects between two runs. -/
structure Settled (setting : Setting ε κ γ) (refines : (key : κ) → (kinds key).Refines (plain key)) (state : Objects kinds γ) (ledger : Ledger kinds γ) : Prop where
  groups : state.groups = ledger.groups
  used : state.used = []
  recent : state.recent = []
  shows : ∀ key, setting.group key ∈ state.groups → ∃ back, (refines key).Shows (state.objects key) back (ledger.values key) ∧
    (ledger.spent key = false → back = ledger.values key) ∧ (kinds key).listed (state.objects key) = ledger.spent key

variable {ledger : Ledger kinds γ}

omit [DecidableEq κ] in
theorem follows_opened (settled : Settled setting refines state ledger) :
    Follows refines setting ledger.toStore state { ledger with } where
  groups := settled.groups
  old := by rw [settled.recent, List.toFinset_nil, Finset.sdiff_empty, settled.groups]
  nodup := settled.used ▸ List.nodup_nil
  used key member := by
    rw [settled.used] at member
    cases member
  standing key inside := by
    obtain ⟨back, shows, kept, listed⟩ := settled.shows key inside
    constructor
    · exact ⟨back, shows, fun unspent _ => kept unspent, fun unspent _ => kept unspent⟩
    · rw [listed]
      exact (Bool.or_false _).symm
    · rw [settled.used]
      exact ⟨fun impossible => absurd impossible List.not_mem_nil, fun impossible => Bool.noConfusion impossible.1⟩

/-- An object on the list is closed; one that was not touched is as it was; and one that is spent stays as the run left it. -/
theorem settled_finish (kept : Bool) (follows : Follows refines setting before state draft) :
    Settled setting refines (state.finish kept) (draft.finish plain before kept) := by
  refine ⟨?_, rfl, rfl, ?_⟩
  · have same : (if kept then state.groups else state.groups \ state.recent.toFinset) = if kept then draft.groups else before.groups := by
      rw [follows.groups, ← follows.old, follows.groups]
    exact same
  · intro key inside
    have here : setting.group key ∈ state.groups ∧ (kept = false → setting.group key ∈ before.groups) := by
      cases kept with
      | true => exact ⟨inside, fun impossible => Bool.noConfusion impossible⟩
      | false => exact ⟨(Finset.mem_sdiff.mp inside).1, fun _ => follows.old ▸ inside⟩
    have standing := follows.standing key here.1
    obtain ⟨back, shows, untouched, old⟩ := standing.shows
    have object : (state.finish kept).objects key =
        if key ∈ state.used then (kinds key).close kept (state.objects key) else state.objects key := closeAll_eq follows.nodup _ _
    have value : (draft.finish plain before kept).values key =
        if kept || draft.spent key then draft.values key else before.values key := rfl
    have later : (draft.finish plain before kept).spent key = (draft.spent key || (draft.touched key && !(plain key).releases)) := rfl
    rw [object, value, later]
    cases spent : draft.spent key with
    | true =>
      have unused : key ∉ state.used := fun member => Bool.noConfusion ((standing.used.mp member).2.symm.trans spent)
      rw [if_neg unused, standing.listed, spent, Bool.or_true]
      exact ⟨back, shows, fun impossible => Bool.noConfusion impossible, rfl⟩
    | false =>
      -- What the object goes back to is what it was made of before, whether that is asked for or not.
      have goal : (if kept then draft.values key else back) = if kept then draft.values key else before.values key := by
        cases kept with
        | true => rfl
        | false => exact old spent (here.2 rfl)
      rw [Bool.or_false, ← goal]
      cases touched : draft.touched key with
      | true =>
        rw [if_pos (standing.used.mpr ⟨touched, spent⟩), (refines key).close_listed, standing.listed, spent, touched]
        exact ⟨_, (refines key).close_shows shows kept, fun _ => rfl, rfl⟩
      | false =>
        have unused : key ∉ state.used := fun member => Bool.noConfusion ((standing.used.mp member).1.symm.trans touched)
        rw [if_neg unused, standing.listed, spent, touched, untouched spent touched, ite_self]
        rw [untouched spent touched] at shows
        exact ⟨_, shows, fun _ => rfl, rfl⟩

/-- What is answered and what is found afterwards is what the values say. -/
theorem settled_serve {script : Script kinds γ} {trial : Bool} (fine : script.Fine setting refines state)
    (settled : Settled setting refines state ledger) : (state.serve setting script trial).1 = (ledger.serve setting plain script trial).1 ∧
      Settled setting refines (state.serve setting script trial).2 (ledger.serve setting plain script trial).2 := by
  obtain ⟨same, follows⟩ := follows_run script (follows_opened settled) fine
  have run : (state.serve setting script trial).2 =
      (script.run setting state).2.finish ((script.run setting state).1.isOk && !trial) := rfl
  have plainly : (ledger.serve setting plain script trial).2 = (script.draft setting plain { ledger with }).2.finish plain ledger.toStore
      ((script.draft setting plain { ledger with }).1.isOk && !trial) := rfl
  refine ⟨same, ?_⟩
  rw [run, plainly, same]
  exact settled_finish _ follows

/-! Runs one after the other, each of them kept or given up by what it ends with. -/

/-- What is run, and whether it is a trial. -/
abbrev Request (kinds : κ → Enlisting ε) (γ : Type) := Script kinds γ × Bool

def Objects.step (setting : Setting ε κ γ) (state : Objects kinds γ) (request : Request kinds γ) : Except ε Unit × Objects kinds γ :=
  state.serve setting request.1 request.2

def Ledger.step (setting : Setting ε κ γ) (plain : (key : κ) → (kinds key).Plain) (ledger : Ledger kinds γ) (request : Request kinds γ) :
    Except ε Unit × Ledger kinds γ := ledger.serve setting plain request.1 request.2

def Store.step (setting : Setting ε κ γ) (plain : (key : κ) → (kinds key).Plain) (store : Store kinds γ) (request : Request kinds γ) :
    Except ε Unit × Store kinds γ := store.serve setting plain request.1 request.2

def Request.Fine (setting : Setting ε κ γ) (refines : (key : κ) → (kinds key).Refines (plain key)) (state : Objects kinds γ)
    (request : Request kinds γ) : Prop := request.1.Fine setting refines state

theorem objects_simulate : Simulates (@Objects.step ε κ γ _ _ kinds setting) (Ledger.step setting plain) (Settled setting refines)
    (Request.Fine setting refines) := fun _ _ _ settled fine => settled_serve fine settled

/-- Objects as they are made. -/
def Store.deployed (store : Store kinds γ) : Objects kinds γ where
  objects key := (kinds key).make (store.values key)
  groups := store.groups

omit [DecidableEq κ] [DecidableEq γ] in
theorem settled_deployed (store : Store kinds γ) : Settled setting refines store.deployed { store with } where
  groups := rfl
  used := rfl
  recent := rfl
  shows key _ := ⟨store.values key, (refines key).make_shows _, fun _ => rfl, (refines key).make_listed _⟩

/-- The draft has the values of the plain run. -/
theorem draft_write (setting : Setting ε κ γ) (plain : (key : κ) → (kinds key).Plain) (script : Script kinds γ) : ∀ draft : Draft kinds γ,
    (script.draft setting plain draft).1 = (script.write setting plain draft.toStore).1 ∧
      (script.draft setting plain draft).2.toStore = (script.write setting plain draft.toStore).2 := by
  induction script with
  | done => exact fun _ => ⟨rfl, rfl⟩
  | throw what => exact fun _ => ⟨rfl, rfl⟩
  | call key given next ih =>
    intro draft
    rw [Script.draft, Script.write]
    split
    case isTrue => exact ih _ (draft.call plain key given).2
    case isFalse => exact ih _ draft
  | create group fresh next ih =>
    intro draft
    rw [Script.draft, Script.write]
    split
    case isTrue => exact ih _ draft
    case isFalse => exact ih _ (draft.create setting group fresh)

/-- In groups that there were, the same objects are spent as before, and objects of other groups are not changed unless they are new. -/
theorem draft_spent (setting : Setting ε κ γ) (plain : (key : κ) → (kinds key).Plain) (script : Script kinds γ) (key : κ) : ∀ draft : Draft kinds γ,
    (setting.group key ∈ draft.groups → (script.draft setting plain draft).2.spent key = draft.spent key) ∧
      (setting.group key ∉ draft.groups → (script.draft setting plain draft).2.spent key = true →
        draft.spent key = true ∧ (script.draft setting plain draft).2.values key = draft.values key) := by
  induction script with
  | done => exact fun _ => ⟨fun _ => rfl, fun _ spent => ⟨spent, rfl⟩⟩
  | throw what => exact fun _ => ⟨fun _ => rfl, fun _ spent => ⟨spent, rfl⟩⟩
  | call other given next ih =>
    intro draft
    rw [Script.draft]
    split
    case isFalse => exact ih _ draft
    case isTrue here =>
      obtain ⟨old, new⟩ := ih (draft.call plain other given).1 (draft.call plain other given).2
      refine ⟨old, fun outside spent => ⟨(new outside spent).1, (new outside spent).2.trans ?_⟩⟩
      have apart : key ≠ other := fun same => outside (same ▸ here)
      exact Function.update_of_ne apart _ _
  | create group fresh next ih =>
    intro draft
    rw [Script.draft]
    split
    case isTrue => exact ih _ draft
    case isFalse free =>
      obtain ⟨old, new⟩ := ih (.ok ()) (draft.create setting group fresh)
      by_cases same : setting.group key = group
      · have spent : (draft.create setting group fresh).spent key = false := if_pos same
        have inside : setting.group key ∈ (draft.create setting group fresh).groups := same ▸ Finset.mem_insert_self _ _
        rw [spent] at old
        exact ⟨fun there => absurd (same ▸ there) free, fun _ impossible => Bool.noConfusion ((old inside).symm.trans impossible)⟩
      · have spent : (draft.create setting group fresh).spent key = draft.spent key := if_neg same
        have value : (draft.create setting group fresh).values key = draft.values key := if_neg same
        rw [spent] at old new
        rw [value] at new
        refine ⟨fun inside => old (Finset.mem_insert_of_mem inside), fun outside => new fun inside => ?_⟩
        exact outside ((Finset.mem_insert.mp inside).resolve_left same)

/-- Only objects that cannot be put on the list again are ever spent. -/
theorem spent_serve {script : Script kinds γ} {trial : Bool} (held : ∀ key, ledger.spent key = true → (plain key).releases = false) :
    ∀ key, (ledger.serve setting plain script trial).2.spent key = true → (plain key).releases = false := by
  intro key spent
  have later : (ledger.serve setting plain script trial).2.spent key = ((script.draft setting plain { ledger with }).2.spent key ||
      ((script.draft setting plain { ledger with }).2.touched key && !(plain key).releases)) := rfl
  rw [later, Bool.or_eq_true, Bool.and_eq_true, Bool.not_eq_true'] at spent
  cases spent with
  | inr now => exact now.2
  | inl before =>
    obtain ⟨old, new⟩ := draft_spent setting plain script key { ledger with }
    by_cases inside : setting.group key ∈ ledger.groups
    · exact held key ((old inside).symm.trans before)
    · exact held key (new inside before).1

theorem spent_run (requests : List (Request kinds γ)) : ∀ {ledger : Ledger kinds γ},
    (∀ key, ledger.spent key = true → (plain key).releases = false) →
      ∀ key, (after (Ledger.step setting plain) ledger requests).spent key = true → (plain key).releases = false := by
  induction requests with
  | nil => exact fun held => held
  | cons request rest ih => exact fun held => ih (spent_serve held)

/-- A run that is given up leaves no trace, unless it changed an object that is spent. -/
theorem given_up_iff {script : Script kinds γ} {trial : Bool} (lost : ((ledger.serve setting plain script trial).1.isOk && !trial) = false) :
    (ledger.serve setting plain script trial).2.toStore = ledger.toStore ↔ ∀ key, setting.group key ∈ ledger.groups →
      ledger.spent key = true → (script.write setting plain ledger.toStore).2.values key = ledger.values key := by
  obtain ⟨_, written⟩ := draft_write setting plain script { ledger with }
  have value (key : κ) : (ledger.serve setting plain script trial).2.values key =
      if (script.draft setting plain { ledger with }).2.spent key then (script.write setting plain ledger.toStore).2.values key
      else ledger.values key := by
    have same : (ledger.serve setting plain script trial).2.values key =
        if ((ledger.serve setting plain script trial).1.isOk && !trial) || (script.draft setting plain { ledger with }).2.spent key then
          (script.draft setting plain { ledger with }).2.values key
        else ledger.values key := rfl
    rw [same, lost, Bool.false_or, written]
  have groups : (ledger.serve setting plain script trial).2.groups = ledger.groups := by
    have same : (ledger.serve setting plain script trial).2.groups =
        if (ledger.serve setting plain script trial).1.isOk && !trial then (script.draft setting plain { ledger with }).2.groups
        else ledger.groups := rfl
    rw [same, lost]
    rfl
  constructor
  · intro same key inside spent
    obtain ⟨old, _⟩ := draft_spent setting plain script key { ledger with }
    have kept := congrFun (congrArg Store.values same) key
    rw [value key, old inside, spent, if_pos rfl] at kept
    exact kept
  · intro fixed
    refine Store.ext (funext fun key => ?_) groups
    rw [value key]
    obtain ⟨old, new⟩ := draft_spent setting plain script key { ledger with }
    cases spent : (script.draft setting plain { ledger with }).2.spent key with
    | false => rfl
    | true =>
      rw [if_pos rfl]
      by_cases inside : setting.group key ∈ ledger.groups
      · exact fixed key inside ((old inside).symm.trans spent)
      · exact (congrFun (congrArg Store.values written) key).symm.trans (new inside spent).2

/-- Where every object can be put on the list again, a run leaves no trace unless it is kept. -/
theorem atomic_serve (releases : ∀ key, (plain key).releases = true) (store : Store kinds γ) (script : Script kinds γ) (trial : Bool) :
    Ledger.serve setting plain { store with } script trial =
      ((store.serve setting plain script trial).1, { (store.serve setting plain script trial).2 with }) := by
  obtain ⟨same, written⟩ := draft_write setting plain script { store with }
  have unspent (key : κ) : (script.draft setting plain { store with }).2.spent key = false := by
    obtain ⟨old, new⟩ := draft_spent setting plain script key { store with }
    by_cases inside : setting.group key ∈ store.groups
    · exact old inside
    · cases spent : (script.draft setting plain { store with }).2.spent key with
      | false => rfl
      | true => exact (new inside spent).1.symm
  have answer : (store.serve setting plain script trial).1 = (script.write setting plain store).1 := rfl
  have after : (store.serve setting plain script trial).2 =
      if (script.write setting plain store).1.isOk && !trial then (script.write setting plain store).2 else store := rfl
  have finished : Ledger.serve setting plain { store with } script trial = ((script.draft setting plain { store with }).1,
      (script.draft setting plain { store with }).2.finish plain store ((script.draft setting plain { store with }).1.isOk && !trial)) := rfl
  rw [finished, answer, after, same]
  refine Prod.ext rfl (Ledger.ext (funext fun key => ?_) ?_ (funext fun key => ?_))
  · have value : ((script.draft setting plain { store with }).2.finish plain store
        ((script.write setting plain store).1.isOk && !trial)).values key =
          if ((script.write setting plain store).1.isOk && !trial) || (script.draft setting plain { store with }).2.spent key then
            (script.draft setting plain { store with }).2.values key
          else store.values key := rfl
    rw [value, unspent, Bool.or_false, written]
    split <;> rfl
  · have groups : ((script.draft setting plain { store with }).2.finish plain store
        ((script.write setting plain store).1.isOk && !trial)).groups =
          if (script.write setting plain store).1.isOk && !trial then (script.draft setting plain { store with }).2.groups
          else store.groups := rfl
    rw [groups, written]
    split <;> rfl
  · have spent : ((script.draft setting plain { store with }).2.finish plain store
        ((script.write setting plain store).1.isOk && !trial)).spent key = ((script.draft setting plain { store with }).2.spent key ||
          ((script.draft setting plain { store with }).2.touched key && !(plain key).releases)) := rfl
    rw [spent, unspent, releases key, Bool.not_true, Bool.and_false]
    rfl

/-- Objects that can all be put on the list again. -/
def Unspent (setting : Setting ε κ γ) (refines : (key : κ) → (kinds key).Refines (plain key)) (state : Objects kinds γ)
    (store : Store kinds γ) : Prop := Settled setting refines state { store with }

theorem atomic_simulates (releases : ∀ key, (plain key).releases = true) :
    Simulates (@Objects.step ε κ γ _ _ kinds setting) (Store.step setting plain) (Unspent setting refines) (Request.Fine setting refines) := by
  intro state store request settled fine
  have next := objects_simulate state { store with } request settled fine
  have same : Ledger.step setting plain { store with } request =
      ((store.step setting plain request).1, { (store.step setting plain request).2 with }) := atomic_serve releases store request.1 request.2
  rw [same] at next
  exact next

end Enlisting
end Lib
