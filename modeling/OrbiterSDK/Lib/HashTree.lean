import Mathlib.Data.List.Induction
import Mathlib.Data.List.Perm.Basic
import Mathlib.Tactic.Common

/-! Binary hash trees whose node input does not tell its two children apart. The
digest then determines the tree up to exchanging children, as long as the inputs
hashed in the two trees under comparison do not collide. -/

namespace Lib

inductive HashTree (α : Type) where
  | leaf (label : α)
  | node (left right : HashTree α)

namespace HashTree
variable {α ι δ : Type}

/-- The labels from left to right. -/
def labels : HashTree α → List α
  | leaf label => [label]
  | node left right => left.labels ++ right.labels

/-- Equal up to exchanging the two children of any nodes. -/
inductive Mirror : HashTree α → HashTree α → Prop
  | leaf (label : α) : Mirror (leaf label) (leaf label)
  | straight {left right left' right' : HashTree α} :
      Mirror left left' → Mirror right right' → Mirror (node left right) (node left' right')
  | crossed {left right left' right' : HashTree α} :
      Mirror left right' → Mirror right left' → Mirror (node left right) (node left' right')

theorem Mirror.perm {first second : HashTree α} (mirror : Mirror first second) :
    first.labels.Perm second.labels := by
  induction mirror with
  | leaf label => exact List.Perm.refl _
  | straight _ _ leftIh rightIh => exact leftIh.append rightIh
  | crossed _ _ leftIh rightIh => exact (leftIh.append rightIh).trans List.perm_append_comm

/-- Join neighbours, with a last tree that has no neighbour carried over. -/
def pairUp : List (HashTree α) → List (HashTree α)
  | left :: right :: rest => node left right :: pairUp rest
  | [last] => [last]
  | [] => []

theorem pairUp_length : ∀ forest : List (HashTree α), (pairUp forest).length = (forest.length + 1) / 2
  | [] => by simp [pairUp]
  | [_] => by simp [pairUp]
  | _ :: _ :: rest => by
    rw [pairUp, List.length_cons, pairUp_length rest, List.length_cons, List.length_cons]
    omega

theorem pairUp_labels : ∀ forest : List (HashTree α), (pairUp forest).flatMap labels = forest.flatMap labels
  | [] => rfl
  | [_] => rfl
  | left :: right :: rest => by
    simp only [pairUp, List.flatMap_cons, labels, pairUp_labels rest, List.append_assoc]

/-- Pair up a non-empty forest until one tree is left. -/
def collapse (first : HashTree α) : List (HashTree α) → HashTree α
  | [] => first
  | second :: rest => collapse (node first second) (pairUp rest)
  termination_by rest => rest.length
  decreasing_by
    rw [pairUp_length, List.length_cons]
    omega

theorem collapse_labels (first : HashTree α) (rest : List (HashTree α)) :
    (collapse first rest).labels = (first :: rest).flatMap labels := by
  induction first, rest using collapse.induct with
  | case1 first => simp [collapse]
  | case2 first second rest ih =>
    rw [collapse, ih, List.flatMap_cons, pairUp_labels, labels]
    simp only [List.flatMap_cons, List.append_assoc]

variable (hash : ι → δ) (leafInput : α → ι) (nodeInput : δ → δ → ι)

def digest : HashTree α → δ
  | leaf label => hash (leafInput label)
  | node left right => hash (nodeInput left.digest right.digest)

/-- Everything that is hashed on the way to the digest. -/
def inputs : HashTree α → List ι
  | leaf label => [leafInput label]
  | node left right =>
      nodeInput (left.digest hash leafInput nodeInput) (right.digest hash leafInput nodeInput) ::
        (left.inputs ++ right.inputs)

/-- The digests of the tree and of everything below it. -/
def digests : HashTree α → List δ
  | leaf label => [hash (leafInput label)]
  | node left right =>
      hash (nodeInput (left.digest hash leafInput nodeInput) (right.digest hash leafInput nodeInput)) ::
        (left.digests ++ right.digests)

/-- Hash upwards from a digest, with one sibling for each level. -/
def climb (start : δ) (siblings : List δ) : δ :=
  siblings.foldl (fun below sibling => hash (nodeInput below sibling)) start

/-- Everything that is hashed on the way up. -/
def climbed (start : δ) : List δ → List ι
  | [] => []
  | sibling :: rest => nodeInput start sibling :: climbed (hash (nodeInput start sibling)) rest

/-- No two different inputs on the list have the same hash. -/
def Collisionless (inputs : List ι) : Prop :=
  ∀ left ∈ inputs, ∀ right ∈ inputs, hash left = hash right → left = right

variable {hash leafInput nodeInput}

theorem Collisionless.mono {smaller larger : List ι} (inside : smaller ⊆ larger) (safe : Collisionless hash larger) :
    Collisionless hash smaller :=
  fun left leftIn right rightIn => safe left (inside leftIn) right (inside rightIn)

theorem Mirror.digest_eq (symmetric : ∀ left right, nodeInput left right = nodeInput right left)
    {first second : HashTree α} (mirror : Mirror first second) :
    first.digest hash leafInput nodeInput = second.digest hash leafInput nodeInput := by
  induction mirror with
  | leaf label => rfl
  | straight _ _ leftIh rightIh => rw [digest, digest, leftIh, rightIh]
  | crossed _ _ leftIh rightIh => rw [digest, digest, leftIh, rightIh, symmetric]

/-- The digest is injective up to mirroring. The induction is on the first tree;
the inputs of a child are among the inputs of its parent. -/
theorem mirror_of_digest_eq (leafInjective : Function.Injective leafInput)
    (nodeInjective : ∀ {left right left' right'}, nodeInput left right = nodeInput left' right' →
      (left = left' ∧ right = right') ∨ (left = right' ∧ right = left'))
    (apart : ∀ label left right, leafInput label ≠ nodeInput left right)
    {first second : HashTree α}
    (safe : Collisionless hash (first.inputs hash leafInput nodeInput ++ second.inputs hash leafInput nodeInput))
    (same : first.digest hash leafInput nodeInput = second.digest hash leafInput nodeInput) :
    Mirror first second := by
  induction first generalizing second with
  | leaf label =>
    cases second with
    | leaf other =>
      have input := safe (leafInput label) (by simp [inputs]) (leafInput other) (by simp [inputs]) same
      rw [leafInjective input]
      exact .leaf other
    | node left right =>
      exact absurd (safe _ (by simp [inputs]) _ (by simp [inputs]) same) (apart _ _ _)
  | node left right leftIh rightIh =>
    cases second with
    | leaf other =>
      exact absurd (safe _ (by simp [inputs]) _ (by simp [inputs]) same).symm (apart _ _ _)
    | node left' right' =>
      have input := safe _ (List.mem_append_left _ (List.mem_cons_self ..)) _
        (List.mem_append_right _ (List.mem_cons_self ..)) same
      have below : ∀ {child child' : HashTree α},
          child.inputs hash leafInput nodeInput ⊆ (node left right).inputs hash leafInput nodeInput →
          child'.inputs hash leafInput nodeInput ⊆ (node left' right').inputs hash leafInput nodeInput →
          Collisionless hash (child.inputs hash leafInput nodeInput ++ child'.inputs hash leafInput nodeInput) :=
        fun inside inside' => safe.mono (List.append_subset.mpr
          ⟨List.subset_append_of_subset_left _ inside, List.subset_append_of_subset_right _ inside'⟩)
      rcases nodeInjective input with ⟨leftSame, rightSame⟩ | ⟨leftSame, rightSame⟩
      · exact .straight
          (leftIh (below (by simp [inputs]) (by simp [inputs])) leftSame)
          (rightIh (below (by simp [inputs]) (by simp [inputs])) rightSame)
      · exact .crossed
          (leftIh (below (by simp [inputs]) (by simp [inputs])) leftSame)
          (rightIh (below (by simp [inputs]) (by simp [inputs])) rightSame)

theorem climb_append (start : δ) (siblings : List δ) (last : δ) :
    climb hash nodeInput start (siblings ++ [last]) = hash (nodeInput (climb hash nodeInput start siblings) last) := by
  simp [climb]

theorem climbed_append (start : δ) (siblings : List δ) (last : δ) :
    climbed hash nodeInput start (siblings ++ [last]) =
      climbed hash nodeInput start siblings ++ [nodeInput (climb hash nodeInput start siblings) last] := by
  induction siblings generalizing start with
  | nil => rfl
  | cons sibling rest ih => simpa [climbed, climb] using ih _

theorem digest_mem_digests (tree : HashTree α) :
    tree.digest hash leafInput nodeInput ∈ tree.digests hash leafInput nodeInput := by
  cases tree <;> simp [digest, digests]

/-- A way up that ends at the digest of a tree starts inside the tree. The induction
takes the last step of the way, which leads down into one of the two children. -/
theorem mem_digests_of_climb
    (nodeInjective : ∀ {left right left' right'}, nodeInput left right = nodeInput left' right' →
      (left = left' ∧ right = right') ∨ (left = right' ∧ right = left'))
    (apart : ∀ label left right, leafInput label ≠ nodeInput left right)
    {start : δ} {siblings : List δ} {tree : HashTree α}
    (safe : Collisionless hash (tree.inputs hash leafInput nodeInput ++ climbed hash nodeInput start siblings))
    (same : climb hash nodeInput start siblings = tree.digest hash leafInput nodeInput) :
    start ∈ tree.digests hash leafInput nodeInput := by
  induction siblings using List.reverseRecOn generalizing tree with
  | nil =>
    have begins : start = tree.digest hash leafInput nodeInput := same
    exact begins ▸ digest_mem_digests tree
  | append_singleton siblings last ih =>
    simp only [climb_append] at same
    simp only [climbed_append] at safe
    cases tree with
    | leaf label => exact absurd (safe _ (by simp) _ (by simp [inputs]) same).symm (apart _ _ _)
    | node left right =>
      have input := safe _ (by simp) _ (by simp [inputs]) same
      have below : ∀ {child : HashTree α},
          child.inputs hash leafInput nodeInput ⊆ (node left right).inputs hash leafInput nodeInput →
          Collisionless hash (child.inputs hash leafInput nodeInput ++ climbed hash nodeInput start siblings) := by
        intro child inside
        apply safe.mono
        intro input member
        rcases List.mem_append.mp member with member | member
        · exact List.mem_append_left _ (inside member)
        · exact List.mem_append_right _ (List.mem_append_left _ member)
      rcases nodeInjective input with ⟨leftSame, _⟩ | ⟨rightSame, _⟩
      · exact List.mem_cons_of_mem _ (List.mem_append_left _ (ih (below (by simp [inputs])) leftSame))
      · exact List.mem_cons_of_mem _ (List.mem_append_right _ (ih (below (by simp [inputs])) rightSame))

/-- Among the digests of a tree only those of its leaves are hashes of a label. -/
theorem mem_labels_of_digest (leafInjective : Function.Injective leafInput)
    (apart : ∀ label left right, leafInput label ≠ nodeInput left right) {label : α} {tree : HashTree α}
    (safe : Collisionless hash (leafInput label :: tree.inputs hash leafInput nodeInput))
    (found : hash (leafInput label) ∈ tree.digests hash leafInput nodeInput) : label ∈ tree.labels := by
  induction tree with
  | leaf other =>
    have same := safe _ (by simp) _ (by simp [inputs]) (List.mem_singleton.mp found)
    exact List.mem_singleton.mpr (leafInjective same)
  | node left right leftIh rightIh =>
    have below : ∀ {child : HashTree α},
        child.inputs hash leafInput nodeInput ⊆ (node left right).inputs hash leafInput nodeInput →
        Collisionless hash (leafInput label :: child.inputs hash leafInput nodeInput) :=
      fun inside => safe.mono (List.cons_subset_cons _ inside)
    rcases List.mem_cons.mp found with here | inside
    · exact absurd (safe _ (by simp) _ (by simp [inputs]) here) (apart _ _ _)
    · rcases List.mem_append.mp inside with inside | inside
      · exact List.mem_append_left _ (leftIh (below (by simp [inputs])) inside)
      · exact List.mem_append_right _ (rightIh (below (by simp [inputs])) inside)

end HashTree
end Lib
