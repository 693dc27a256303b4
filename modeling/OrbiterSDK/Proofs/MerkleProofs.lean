import OrbiterSDK.Proofs.MerkleRoot

/-! Proofs of membership. A proof is made as long as every layer on the way up has the
sibling, and what a proof can be accepted for is a node of the tree, which the hash of
a listed hash is only as a leaf. -/

namespace OrbiterSDK.Proofs.MerkleProofs
open Lib MerkleRoot
variable (sha3 : Bytes → Hash) {hashes : List Hash}

/-- Counting from the leaves, the number of nodes of a layer. -/
def width (count level : Nat) : Nat := (count + 2 ^ level - 1) / 2 ^ level

/-- Wherever the way up from the index is at the last node of a layer, short of the
root, that layer has an even number of nodes. -/
def Paired (count index : Nat) : Prop :=
  ∀ level, 1 < width count level → index / 2 ^ level + 1 = width count level → width count level % 2 = 0

private theorem width_zero (count : Nat) : width count 0 = count := by simp [width]

theorem width_succ (count level : Nat) : width count (level + 1) = width ((count + 1) / 2) level := by
  have half : (count + 1) / 2 + 2 ^ level - 1 = (count + 2 ^ (level + 1) - 1) / 2 := by
    have positive := Nat.two_pow_pos level
    rw [pow_succ]
    omega
  unfold width
  rw [half, Nat.div_div_eq_div_mul, pow_succ, Nat.mul_comm]

theorem paired_step (count index : Nat) :
    Paired count index ↔
      (1 < count → index + 1 = count → count % 2 = 0) ∧ Paired ((count + 1) / 2) (index / 2) := by
  have above : ∀ level, index / 2 ^ (level + 1) = index / 2 / 2 ^ level := by
    intro level
    rw [Nat.div_div_eq_div_mul, pow_succ, Nat.mul_comm]
  constructor
  · intro paired
    refine ⟨by simpa [width_zero] using paired 0, fun level => ?_⟩
    rw [← width_succ, ← above]
    exact paired (level + 1)
  · rintro ⟨here, next⟩ level
    cases level with
    | zero => simpa [width_zero] using here
    | succ level =>
      rw [width_succ, above]
      exact next level

theorem paired_single (index : Nat) : Paired 1 index := by
  intro level wide
  have one : width 1 level = 1 := by
    rw [width, Nat.add_sub_cancel_left, Nat.div_self (Nat.two_pow_pos level)]
  omega

/-- The sibling that `getProof` looks up. -/
def beside (pos : Nat) : Nat := if pos % 2 = 0 then pos + 1 else pos - 1

private theorem beside_half (pos : Nat) : beside pos / 2 = pos / 2 := by
  unfold beside
  split <;> omega

private theorem beside_lt_iff {count pos : Nat} (inside : pos < count) (wide : 1 < count) :
    beside pos < count ↔ (1 < count → pos + 1 = count → count % 2 = 0) := by
  unfold beside
  split <;> omega

/-- The parent of two siblings is at half their position. -/
theorem newLayer_beside : ∀ (layer : List Hash) (pos : Nat) {here sibling : Hash},
    layer[pos]? = some here → layer[beside pos]? = some sibling →
    (Merkle.newLayer sha3 layer)[pos / 2]? = some (sha3 (pairInput here sibling)) := by
  intro layer
  induction layer using Merkle.newLayer.induct with
  | case1 left right rest ih =>
    intro pos here sibling found foundSibling
    rcases pos with _ | _ | pos
    · obtain rfl : left = here := by simpa using found
      obtain rfl : right = sibling := by simpa [beside] using foundSibling
      simp [Merkle.newLayer, pairInput]
    · obtain rfl : right = here := by simpa using found
      obtain rfl : left = sibling := by simpa [beside] using foundSibling
      rw [pairInput_comm]
      simp [Merkle.newLayer, pairInput]
    · have next : beside (pos + 2) = beside pos + 2 := by
        unfold beside
        split <;> split <;> omega
      rw [next] at foundSibling
      have parent := ih pos (by simpa using found) (by simpa using foundSibling)
      have half : (pos + 1 + 1) / 2 = pos / 2 + 1 := by omega
      rw [half]
      simpa [Merkle.newLayer] using parent
  | case2 last =>
    intro pos here sibling found foundSibling
    obtain ⟨inside, _⟩ := List.getElem?_eq_some_iff.mp found
    obtain ⟨insideSibling, _⟩ := List.getElem?_eq_some_iff.mp foundSibling
    simp only [List.length_singleton] at inside insideSibling
    unfold beside at insideSibling
    split at insideSibling <;> omega
  | case3 =>
    intro pos here sibling found
    simp at found

private theorem layers_ne_nil (layer : List Hash) : Merkle.layers sha3 layer ≠ [] := by
  unfold Merkle.layers
  split <;> simp

theorem getRoot_newLayer {layer : List Hash} (wide : 1 < layer.length) :
    Merkle.getRoot ⟨Merkle.layers sha3 layer⟩ =
      Merkle.getRoot ⟨Merkle.layers sha3 (Merkle.newLayer sha3 layer)⟩ := by
  obtain ⟨next, rest, above⟩ := List.exists_cons_of_ne_nil (layers_ne_nil sha3 (Merkle.newLayer sha3 layer))
  rw [Merkle.layers, if_pos wide, above]
  simp [Merkle.getRoot]

/-- The siblings are all there exactly if the way up is paired, and hashing them leads
to the root. -/
theorem siblings_layers (layer : List Hash) (pos : Nat) {here : Hash} (found : layer[pos]? = some here) :
    (Paired layer.length pos → ∃ proof, Merkle.siblings (Merkle.layers sha3 layer) pos = some proof ∧
      HashTree.climb sha3 pairInput here proof = Merkle.getRoot ⟨Merkle.layers sha3 layer⟩) ∧
    (¬ Paired layer.length pos → Merkle.siblings (Merkle.layers sha3 layer) pos = none) := by
  induction layer using Merkle.layers.induct sha3 generalizing pos here with
  | case2 layer narrow =>
    obtain ⟨inside, _⟩ := List.getElem?_eq_some_iff.mp found
    have single : layer.length = 1 := by omega
    obtain ⟨only, rfl⟩ := List.length_eq_one_iff.mp single
    obtain rfl : pos = 0 := by simpa using inside
    obtain rfl : only = here := by simpa using found
    rw [Merkle.layers, if_neg narrow]
    exact ⟨fun _ => ⟨[], by simp [Merkle.siblings], rfl⟩, fun unpaired => absurd (paired_single 0) unpaired⟩
  | case1 layer wide ih =>
    obtain ⟨inside, _⟩ := List.getElem?_eq_some_iff.mp found
    have step : Merkle.siblings (Merkle.layers sha3 layer) pos = do
        let sibling ← layer[beside pos]?
        let rest ← Merkle.siblings (Merkle.layers sha3 (Merkle.newLayer sha3 layer)) (pos / 2)
        return sibling :: rest := by
      rw [Merkle.layers, if_pos wide, Merkle.siblings, if_neg (by omega), ← beside_half pos]
      rfl
    rw [step, paired_step, ← beside_lt_iff inside wide, ← Merkle.newLayer_length sha3 layer]
    by_cases outside : beside pos < layer.length
    · obtain ⟨sibling, foundSibling⟩ : ∃ sibling, layer[beside pos]? = some sibling :=
        ⟨_, List.getElem?_eq_getElem outside⟩
      obtain ⟨complete, stuck⟩ := ih (pos / 2) (newLayer_beside sha3 layer pos found foundSibling)
      rw [foundSibling, getRoot_newLayer sha3 wide]
      constructor
      · rintro ⟨_, paired⟩
        obtain ⟨proof, made, climbs⟩ := complete paired
        exact ⟨sibling :: proof, by simp [made], climbs⟩
      · intro unpaired
        have missing := stuck fun paired => unpaired ⟨outside, paired⟩
        simp [missing]
    · have missing : layer[beside pos]? = none := List.getElem?_eq_none (by omega)
      rw [missing]
      exact ⟨fun paired => absurd paired.1 outside, fun _ => rfl⟩

theorem getLeaves_ofHashes (hashes : List Hash) :
    (Merkle.ofHashes sha3 hashes).getLeaves = hashes.map fun hash => sha3 hash.get := by
  unfold Merkle.getLeaves Merkle.ofHashes Merkle.layers
  split <;> rfl

theorem getProof_ofHashes {index : Nat} (inside : index < hashes.length) :
    (Merkle.ofHashes sha3 hashes).getProof index =
      Merkle.siblings (Merkle.layers sha3 (hashes.map fun hash => sha3 hash.get)) index := by
  rw [Merkle.getProof, getLeaves_ofHashes, List.length_map, if_neg (by omega)]
  rfl

theorem leaf_found {index : Nat} (inside : index < hashes.length) :
    (hashes.map fun hash => sha3 hash.get)[index]? = some (sha3 hashes[index].get) := by
  simp [List.getElem?_eq_getElem inside]

variable {sha3}

theorem getProof_of_unpaired {index : Nat} (inside : index < hashes.length)
    (unpaired : ¬ Paired hashes.length index) : (Merkle.ofHashes sha3 hashes).getProof index = none := by
  rw [getProof_ofHashes sha3 inside]
  exact (siblings_layers sha3 _ index (leaf_found sha3 inside)).2 (by rwa [List.length_map])

/-- A proof is made without reading past a layer, and accepted, exactly if the way up
from the leaf is paired. -/
theorem getProof_verifies_iff {hashes : List Hash} {index : Nat} (inside : index < hashes.length) :
    (∃ proof leaf, (Merkle.ofHashes sha3 hashes).getProof index = some proof ∧
      (Merkle.ofHashes sha3 hashes).getLeaves[index]? = some leaf ∧
      Merkle.verify sha3 proof leaf (Merkle.ofHashes sha3 hashes).getRoot = true) ↔
    Paired hashes.length index := by
  constructor
  · rintro ⟨proof, leaf, made, _, _⟩
    by_contra unpaired
    rw [getProof_of_unpaired inside unpaired] at made
    cases made
  · intro paired
    have complete := (siblings_layers sha3 _ index (leaf_found sha3 inside)).1
    rw [List.length_map] at complete
    obtain ⟨proof, made, climbs⟩ := complete paired
    rw [getProof_ofHashes sha3 inside, getLeaves_ofHashes]
    exact ⟨proof, _, made, leaf_found sha3 inside, beq_iff_eq.mpr climbs⟩

theorem first_of_two_verifies :
    ∃ proof leaf, (Merkle.ofHashes keccak [earlier.hash, later.hash]).getProof 0 = some proof ∧
      (Merkle.ofHashes keccak [earlier.hash, later.hash]).getLeaves[0]? = some leaf ∧
      Merkle.verify keccak proof leaf (Merkle.ofHashes keccak [earlier.hash, later.hash]).getRoot = true := by
  apply (getProof_verifies_iff (by simp)).mpr
  intro level wide last
  cases level with
  | zero => rfl
  | succ level =>
    have one : width 2 (level + 1) = 1 := by
      rw [width_succ, width, Nat.add_sub_cancel_left, Nat.div_self (Nat.two_pow_pos level)]
    have two : width [earlier.hash, later.hash].length (level + 1) = 1 := one
    omega

/-- The third of three leaves has no sibling, which `getProof` reads nevertheless. -/
theorem third_of_three_reads_past_the_layer : ¬ ∀ (sha3 : Bytes → Hash) (hashes : List Hash) (index : Nat),
    index < hashes.length → ∃ proof leaf, (Merkle.ofHashes sha3 hashes).getProof index = some proof ∧
      (Merkle.ofHashes sha3 hashes).getLeaves[index]? = some leaf ∧
      Merkle.verify sha3 proof leaf (Merkle.ofHashes sha3 hashes).getRoot = true := by
  intro complete
  obtain ⟨proof, leaf, made, _⟩ := complete keccak [earlier.hash, later.hash, earlier.hash] 2 (by simp)
  have unpaired : ¬ Paired [earlier.hash, later.hash, earlier.hash].length 2 := fun paired =>
    absurd (paired 0 (by decide) (by decide)) (by decide)
  rw [getProof_of_unpaired (by simp) unpaired] at made
  cases made

/-- Every byte string that is hashed while a proof is verified. -/
def verified (sha3 : Bytes → Hash) (proof : List Hash) (leaf : Hash) : List Bytes :=
  HashTree.climbed sha3 pairInput leaf proof

theorem verify_iff {proof : List Hash} {leaf root : Hash} :
    Merkle.verify sha3 proof leaf root = true ↔ HashTree.climb sha3 pairInput leaf proof = root :=
  beq_iff_eq

theorem root_eq_digest (nonempty : hashes ≠ []) :
    (Merkle.ofHashes sha3 hashes).getRoot = digest sha3 (txTree hashes) := by
  obtain ⟨first, rest, rfl⟩ := List.exists_cons_of_ne_nil nonempty
  rw [txTree, ← getRoot_layers]
  simp [Merkle.ofHashes, digest, HashTree.digest, Function.comp_def]

theorem mem_pairUp {tree : HashTree Hash} : ∀ {forest : List (HashTree Hash)}, tree ∈ HashTree.pairUp forest →
    tree ∈ forest ∨ ∃ left ∈ forest, ∃ right ∈ forest, tree = .node left right := by
  intro forest
  induction forest using HashTree.pairUp.induct with
  | case1 left right rest ih =>
    intro member
    rcases List.mem_cons.mp member with rfl | member
    · exact .inr ⟨left, by simp, right, by simp, rfl⟩
    · rcases ih member with old | ⟨first, firstIn, second, secondIn, rfl⟩
      · exact .inl (by simp [old])
      · exact .inr ⟨first, by simp [firstIn], second, by simp [secondIn], rfl⟩
  | case2 last => exact fun member => .inl member
  | case3 => exact fun member => .inl member

theorem self_mem_layers (layer : List Hash) : layer ∈ Merkle.layers sha3 layer := by
  unfold Merkle.layers
  split <;> simp

/-- Every digest of the collapsed tree was in one of its trees already, or is in a layer. -/
theorem mem_layers_of_collapse (first : HashTree Hash) (rest : List (HashTree Hash)) {node : Hash}
    (found : node ∈ (HashTree.collapse first rest).digests sha3 Hash.get pairInput) :
    (∃ tree ∈ first :: rest, node ∈ tree.digests sha3 Hash.get pairInput) ∨
      ∃ layer ∈ Merkle.layers sha3 ((first :: rest).map (digest sha3)), node ∈ layer := by
  induction first, rest using HashTree.collapse.induct with
  | case1 first =>
    rw [HashTree.collapse] at found
    exact .inl ⟨first, by simp, found⟩
  | case2 first second rest ih =>
    rw [HashTree.collapse] at found
    have wide : 1 < ((first :: second :: rest).map (digest sha3)).length := by simp
    have next := newLayer_digests sha3 (first :: second :: rest)
    rw [Merkle.layers, if_pos wide, next]
    rcases ih found with ⟨tree, member, inside⟩ | ⟨layer, member, inside⟩
    · rcases @mem_pairUp _ (first :: second :: rest) member with old | ⟨left, leftIn, right, rightIn, rfl⟩
      · exact .inl ⟨tree, old, inside⟩
      · rcases List.mem_cons.mp inside with here | below
        · have above : digest sha3 (.node left right) ∈ (HashTree.pairUp (first :: second :: rest)).map (digest sha3) :=
            List.mem_map_of_mem member
          refine .inr ⟨_, List.mem_cons_of_mem _ (self_mem_layers _), ?_⟩
          rw [here]
          exact above
        · rcases List.mem_append.mp below with below | below
          · exact .inl ⟨left, leftIn, below⟩
          · exact .inl ⟨right, rightIn, below⟩
    · exact .inr ⟨layer, List.mem_cons_of_mem _ member, inside⟩

theorem mem_tree_of_digest (nonempty : hashes ≠ []) {node : Hash}
    (found : node ∈ (txTree hashes).digests sha3 Hash.get pairInput) :
    ∃ layer ∈ (Merkle.ofHashes sha3 hashes).tree, node ∈ layer := by
  obtain ⟨first, rest, rfl⟩ := List.exists_cons_of_ne_nil nonempty
  have leaves : ((.leaf first :: rest.map .leaf : List (HashTree Hash))).map (digest sha3) =
      (first :: rest).map fun hash => sha3 hash.get := by
    simp [digest, HashTree.digest, Function.comp_def]
  have inLayers := mem_layers_of_collapse _ _ found
  rw [leaves] at inLayers
  rcases inLayers with ⟨tree, member, inside⟩ | layer
  · obtain ⟨hash, hashIn, rfl⟩ : ∃ hash ∈ first :: rest, tree = .leaf hash := by
      rcases List.mem_cons.mp member with rfl | member
      · exact ⟨first, by simp, rfl⟩
      · obtain ⟨hash, hashIn, rfl⟩ := List.mem_map.mp member
        exact ⟨hash, by simp [hashIn], rfl⟩
    refine ⟨(first :: rest).map fun hash => sha3 hash.get, ?_, ?_⟩
    · exact self_mem_layers _
    · rw [List.mem_singleton.mp inside]
      exact List.mem_map.mpr ⟨hash, hashIn, rfl⟩
  · exact layer

/-- What a proof is accepted for is a node of the tree. A hash of 32 bytes, which the
leaves are, is accepted only if these bytes are among the listed hashes. -/
theorem verify_sound {hashes : List Hash} (nonempty : hashes ≠ []) (proof : List Hash) :
    (∀ leaf, HashTree.Collisionless sha3 (hashed sha3 hashes ++ verified sha3 proof leaf) →
      Merkle.verify sha3 proof leaf (Merkle.ofHashes sha3 hashes).getRoot = true →
      ∃ layer ∈ (Merkle.ofHashes sha3 hashes).tree, leaf ∈ layer) ∧
    ∀ value : Hash, HashTree.Collisionless sha3
        (value.get :: (hashed sha3 hashes ++ verified sha3 proof (sha3 value.get))) →
      Merkle.verify sha3 proof (sha3 value.get) (Merkle.ofHashes sha3 hashes).getRoot = true →
      value ∈ hashes ∧ sha3 value.get ∈ (Merkle.ofHashes sha3 hashes).getLeaves := by
  have inside : ∀ leaf, HashTree.Collisionless sha3 (hashed sha3 hashes ++ verified sha3 proof leaf) →
      Merkle.verify sha3 proof leaf (Merkle.ofHashes sha3 hashes).getRoot = true →
      leaf ∈ (txTree hashes).digests sha3 Hash.get pairInput := by
    intro leaf safe accepted
    have climbs := verify_iff.mp accepted
    rw [root_eq_digest nonempty] at climbs
    exact HashTree.mem_digests_of_climb pairInput_inj leaf_ne_pair safe climbs
  constructor
  · intro leaf safe accepted
    exact mem_tree_of_digest nonempty (inside leaf safe accepted)
  · intro value safe accepted
    have found := inside _ (safe.mono (List.subset_cons_self _ _)) accepted
    have listed : value ∈ (txTree hashes).labels := by
      refine HashTree.mem_labels_of_digest (fun _ _ => Hash.get_injective) leaf_ne_pair (safe.mono ?_) found
      exact List.cons_subset_cons _ (List.subset_append_left _ _)
    rw [txTree_labels nonempty] at listed
    refine ⟨listed, ?_⟩
    rw [getLeaves_ofHashes]
    exact List.mem_map_of_mem listed

def pair : List Hash := [earlier.hash, later.hash]

theorem pair_root : (Merkle.ofHashes keccak pair).getRoot =
    0xa3c45fa76377c0a96e373793e9023fb2a2d6970e0989ca39ce9f50d9acf834c9 := by
  rw [root_eq_digest (by simp [pair])]
  simp only [pair, txTree, HashTree.collapse, HashTree.pairUp, List.map_cons, List.map_nil, digest,
    HashTree.digest]
  decide

theorem pair_safe : HashTree.Collisionless keccak
    (hashed keccak pair ++ verified keccak [] (Merkle.ofHashes keccak pair).getRoot) := by
  rw [verified, HashTree.climbed, List.append_nil, pair, hashed_pair]
  unfold HashTree.Collisionless
  decide

/-- The proof for the first hash of the pair is the leaf of the second. -/
theorem first_of_pair_is_accepted :
    Merkle.verify keccak [keccak later.hash.get] (keccak earlier.hash.get) (Merkle.ofHashes keccak pair).getRoot = true := by
  rw [pair_root]
  decide

theorem first_of_pair_safe : HashTree.Collisionless keccak
    (earlier.hash.get :: (hashed keccak pair ++ verified keccak [keccak later.hash.get] (keccak earlier.hash.get))) := by
  rw [verified, HashTree.climbed, HashTree.climbed, pair, hashed_pair]
  unfold HashTree.Collisionless
  decide

theorem first_of_pair_is_listed :
    (∃ layer ∈ (Merkle.ofHashes keccak pair).tree, keccak earlier.hash.get ∈ layer) ∧
      earlier.hash ∈ pair ∧ keccak earlier.hash.get ∈ (Merkle.ofHashes keccak pair).getLeaves := by
  have sound := @verify_sound keccak pair (by simp [pair]) [keccak later.hash.get]
  exact ⟨sound.1 _ (first_of_pair_safe.mono (List.subset_cons_self _ _)) first_of_pair_is_accepted,
    sound.2 _ first_of_pair_safe first_of_pair_is_accepted⟩

/-- The empty proof passes the root of two hashes off as a leaf. -/
theorem root_of_pair_verifies : ¬ ∀ (sha3 : Bytes → Hash) (hashes proof : List Hash) (leaf : Hash), hashes ≠ [] →
    HashTree.Collisionless sha3 (hashed sha3 hashes ++ verified sha3 proof leaf) →
    Merkle.verify sha3 proof leaf (Merkle.ofHashes sha3 hashes).getRoot = true →
    leaf ∈ (Merkle.ofHashes sha3 hashes).getLeaves := by
  intro sound
  have leaf := sound keccak pair [] _ (by simp [pair]) pair_safe (verify_iff.mpr rfl)
  rw [pair_root, getLeaves_ofHashes, pair] at leaf
  exact absurd leaf (by decide)

end OrbiterSDK.Proofs.MerkleProofs
