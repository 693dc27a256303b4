import OrbiterSDK.Block
import OrbiterSDK.Lib.HashTree

/-! What the transaction root commits to. A pair is hashed smaller digest first,
so the root fixes the tree of transactions up to exchanging the children of nodes. -/

namespace OrbiterSDK.Proofs.MerkleRoot
open Lib

def pairInput (left right : Hash) : Bytes := (left.min right).get ++ (left.max right).get

private theorem trichotomy (left right : Hash) : left < right ∨ left = right ∨ right < left := by
  rw [BitVec.lt_def, BitVec.lt_def, ← BitVec.toNat_inj]
  exact Nat.lt_trichotomy _ _

private theorem min_max (left right : Hash) :
    (left.min right = left ∧ left.max right = right) ∨ (left.min right = right ∧ left.max right = left) := by
  unfold Hash.min Hash.max
  rcases trichotomy left right with less | same | more
  · simp [less, BitVec.lt_asymm less]
  · simp [same]
  · simp [more, BitVec.lt_asymm more]

theorem pairInput_comm (left right : Hash) : pairInput left right = pairInput right left := by
  unfold pairInput Hash.min Hash.max
  rcases trichotomy left right with less | same | more
  · simp [less, BitVec.lt_asymm less]
  · simp [same]
  · simp [more, BitVec.lt_asymm more]

theorem pairInput_inj {left right left' right' : Hash} (same : pairInput left right = pairInput left' right') :
    (left = left' ∧ right = right') ∨ (left = right' ∧ right = left') := by
  obtain ⟨low, high⟩ := List.append_inj same (by rw [Hash.get_length, Hash.get_length])
  have lowSame := Hash.get_injective low
  have highSame := Hash.get_injective high
  rcases min_max left right with ⟨low₁, high₁⟩ | ⟨low₁, high₁⟩ <;>
    rcases min_max left' right' with ⟨low₂, high₂⟩ | ⟨low₂, high₂⟩ <;>
    rw [low₁, low₂] at lowSame <;> rw [high₁, high₂] at highSame
  · exact .inl ⟨lowSame, highSame⟩
  · exact .inr ⟨lowSame, highSame⟩
  · exact .inr ⟨highSame, lowSame⟩
  · exact .inl ⟨highSame, lowSame⟩

theorem leaf_ne_pair (leaf left right : Hash) : leaf.get ≠ pairInput left right := by
  intro same
  have sizes := congrArg List.length same
  simp [pairInput, Hash.get_length] at sizes

/-- The tree that the layers of a non-empty list of hashes amount to. -/
def txTree : List Hash → HashTree Hash
  | [] => .leaf 0
  | first :: rest => .collapse (.leaf first) (rest.map .leaf)

theorem txTree_labels {hashes : List Hash} (nonempty : hashes ≠ []) : (txTree hashes).labels = hashes := by
  cases hashes with
  | nil => exact absurd rfl nonempty
  | cons first rest =>
    rw [txTree, HashTree.collapse_labels, List.flatMap_cons, HashTree.labels]
    simp [List.flatMap_map, HashTree.labels, List.flatMap_singleton']

variable (sha3 : Bytes → Hash)

def digest (tree : HashTree Hash) : Hash := tree.digest sha3 Hash.get pairInput

/-- Every byte string that is hashed while the tree over the hashes is built. -/
def hashed (hashes : List Hash) : List Bytes := (txTree hashes).inputs sha3 Hash.get pairInput

theorem newLayer_digests : ∀ forest : List (HashTree Hash),
    Merkle.newLayer sha3 (forest.map (digest sha3)) = (HashTree.pairUp forest).map (digest sha3)
  | [] => by simp [Merkle.newLayer, HashTree.pairUp]
  | [_] => by simp [Merkle.newLayer, HashTree.pairUp]
  | left :: right :: rest => by
    simp only [List.map_cons, Merkle.newLayer, HashTree.pairUp, newLayer_digests rest]
    rfl

theorem getRoot_layers (first : HashTree Hash) (rest : List (HashTree Hash)) :
    Merkle.getRoot ⟨Merkle.layers sha3 ((first :: rest).map (digest sha3))⟩ =
      digest sha3 (HashTree.collapse first rest) := by
  induction first, rest using HashTree.collapse.induct with
  | case1 first =>
    rw [Merkle.layers, if_neg (by simp), HashTree.collapse]
    rfl
  | case2 first second rest ih =>
    rw [Merkle.layers, if_pos (by simp), newLayer_digests, HashTree.pairUp, HashTree.collapse, ← ih]
    have above : ∃ top others,
        Merkle.layers sha3 ((HashTree.node first second :: HashTree.pairUp rest).map (digest sha3)) = top :: others := by
      rw [Merkle.layers]
      split
      · exact ⟨_, _, rfl⟩
      · exact ⟨_, _, rfl⟩
    obtain ⟨top, others, seen⟩ := above
    rw [seen]
    simp [Merkle.getRoot]

theorem getRoot_ofTxs {txs : List TxBlock} (nonempty : txs ≠ []) :
    (Merkle.ofTxs sha3 TxBlock.hash txs).getRoot = digest sha3 (txTree (txs.map TxBlock.hash)) := by
  cases txs with
  | nil => exact absurd rfl nonempty
  | cons first rest =>
    rw [List.map_cons, txTree, ← getRoot_layers]
    simp [Merkle.ofTxs, digest, HashTree.digest, Function.comp_def]

/-- Equal roots mean equal trees up to exchanging children, hence the same hashes up
to order, for two transaction lists and so for two finalized blocks with one header. -/
theorem root_commits_up_to_mirror {sha3 : Bytes → Hash} {first second : List TxBlock}
    (firstNonempty : first ≠ []) (secondNonempty : second ≠ [])
    (safe : HashTree.Collisionless sha3
      (hashed sha3 (first.map TxBlock.hash) ++ hashed sha3 (second.map TxBlock.hash))) :
    ((Merkle.ofTxs sha3 TxBlock.hash first).getRoot = (Merkle.ofTxs sha3 TxBlock.hash second).getRoot ↔
      HashTree.Mirror (txTree (first.map TxBlock.hash)) (txTree (second.map TxBlock.hash))) ∧
    ((Merkle.ofTxs sha3 TxBlock.hash first).getRoot = (Merkle.ofTxs sha3 TxBlock.hash second).getRoot →
      (first.map TxBlock.hash).Perm (second.map TxBlock.hash)) ∧
    ∀ left right : Block, left.Sealed sha3 → right.Sealed sha3 → left.txs = first → right.txs = second →
      left.serializeHeader = right.serializeHeader →
      HashTree.Mirror (txTree (first.map TxBlock.hash)) (txTree (second.map TxBlock.hash)) ∧
        (first.map TxBlock.hash).Perm (second.map TxBlock.hash) := by
  have mirrored : (Merkle.ofTxs sha3 TxBlock.hash first).getRoot = (Merkle.ofTxs sha3 TxBlock.hash second).getRoot →
      HashTree.Mirror (txTree (first.map TxBlock.hash)) (txTree (second.map TxBlock.hash)) := by
    intro same
    rw [getRoot_ofTxs sha3 firstNonempty, getRoot_ofTxs sha3 secondNonempty] at same
    exact HashTree.mirror_of_digest_eq (fun _ _ => Hash.get_injective) pairInput_inj leaf_ne_pair safe same
  have permuted : HashTree.Mirror (txTree (first.map TxBlock.hash)) (txTree (second.map TxBlock.hash)) →
      (first.map TxBlock.hash).Perm (second.map TxBlock.hash) := by
    intro mirror
    have labels := mirror.perm
    rwa [txTree_labels (by simpa using firstNonempty), txTree_labels (by simpa using secondNonempty)] at labels
  refine ⟨⟨mirrored, fun mirror => ?_⟩, fun same => permuted (mirrored same), ?_⟩
  · rw [getRoot_ofTxs sha3 firstNonempty, getRoot_ofTxs sha3 secondNonempty]
    exact mirror.digest_eq pairInput_comm
  · intro left right leftSealed rightSealed leftTxs rightTxs header
    have same := Block.txMerkleRoot_eq_of_header header
    rw [leftSealed.txRoot, rightSealed.txRoot, leftTxs, rightTxs] at same
    exact ⟨mirrored same, permuted (mirrored same)⟩

/-- Keccak-256 where it is used for the two transactions below. -/
def keccak (bytes : Bytes) : Hash :=
  if bytes = Hash.get 0x290decd9548b62a8d60345a988386fc84ba6bc95484008f6362f93160ef3e563 then
    0x510e4e770828ddbf7f7b00ab00a9f6adaf81c0dc9cc85f1f8249c256942d61d9
  else if bytes = Hash.get 0xb10e2d527612073b26eecdfd717e6a320cf44b4afac2b0732d9fcbe2b7fa0cf6 then
    0xb5d9d894133a730aa651ef62d26b0ffa846233c74177a591a4a896adfda97d22
  else if bytes = Hash.get 0x510e4e770828ddbf7f7b00ab00a9f6adaf81c0dc9cc85f1f8249c256942d61d9 ++
      Hash.get 0xb5d9d894133a730aa651ef62d26b0ffa846233c74177a591a4a896adfda97d22 then
    0xa3c45fa76377c0a96e373793e9023fb2a2d6970e0989ca39ce9f50d9acf834c9
  else 0

def transfer (nonce : Uint256) (hash : Hash) : TxBlock where
  «to» := 2
  «from» := 1
  data := []
  chainId := 8080
  nonce
  value := 1
  maxPriorityFeePerGas := 0
  maxFeePerGas := 1
  gasLimit := 21000
  v := 27
  r := 1
  s := 1
  hash

def earlier : TxBlock := transfer 0 0x290decd9548b62a8d60345a988386fc84ba6bc95484008f6362f93160ef3e563

def later : TxBlock := transfer 1 0xb10e2d527612073b26eecdfd717e6a320cf44b4afac2b0732d9fcbe2b7fa0cf6

theorem hashed_pair (first second : Hash) :
    hashed keccak [first, second] = [pairInput (keccak first.get) (keccak second.get), first.get, second.get] := by
  simp [hashed, txTree, HashTree.collapse, HashTree.pairUp, HashTree.inputs, HashTree.digest]

private theorem keccak_safe : HashTree.Collisionless keccak
    (hashed keccak ([earlier, later].map TxBlock.hash) ++ hashed keccak ([later, earlier].map TxBlock.hash)) := by
  simp only [List.map_cons, List.map_nil, hashed_pair]
  unfold HashTree.Collisionless
  decide

private theorem exchanged : HashTree.Mirror (txTree ([earlier, later].map TxBlock.hash))
    (txTree ([later, earlier].map TxBlock.hash)) := by
  simp only [List.map_cons, List.map_nil, txTree, HashTree.collapse, HashTree.pairUp]
  exact .crossed (.leaf _) (.leaf _)

theorem root_of_exchanged_pair :
    HashTree.Collisionless keccak
      (hashed keccak ([earlier, later].map TxBlock.hash) ++ hashed keccak ([later, earlier].map TxBlock.hash)) ∧
    (Merkle.ofTxs keccak TxBlock.hash [earlier, later]).getRoot =
      (Merkle.ofTxs keccak TxBlock.hash [later, earlier]).getRoot :=
  ⟨keccak_safe, (root_commits_up_to_mirror (by simp) (by simp) keccak_safe).1.mpr exchanged⟩

/-- The root does not fix the order: exchanging two transactions keeps it. -/
theorem root_does_not_fix_order : ¬ ∀ (sha3 : Bytes → Hash) (first second : List TxBlock),
    first ≠ [] → second ≠ [] →
    HashTree.Collisionless sha3 (hashed sha3 (first.map TxBlock.hash) ++ hashed sha3 (second.map TxBlock.hash)) →
    (Merkle.ofTxs sha3 TxBlock.hash first).getRoot = (Merkle.ofTxs sha3 TxBlock.hash second).getRoot →
    first.map TxBlock.hash = second.map TxBlock.hash := by
  intro ordered
  have root : (Merkle.ofTxs keccak TxBlock.hash [earlier, later]).getRoot =
      (Merkle.ofTxs keccak TxBlock.hash [later, earlier]).getRoot := by
    rw [getRoot_ofTxs keccak (by simp), getRoot_ofTxs keccak (by simp)]
    exact exchanged.digest_eq pairInput_comm
  have same := ordered keccak [earlier, later] [later, earlier] (by simp) (by simp) keccak_safe root
  exact absurd same (by decide)

end OrbiterSDK.Proofs.MerkleRoot
