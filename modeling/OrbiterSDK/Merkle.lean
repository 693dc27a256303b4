import OrbiterSDK.Utils

/-! The Merkle tree over a list of hashes, layer by layer. -/

namespace OrbiterSDK

/-- `std::min` and `std::max` on the byte arrays, most significant byte first. -/
def Hash.min (left right : Hash) : Hash := if right < left then right else left

def Hash.max (left right : Hash) : Hash := if left < right then right else left

structure Merkle where
  tree : List (List Hash)

namespace Merkle
variable (sha3 : Bytes → Hash)

def newLayer : List Hash → List Hash
  | left :: right :: rest => sha3 ((left.min right).get ++ (left.max right).get) :: newLayer rest
  | [last] => [last]
  | [] => []

theorem newLayer_length : ∀ layer : List Hash, (newLayer sha3 layer).length = (layer.length + 1) / 2
  | [] => by simp [newLayer]
  | [_] => by simp [newLayer]
  | _ :: _ :: rest => by
    rw [newLayer, List.length_cons, newLayer_length rest, List.length_cons, List.length_cons]
    omega

/-- The layers from the given one up to the root. -/
def layers (layer : List Hash) : List (List Hash) :=
  if 1 < layer.length then layer :: layers (newLayer sha3 layer) else [layer]
  termination_by layer.length
  decreasing_by
    rw [newLayer_length]
    omega

/-- The constructor from a list of leaves. -/
def ofHashes (leaves : List Hash) : Merkle := ⟨layers sha3 (leaves.map fun leaf => sha3 leaf.get)⟩

/-- The constructor from a list of transactions of either kind. -/
def ofTxs {TxType : Type} (hash : TxType → Hash) (txs : List TxType) : Merkle :=
  ⟨layers sha3 (txs.map fun tx => sha3 (hash tx).get)⟩

def getRoot (merkle : Merkle) : Hash :=
  match merkle.tree.getLast? with
  | some (root :: _) => root
  | _ => 0

def getLeaves (merkle : Merkle) : List Hash := merkle.tree.headD []

/-- The loop of `getProof` over the layers; `none` where it reads an element that its
layer does not have. The halved position is what `std::ceil` makes of an integer. -/
def siblings : List (List Hash) → Nat → Option (List Hash)
  | [], _ => some []
  | layer :: above, pos =>
      if layer.length = 1 then some []
      else do
        let pos := if pos % 2 = 0 then pos + 1 else pos - 1
        let sibling ← layer[pos]?
        let rest ← siblings above (pos / 2)
        return sibling :: rest

/-- For no leaves `size() - 1` is the largest index there is, so nothing is above it. -/
def getProof (merkle : Merkle) (leafIndex : Nat) : Option (List Hash) :=
  if merkle.getLeaves.length ≠ 0 ∧ merkle.getLeaves.length - 1 < leafIndex then some []
  else siblings merkle.tree leafIndex

def verify (proof : List Hash) (leaf root : Hash) : Bool :=
  proof.foldl (fun computedHash hash =>
    sha3 ((computedHash.min hash).get ++ (computedHash.max hash).get)) leaf == root

end Merkle
end OrbiterSDK
