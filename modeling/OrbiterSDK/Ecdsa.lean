import OrbiterSDK.Utils

/-! Keys and signatures. The curve itself is a library; what is built on it is here. -/

namespace OrbiterSDK

abbrev PrivKey := BitVec 256
abbrev UPubKey := BitVec 520

/-- The 65 bytes of a signature: 32 for each number and one for the recovery id. -/
structure Signature where
  r : Uint256
  s : Uint256
  v : UInt8
  deriving DecidableEq

/-- The functions of the curve library. A public key is given by its two coordinates. -/
structure Secp256k1 where
  pubkeyCreate : PrivKey → Option (BitVec 512)
  signRecoverable : Hash → PrivKey → Option Signature
  ecdsaRecover : Signature → Hash → Option (BitVec 512)

namespace Secp256k1

/-- The order of the curve. -/
def ecConst : Uint256 := 115792089237316195423570985008687907852837564279074904382605163141518161494337

/-- The serialized key, behind the byte that says that it is uncompressed. -/
def serialize (point : BitVec 512) : UPubKey := 4#8 ++ point

variable (lib : Secp256k1)

def recover (sig : Signature) (msg : Hash) : UPubKey :=
  if 3 < sig.v then 0
  else match lib.ecdsaRecover sig msg with
    | none => 0
    | some rawPubkey => serialize rawPubkey

def makeSig (r s : Uint256) (v : UInt8) : Signature := ⟨r, s, v⟩

def verifySig (r s : Uint256) (v : UInt8) : Bool := v ≤ 1 && 0 < r && 0 < s && r < ecConst && s < ecConst

def toUPub (key : PrivKey) : UPubKey :=
  match lib.pubkeyCreate key with
  | none => 0
  | some rawPubkey => serialize rawPubkey

/-- The low 20 bytes of the hash of the coordinates. -/
def toAddress (sha3 : Bytes → Hash) (key : UPubKey) : Address :=
  (sha3 ((Utils.uintToBytes 65 key.toNat).drop 1)).setWidth 160

/-- Of the two numbers that sign the same message, the smaller one is taken. -/
def sign (msg : Hash) (key : PrivKey) : Except Exception Signature :=
  match lib.signRecoverable msg key with
  | none => .ok ⟨0, 0, 0⟩
  | some rawSig =>
    if ecConst.toNat / 2 < rawSig.s.toNat then do
      let s ← Uint256.sub ecConst rawSig.s
      pure (makeSig rawSig.r s (rawSig.v ^^^ 1))
    else pure (makeSig rawSig.r rawSig.s rawSig.v)

theorem serialize_ne_zero (point : BitVec 512) : serialize point ≠ 0 := by
  intro zero
  have bit := congrArg (fun key : UPubKey => key.getLsbD 514) zero
  simp only [serialize, BitVec.getLsbD_append] at bit
  simp at bit

end Secp256k1
end OrbiterSDK
