import OrbiterSDK.Ecdsa
import OrbiterSDK.Lib.Reader

/-! Transactions and their bytes. The constructors from bytes read the items of a list
one after another; spans are not checked, so they can also read what lies behind. -/

namespace OrbiterSDK
open Lib Lib.Reader

namespace Utils

/-- `uintToBytes` at an integer type: as many bytes as it takes, none for zero. -/
def unpadded (value : Nat) : Bytes := uintToBytes (bytesRequired value) value

/-- `fromBigEndian` at a built-in type keeps the low bits. -/
def fromBigEndian64 (bytes : Bytes) : UInt64 := UInt64.ofNat (bytesToUint bytes)

/-- `fromBigEndian` at the checked type. -/
def fromBigEndian256 (bytes : Bytes) : Except Exception Uint256 :=
  if bytesToUint bytes < 2 ^ 256 then .ok (BitVec.ofNat 256 (bytesToUint bytes)) else .error Uint256.overflow

end Utils

namespace Tx

/-! Items as they are written. -/

def uintSize (value : Nat) : Nat := if value < 0x80 then 1 else 1 + Utils.bytesRequired value

def uintItem (value : Nat) : Bytes :=
  if value = 0 then [0x80]
  else if value < 0x80 then [UInt8.ofNat value]
  else UInt8.ofNat (Utils.bytesRequired value + 0x80) :: Utils.unpadded value

/-- Small numbers, also zero, as one byte. -/
def smallItem (value : Nat) : Bytes :=
  if value < 0x80 then [UInt8.ofNat value] else UInt8.ofNat (Utils.bytesRequired value + 0x80) :: Utils.unpadded value

/-- Always with a length. -/
def scalarItem (value : Nat) : Bytes := UInt8.ofNat (Utils.bytesRequired value + 0x80) :: Utils.unpadded value

def dataSize (data : Bytes) : Nat :=
  if data.length = 0 then 1
  else if data.length ≤ 55 then 1 + data.length
  else 1 + Utils.bytesRequired data.length + data.length

def dataItem (data : Bytes) : Bytes :=
  if data.length = 0 then [0x80]
  else if data.length ≤ 55 then UInt8.ofNat (data.length + 0x80) :: data
  else UInt8.ofNat (Utils.bytesRequired data.length + 0xb7) :: (Utils.unpadded data.length ++ data)

def listHeader (totalSize : Nat) : Bytes :=
  if totalSize ≤ 55 then [UInt8.ofNat (totalSize + 0xc0)]
  else UInt8.ofNat (Utils.bytesRequired totalSize + 0xf7) :: Utils.unpadded totalSize

/-! Items as they are read. -/

/-- The end of readable memory. -/
def pastEnd : Exception := "segmentation fault"

abbrev TxReader := Reader UInt8 Exception

/-- The header of the list that fills a span of some size. -/
def readList (size : UInt64) : TxReader Unit := do
  let first ← peek pastEnd
  if first < 0xf7 then throw "Tx is not a list"
  else do
    let _ ← take pastEnd 1
    let listLengthSize := first - 0xf7
    let listLength ← take pastEnd listLengthSize.toNat
    let rest := size - UInt64.ofNat listLengthSize.toNat - 1
    if Utils.fromBigEndian64 listLength < rest then throw "Tx RLP returns smaller size than reported"
    else if rest < Utils.fromBigEndian64 listLength then throw "Tx RLP returns larger size than reported"
    else pure ()

/-- An integer, as a small string or the byte itself. Some lengths may be refused. -/
def readUint {α : Type} (convert : Bytes → Except Exception α) (refuse : UInt8 → Option Exception) : TxReader α := do
  let first ← peek pastEnd
  let length := if 0x80 ≤ first then first - 0x80 else 0
  if length ≠ 0 then
    match refuse length with
    | some what => throw what
    | none => do
      let _ ← take pastEnd 1
      let payload ← take pastEnd length.toNat
      lift (convert payload)
  else do
    let payload ← take pastEnd 1
    lift (convert (if first = 0x80 then [] else payload))

def tooLarge (what : Exception) (length : UInt8) : Option Exception := if 0x37 < length then some what else none

/-- An integer that always has a length, at most a given one. -/
def readScalar (longest : UInt8) (what : Exception) : TxReader Uint256 := do
  let first ← peek pastEnd
  let length := first - 0x80
  if longest < length then throw what
  else do
    let _ ← take pastEnd 1
    let payload ← take pastEnd length.toNat
    lift (Utils.fromBigEndian256 payload)

/-- The data. Some first bytes of long strings may be refused. -/
def readData (refuse : UInt8 → Option Exception) : TxReader Bytes := do
  let first ← peek pastEnd
  if first < 0x80 then take pastEnd 1
  else if first < 0xb7 then do
    let _ ← take pastEnd 1
    take pastEnd (first - 0x80).toNat
  else
    match refuse first with
    | some what => throw what
    | none => do
      let _ ← take pastEnd 1
      let dataLength ← take pastEnd (first - 0xb7).toNat
      take pastEnd (Utils.fromBigEndian64 dataLength).toNat

/-- `uint64_t`. -/
def toUint64 (bytes : Bytes) : Except Exception UInt64 := .ok (Utils.fromBigEndian64 bytes)

/-- `uint256_t`, but read as `uint64_t`. -/
def throughUint64 (bytes : Bytes) : Except Exception Uint256 := .ok (BitVec.ofNat 256 (Utils.fromBigEndian64 bytes).toNat)

end Tx

namespace TxBlock
open Tx

/-- The items that are signed. -/
def items (tx : TxBlock) : List Bytes :=
  [uintItem tx.chainId.toNat, uintItem tx.nonce.toNat, uintItem tx.maxPriorityFeePerGas.toNat, uintItem tx.maxFeePerGas.toNat,
    uintItem tx.gasLimit.toNat, if tx.to = 0 then [0x80] else 0x94 :: tx.to.get, uintItem tx.value.toNat, dataItem tx.data, [0xc0]]

/-- The items of the signature. -/
def sigItems (tx : TxBlock) : List Bytes := [if tx.v = 0 then [0x80] else [tx.v], scalarItem tx.r.toNat, scalarItem tx.s.toNat]

def totalSize (tx : TxBlock) (includeSig : Bool) : Nat :=
  uintSize tx.chainId.toNat + uintSize tx.nonce.toNat + uintSize tx.maxPriorityFeePerGas.toNat + uintSize tx.maxFeePerGas.toNat +
    uintSize tx.gasLimit.toNat + (if tx.to = 0 then 1 else 1 + 20) + uintSize tx.value.toNat + 1 + dataSize tx.data +
    if includeSig then 1 + (1 + Utils.bytesRequired tx.r.toNat) + (1 + Utils.bytesRequired tx.s.toNat) else 0

def rlpSerialize (tx : TxBlock) (includeSig : Bool) : Bytes :=
  0x02 :: (listHeader (tx.totalSize includeSig) ++ (tx.items ++ if includeSig then tx.sigItems else []).flatten)

/-- The receiver. -/
def readTo : TxReader Address := do
  let first ← peek pastEnd
  let toLength := first - 0x80
  if toLength ≠ 20 ∧ toLength ≠ 0 then throw "Receiver address (to) is not a 20 byte string (address)"
  else do
    let _ ← take pastEnd 1
    let payload ← take pastEnd toLength.toNat
    pure (if toLength = 0 then 0 else Address.ofBytes payload)

def readAccessList : TxReader Unit := do
  let first ← peek pastEnd
  if first ≠ 0xc0 then throw "Access list is not empty"
  else do
    let _ ← take pastEnd 1
    pure ()

def readV : TxReader UInt8 := do
  let first ← peek pastEnd
  let v := if first = 0x80 then 0 else first
  if 1 < v then throw "V is not 0 or 1"
  else do
    let _ ← take pastEnd 1
    pure v

/-- All items. Sender and hash are still missing. -/
def readItems : TxReader TxBlock := do
  let chainId ← readUint toUint64 (tooLarge "ChainId is too large")
  let nonce ← readUint throughUint64 (tooLarge "Nonce is too large")
  let maxPriorityFeePerGas ← readUint Utils.fromBigEndian256 (tooLarge "MaxPriorityFeePerGas is too large")
  let maxFeePerGas ← readUint Utils.fromBigEndian256 (tooLarge "MaxFeePerGas is too large")
  let gasLimit ← readUint throughUint64 (tooLarge "GasLimit is too large")
  let «to» ← readTo
  let value ← readUint Utils.fromBigEndian256 (tooLarge "Value is not a small string")
  let data ← readData fun first => if first < 0xc0 then none else some "Data is too large"
  readAccessList
  let v ← readV
  let r ← readScalar 0x20 "R is bigger than 32 bytes"
  let s ← readScalar 0x20 "S is bigger than 32 bytes"
  pure { «to», «from» := 0, data, chainId, nonce, value, maxPriorityFeePerGas, maxFeePerGas, gasLimit, v, r, s, hash := 0 }

variable (lib : Secp256k1) (sha3 : Bytes → Hash)

/-- The sender is the one who has signed what would be serialized without the signature. -/
def recovered (tx : TxBlock) : Except Exception TxBlock :=
  if !Secp256k1.verifySig tx.r tx.s tx.v then .error "Invalid tx signature - doesn't fit elliptic curve verification"
  else
    let sig := Secp256k1.makeSig tx.r tx.s tx.v
    let msgHash := sha3 (tx.rlpSerialize false)
    let key := lib.recover sig msgHash
    if key = 0 then .error "Invalid tx signature - cannot recover public key"
    else .ok { tx with
      «from» := Secp256k1.toAddress sha3 key
      hash := sha3 (tx.rlpSerialize true) }

/-- The constructor from bytes, which takes a chain id as well. Behind the bytes there may be others. -/
def ofBytes (bytes past : Bytes) (_requiredChainId : UInt64) : Except Exception TxBlock :=
  let read : TxReader TxBlock := do
    let type ← peek pastEnd
    if type ≠ 0x02 then throw "Tx is not type 2"
    else do
      let _ ← take pastEnd 1
      readList (UInt64.ofNat bytes.length - 1)
      let tx ← readItems
      lift (tx.recovered lib sha3)
  (read.eval (bytes ++ past)).1

/-- The constructor that signs. -/
def sign («to» «from» : Address) (data : Bytes) (chainId : UInt64) (nonce value maxPriorityFeePerGas maxFeePerGas gasLimit : Uint256)
    (privKey : PrivKey) : Except Exception TxBlock :=
  let tx : TxBlock :=
    { «to», «from», data, chainId, nonce, value, maxPriorityFeePerGas, maxFeePerGas, gasLimit, v := 0, r := 0, s := 0, hash := 0 }
  let pubKey := lib.toUPub privKey
  if Secp256k1.toAddress sha3 pubKey ≠ tx.from then .error "Private key does not match sender address (from)"
  else
    let msgHash := sha3 (tx.rlpSerialize false)
    match lib.sign msgHash privKey with
    | .error what => .error what
    | .ok sig =>
      let tx := { tx with r := sig.r, s := sig.s, v := sig.v }
      if pubKey ≠ lib.recover sig msgHash then .error "Invalid tx signature - derived key doesn't match public key"
      else if !Secp256k1.verifySig tx.r tx.s tx.v then
        .error "Invalid tx signature - doesn't fit elliptic curve verification"
      else .ok { tx with hash := sha3 (tx.rlpSerialize true) }

end TxBlock

namespace TxValidator
open Tx

def items (tx : TxValidator) (includeSig : Bool) : List Bytes :=
  [dataItem tx.data, uintItem tx.nHeight.toNat, smallItem (if includeSig then tx.v.toNat else tx.chainId.toNat),
    if includeSig then scalarItem tx.r.toNat else [0x80], if includeSig then scalarItem tx.s.toNat else [0x80]]

def totalSize (tx : TxValidator) (includeSig : Bool) : Nat :=
  dataSize tx.data + uintSize tx.nHeight.toNat + uintSize (if includeSig then tx.v.toNat else tx.chainId.toNat) +
    (if includeSig then 1 + Utils.bytesRequired tx.r.toNat else 1) + (if includeSig then 1 + Utils.bytesRequired tx.s.toNat else 1)

def rlpSerialize (tx : TxValidator) (includeSig : Bool) : Bytes :=
  listHeader (tx.totalSize includeSig) ++ (tx.items includeSig).flatten

/-- All items. Chain id, sender and hash are still missing. -/
def readItems : TxReader TxValidator := do
  let data ← readData fun _ => none
  let nHeight ← readUint toUint64 fun _ => none
  let v ← readUint Utils.fromBigEndian256 (tooLarge "V is not a small string")
  let r ← readScalar 0x37 "R is not a small string"
  let s ← readScalar 0x37 "S is not a small string"
  pure { «from» := 0, data, chainId := 0, nHeight, v, r, s, hash := 0 }

/-- The chain id and the recovery id that are folded into `v`. A `v` without a chain id is
let through, but what is then subtracted from it exceeds it. -/
def unfoldV (v : Uint256) : Except Exception (UInt64 × UInt8) :=
  if 36 < v.toNat then
    match Uint256.narrow (2 ^ 64) (BitVec.ofNat 256 ((v.toNat - 35) / 2)) with
    | .error what => .error what
    | .ok chainId => .ok (UInt64.ofNat chainId, UInt8.ofNat (v.toNat - (chainId * 2 + 35)))
  else if v.toNat ≠ 27 ∧ v.toNat ≠ 28 then
    .error ("Invalid tx signature - v is not 27 or 28, v is " ++ toString v.toNat)
  else .error Uint256.negative

variable (lib : Secp256k1) (sha3 : Bytes → Hash)

def recovered (tx : TxValidator) : Except Exception TxValidator :=
  match unfoldV tx.v with
  | .error what => .error what
  | .ok (chainId, recoveryId) =>
    let tx := { tx with chainId }
    if !Secp256k1.verifySig tx.r tx.s recoveryId then
      .error "Invalid tx signature - doesn't fit elliptic curve verification"
    else
      let sig := Secp256k1.makeSig tx.r tx.s recoveryId
      let msgHash := sha3 (tx.rlpSerialize false)
      let key := lib.recover sig msgHash
      if key = 0 then .error "Invalid tx signature - cannot recover public key"
      else .ok { tx with
        «from» := Secp256k1.toAddress sha3 key
        hash := sha3 (tx.rlpSerialize true) }

def ofBytes (bytes past : Bytes) (_requiredChainId : UInt64) : Except Exception TxValidator :=
  let read : TxReader TxValidator := do
    readList (UInt64.ofNat bytes.length)
    let tx ← readItems
    lift (tx.recovered lib sha3)
  (read.eval (bytes ++ past)).1

/-- `v` is computed with 64 bits. -/
def sign («from» : Address) (data : Bytes) (chainId nHeight : UInt64) (privKey : PrivKey) : Except Exception TxValidator :=
  let tx : TxValidator := { «from», data, chainId, nHeight, v := 0, r := 0, s := 0, hash := 0 }
  let pubKey := lib.toUPub privKey
  let msgHash := sha3 (tx.rlpSerialize false)
  if Secp256k1.toAddress sha3 pubKey ≠ tx.from then .error "Private key does not match sender address (from)"
  else
    match lib.sign msgHash privKey with
    | .error what => .error what
    | .ok sig =>
      let v : UInt64 := UInt64.ofNat sig.v.toNat + (chainId * 2 + 35)
      let tx := { tx with r := sig.r, s := sig.s, v := BitVec.ofNat 256 v.toNat }
      if !Secp256k1.verifySig tx.r tx.s sig.v then .error "Invalid tx signature - doesn't fit elliptic curve verification"
      else if pubKey ≠ lib.recover sig msgHash then
        .error "Invalid transaction signature, signature derived key doens't match public key"
      else .ok { tx with hash := sha3 (tx.rlpSerialize true) }

end TxValidator
end OrbiterSDK
