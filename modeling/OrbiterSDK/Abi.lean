import OrbiterSDK.Tx

/-! Values of nested types as words of 32 bytes. What has no fixed size stands behind the
words of its list, where an offset in its place points to. -/

namespace OrbiterSDK

namespace Utils

/-- Zeros in front, unless there are enough bytes. -/
def padLeftBytes (bytes : Bytes) (charAmount : Nat) : Bytes := List.replicate (charAmount - bytes.length) 0 ++ bytes

def padRightBytes (bytes : Bytes) (charAmount : Nat) : Bytes := bytes ++ List.replicate (charAmount - bytes.length) 0

/-- The borrow goes through every zero byte from the end on, and takes one from each place it
comes to. The bytes are given from the last one on. -/
def borrowed : Bytes → Nat → Nat
  | [], _ => 0
  | byte :: rest, place => place + if byte = 0 then borrowed rest (place * 256) else 0

def bytesToInt256 (bytes : Bytes) : Int :=
  let ret := bytesToUint bytes
  if 0x80 ≤ bytes.headD 0 then -(2 ^ 256 - 1 - (ret - borrowed bytes.reverse 1 : Int)) else ret

end Utils

namespace ABI

/-- Types of one word. Integers have up to 32 bytes, one more than what is given here. -/
inductive Word where
  | uint (more : Fin 32)
  | int (more : Fin 32)
  | bool
  | address
  | hash
  | enumeration (more : Fin 8)
  deriving DecidableEq

mutual

/-- Types as the templates are instantiated with them. -/
inductive Ty where
  | word (word : Word)
  | bytes
  | string
  | vector (element : Ty)
  | tuple (members : Tys)

/-- Lists of types. None is empty. -/
inductive Tys where
  | last (ty : Ty)
  | cons (ty : Ty) (rest : Tys)

end

abbrev Word.Value : Word → Type
  | uint more => BitVec (8 * (more + 1))
  | int _ => Int
  | bool => Bool
  | address => Address
  | hash => Hash
  | enumeration more => BitVec (8 * (more + 1))

mutual

@[reducible]
def Ty.Value : Ty → Type
  | .word word => word.Value
  | .bytes => Bytes
  | .string => Bytes
  | .vector element => List element.Value
  | .tuple members => members.Values

@[reducible]
def Tys.Values : Tys → Type
  | .last ty => ty.Value
  | .cons ty rest => ty.Value × rest.Values

end

mutual

def Ty.isDynamic : Ty → Bool
  | .word _ => false
  | .bytes => true
  | .string => true
  | .vector _ => true
  | .tuple members => members.isTupleOfDynamicTypes

def Tys.isTupleOfDynamicTypes : Tys → Bool
  | .last ty => ty.isDynamic
  | .cons ty rest => ty.isDynamic || rest.isTupleOfDynamicTypes

end

def Tys.tupleSize : Tys → Nat
  | .last _ => 1
  | .cons _ rest => rest.tupleSize + 1

/-- One word, or one for each member of a tuple. -/
def calculateOffsetForType (ty : Ty) : Nat :=
  if ty.isDynamic then 32
  else match ty with
    | .tuple members => 32 * members.tupleSize
    | _ => 32

def calculateTotalOffset : Tys → Nat
  | .last ty => calculateOffsetForType ty
  | .cons ty rest => calculateOffsetForType ty + calculateTotalOffset rest

namespace Encoder

def encodeUint (num : Nat) : Bytes := Utils.uintToBytes 32 num

/-- Of a negative number the bytes are flipped and one is added. Limbs that are not in use are zero. -/
def encodeInt (num : Int) : Bytes :=
  if num < 0 then Utils.uintToBytes 32 (2 ^ 256 - num.natAbs) else Utils.uintToBytes 32 num.natAbs

/-- The least positive number of words that hold some bytes, as a number of bytes. After its greatest value `int pad`
is negative, which is more than every size, and is given on as 32 bits. -/
def pad (size : Nat) : Nat := if size ≤ 32 then 32 else min ((size + 31) / 32 * 32) (2 ^ 31)

def encodeBytes (bytes : Bytes) : Bytes :=
  Utils.padLeftBytes (Utils.unpadded bytes.length) 32 ++ Utils.padRightBytes bytes (pad bytes.length)

def encodeWord : (word : Word) → word.Value → Bytes
  | .uint _, num => encodeUint num.toNat
  | .int _, num => encodeInt num
  | .bool, value => Utils.padLeftBytes [bif value then 0x01 else 0x00] 32
  | .address, address => Utils.padLeftBytes (Address.get address) 32
  | .hash, hash => Hash.get hash
  | .enumeration _, value => encodeUint (value.toNat % 2 ^ 8)

/-- What is written so far: words and offsets, where the next dynamic bytes will stand, and these bytes. -/
structure Packing where
  result : Bytes
  nextOffset : Nat
  dynamicBytes : Bytes

def Packing.encodeItem (packing : Packing) (dynamic : Bool) (packed : Bytes) : Packing :=
  if dynamic then
    { result := packing.result ++ Utils.padLeftBytes (Utils.unpadded packing.nextOffset) 32
      nextOffset := packing.nextOffset + packed.length
      dynamicBytes := packing.dynamicBytes ++ packed }
  else { packing with result := packing.result ++ packed }

def Packing.all (packing : Packing) : Bytes := packing.result ++ packing.dynamicBytes

mutual

def encode : (ty : Ty) → ty.Value → Bytes
  | .word word, value => encodeWord word value
  | .bytes, bytes => encodeBytes bytes
  | .string, bytes => encodeBytes bytes
  | .vector element, values =>
    let length := Utils.padLeftBytes (Utils.unpadded values.length) 32
    let packed := values.map (encode element)
    if element.isDynamic then
      length ++ (packed.foldl (fun (packing : Packing) item => packing.encodeItem true item) ⟨[], 32 * values.length, []⟩).all
    else length ++ packed.flatten
  | .tuple members, values => (encodeItems members values ⟨[], calculateTotalOffset members, []⟩).all

def encodeItems : (tys : Tys) → tys.Values → Packing → Packing
  | .last ty, value, packing => packing.encodeItem ty.isDynamic (encode ty value)
  | .cons ty rest, values, packing =>
    encodeItems rest values.2 (packing.encodeItem ty.isDynamic (encode ty values.1))

end

def encodeData (tys : Tys) (values : tys.Values) : Bytes := (encodeItems tys values ⟨[], calculateTotalOffset tys, []⟩).all

end Encoder

namespace Decoder
open Tx (pastEnd)

/-- A range of a view. A range that begins behind its end is none. -/
def range (bytes : Bytes) (start finish : Nat) : Except Exception Bytes :=
  if start ≤ finish ∧ finish ≤ bytes.length then .ok ((bytes.drop start).take (finish - start)) else .error pastEnd

/-- `bytes.subspan(offset)`. -/
def subspan (bytes : Bytes) (offset : Nat) : Except Exception Bytes :=
  if offset ≤ bytes.length then .ok (bytes.drop offset) else .error pastEnd

/-- Sums of what has been read have 64 bits. -/
def add64 (left right : Nat) : Nat := (left + right) % 2 ^ 64

/-- `if (needed > bytes.size()) throw`. -/
def enough (bytes : Bytes) (needed : Nat) (what : Exception) : Except Exception Unit :=
  if bytes.length < needed then .error what else .ok ()

/-- A word, taken whole, and the place behind it. The index itself never gets past the end. -/
def decodeFixed {α : Type} (what : Exception) (convert : Bytes → Except Exception α) (bytes : Bytes) (index : Nat) :
    Except Exception (α × Nat) := do
  enough bytes (index + 32) what
  let word ← range bytes index (index + 32)
  let value ← convert word
  pure (value, index + 32)

def decodeUint {α : Type} (convert : Nat → Except Exception α) : Bytes → Nat → Except Exception (α × Nat) :=
  decodeFixed "Data too short for uint256" fun word => convert (Utils.bytesToUint word)

/-- `static_cast` to an unsigned type with some bytes. -/
def narrow (size value : Nat) : Except Exception (BitVec (8 * size)) :=
  if value < 2 ^ (8 * size) then .ok (BitVec.ofNat _ value) else .error Uint256.outOfRange

/-- `static_cast` to a signed type. The built-in ones are two's complements, the others magnitudes with a sign. -/
def narrowInt (size : Nat) (value : Int) : Except Exception Int :=
  let fits :=
    if size = 1 ∨ size = 2 ∨ size = 4 ∨ size = 8 then -2 ^ (8 * size - 1) ≤ value ∧ value < 2 ^ (8 * size - 1)
    else value.natAbs < 2 ^ (8 * size)
  if fits then .ok value else .error Uint256.outOfRange

def decodeWord : (word : Word) → Bytes → Nat → Except Exception (word.Value × Nat)
  | .uint more => decodeUint (narrow (more + 1))
  | .int more => decodeFixed "Data too short for int256" fun word => narrowInt (more + 1) (Utils.bytesToInt256 word)
  | .bool => decodeFixed "Data too short for bool" fun word => .ok (word.getD 31 0 == 0x01)
  | .address => decodeFixed "Data too short for address" fun word => .ok (Address.ofBytes (word.drop 12))
  | .hash => decodeFixed "Data too short for hash" fun word => .ok (Hash.ofBytes word)
  | .enumeration more => decodeUint (narrow (more + 1))

/-- An offset or a length. -/
def word64 (bytes : Bytes) (start : Nat) : Except Exception Nat := do
  let word ← range bytes start (add64 start 32)
  pure (Utils.fromBigEndian64 word).toNat

/-- Three texts for the three things that can be too short. -/
def decodeBytes (first second third : Exception) (bytes : Bytes) (index : Nat) : Except Exception (Bytes × Nat) := do
  enough bytes (index + 32) first
  let bytesStart ← word64 bytes index
  enough bytes (add64 bytesStart 32) second
  let bytesLength ← word64 bytes bytesStart
  enough bytes (add64 (add64 bytesStart 32) bytesLength) third
  let data ← range bytes (add64 bytesStart 32) (add64 (add64 bytesStart 32) bytesLength)
  pure (data, index + 32)

/-- The loop of a vector over its view. -/
def decodeElements {α : Type} (decodeElement : Nat → Except Exception (α × Nat)) : Nat → Nat → Except Exception (List α)
  | 0, _ => .ok []
  | count + 1, newIndex => do
    let (value, newIndex) ← decodeElement newIndex
    let values ← decodeElements decodeElement count newIndex
    pure (value :: values)

mutual

def decode : (ty : Ty) → Bytes → Nat → Except Exception (ty.Value × Nat)
  | .word word, bytes, index => decodeWord word bytes index
  | .bytes, bytes, index => decodeBytes "Data too short for bytes" "Data too short for bytes" "Data too short for bytes" bytes index
  | .string, bytes, index =>
    decodeBytes "Data too short for string 1" "Data too short for string 2" "Data too short for string 3" bytes index
  | .vector element, bytes, index => do
    enough bytes (index + 32) "Data too short for vector"
    let arrayStart ← word64 bytes index
    enough bytes (add64 arrayStart 32) "Data too short for vector"
    let arrayLength ← word64 bytes arrayStart
    let view ← subspan bytes (add64 arrayStart 32)
    let values ← decodeElements (decode element view) arrayLength 0
    pure (values, index + 32)
  | .tuple members, bytes, index =>
    if members.isTupleOfDynamicTypes then do
      enough bytes (index + 32) "Data too short for tuple of dynamic types"
      let offset ← word64 bytes index
      let view ← subspan bytes offset
      let (values, _) ← decodeTuple members view 0
      pure (values, index + 32)
    else do
      enough bytes (index + 32 * members.tupleSize) "Data too short for tuple"
      decodeTuple members bytes index

def decodeTuple : (tys : Tys) → Bytes → Nat → Except Exception (tys.Values × Nat)
  | .last ty, bytes, index => decode ty bytes index
  | .cons ty rest, bytes, index => do
    let (value, index) ← decode ty bytes index
    let (values, index) ← decodeTuple rest bytes index
    pure ((value, values), index)

end

/-- `decodeTupleHelper` goes through the types as `decodeTuple` does. -/
def decodeData (tys : Tys) (encodedData : Bytes) : Except Exception tys.Values := do
  let (values, _) ← decodeTuple tys encodedData 0
  pure values

end Decoder
end ABI
end OrbiterSDK

/-! The data of an event: what is not indexed, packed as the arguments of a function are. -/

namespace OrbiterSDK.ABI.EventEncoder

/-- The types of `std::tuple<EventParam<Args, Flags>...>`, and whether each is indexed. -/
inductive Params where
  | last (ty : Ty) (isIndexed : Bool)
  | cons (ty : Ty) (isIndexed : Bool) (rest : Params)

namespace Params

/-- `Args...`. -/
def types : Params → Tys
  | last ty _ => .last ty
  | cons ty _ rest => .cons ty rest.types

/-- The fold over the parameters. An indexed one is passed by. -/
def encodeItems : (params : Params) → params.types.Values → Encoder.Packing → Encoder.Packing
  | last ty isIndexed, value, packing =>
    if isIndexed then packing else packing.encodeItem ty.isDynamic (Encoder.encode ty value)
  | cons ty isIndexed rest, values, packing =>
    rest.encodeItems values.2 (if isIndexed then packing else packing.encodeItem ty.isDynamic (Encoder.encode ty values.1))

end Params

/-- The first offset is counted from all types, the indexed ones among them. -/
def encodeEventData (params : Params) (values : params.types.Values) : Bytes :=
  (params.encodeItems values ⟨[], calculateTotalOffset params.types, []⟩).all

end OrbiterSDK.ABI.EventEncoder
