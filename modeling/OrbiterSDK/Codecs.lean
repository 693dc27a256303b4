import OrbiterSDK.Abi

/-! The integer codecs as they are written, on arrays that are not initialised: what the
array held before is an argument, and shows wherever nothing is written over it. -/

namespace OrbiterSDK.Codecs

/-- `export_bits`: no leading zeros, and one byte for zero. -/
def exportBits (value : Nat) : Bytes := Utils.uintToBytes (max 1 (Utils.bytesRequired value)) value

/-- `for (ii) ret[last - ii] = tmp[tmp.size() - ii - 1]`. The bytes are given from the last one on. -/
def copyBack (last : Nat) : Bytes → Bytes → Bytes
  | [], ret => ret
  | byte :: rest, ret => copyBack (last - 1) rest (ret.set last byte)

/-- The bytes of an integer in memory, the least significant one first. -/
def memory : Nat → Nat → Bytes
  | 0, _ => []
  | width + 1, value => UInt8.ofNat value :: memory width (value / 256)

/-- `bytesToUintN`, by the size, the name and the size that the text gives. -/
def bytesToUintN (size : Nat) (func expected : String) (N : Nat) (b : Bytes) : Except Exception (BitVec N) :=
  if b.length ≠ size then
    .error (func ++ ": Invalid bytes size - expected " ++ expected ++ ", got " ++ toString b.length)
  else .ok (BitVec.ofNat N (Utils.bytesToUint b))

/-! ## Unsigned integers -/

def uint24ToBytes (ret : Bytes) (i : BitVec 24) : Bytes := copyBack 2 (exportBits i.toNat).reverse ret

def uint40ToBytes (ret : Bytes) (i : BitVec 40) : Bytes := copyBack 4 (exportBits i.toNat).reverse ret

def uint48ToBytes (ret : Bytes) (i : BitVec 48) : Bytes := copyBack 5 (exportBits i.toNat).reverse ret

def uint56ToBytes (ret : Bytes) (i : BitVec 56) : Bytes := copyBack 6 (exportBits i.toNat).reverse ret

def uint72ToBytes (ret : Bytes) (i : BitVec 72) : Bytes := copyBack 8 (exportBits i.toNat).reverse ret

def uint80ToBytes (ret : Bytes) (i : BitVec 80) : Bytes := copyBack 9 (exportBits i.toNat).reverse ret

def uint88ToBytes (ret : Bytes) (i : BitVec 88) : Bytes := copyBack 10 (exportBits i.toNat).reverse ret

def uint96ToBytes (ret : Bytes) (i : BitVec 96) : Bytes := copyBack 11 (exportBits i.toNat).reverse ret

def uint104ToBytes (ret : Bytes) (i : BitVec 104) : Bytes := copyBack 12 (exportBits i.toNat).reverse ret

def uint112ToBytes (ret : Bytes) (i : BitVec 112) : Bytes := copyBack 13 (exportBits i.toNat).reverse ret

def uint120ToBytes (ret : Bytes) (i : BitVec 120) : Bytes := copyBack 14 (exportBits i.toNat).reverse ret

def uint128ToBytes (ret : Bytes) (i : BitVec 128) : Bytes := copyBack 15 (exportBits i.toNat).reverse ret

def uint136ToBytes (ret : Bytes) (i : BitVec 136) : Bytes := copyBack 16 (exportBits i.toNat).reverse ret

def uint144ToBytes (ret : Bytes) (i : BitVec 144) : Bytes := copyBack 17 (exportBits i.toNat).reverse ret

def uint152ToBytes (ret : Bytes) (i : BitVec 152) : Bytes := copyBack 18 (exportBits i.toNat).reverse ret

def uint160ToBytes (ret : Bytes) (i : BitVec 160) : Bytes := copyBack 19 (exportBits i.toNat).reverse ret

def uint168ToBytes (ret : Bytes) (i : BitVec 168) : Bytes := copyBack 20 (exportBits i.toNat).reverse ret

def uint176ToBytes (ret : Bytes) (i : BitVec 176) : Bytes := copyBack 21 (exportBits i.toNat).reverse ret

def uint184ToBytes (ret : Bytes) (i : BitVec 184) : Bytes := copyBack 22 (exportBits i.toNat).reverse ret

def uint192ToBytes (ret : Bytes) (i : BitVec 192) : Bytes := copyBack 23 (exportBits i.toNat).reverse ret

def uint200ToBytes (ret : Bytes) (i : BitVec 200) : Bytes := copyBack 24 (exportBits i.toNat).reverse ret

def uint208ToBytes (ret : Bytes) (i : BitVec 208) : Bytes := copyBack 25 (exportBits i.toNat).reverse ret

def uint216ToBytes (ret : Bytes) (i : BitVec 216) : Bytes := copyBack 26 (exportBits i.toNat).reverse ret

def uint224ToBytes (ret : Bytes) (i : BitVec 224) : Bytes := copyBack 27 (exportBits i.toNat).reverse ret

def uint232ToBytes (ret : Bytes) (i : BitVec 232) : Bytes := copyBack 28 (exportBits i.toNat).reverse ret

def uint240ToBytes (ret : Bytes) (i : BitVec 240) : Bytes := copyBack 29 (exportBits i.toNat).reverse ret

def uint248ToBytes (ret : Bytes) (i : BitVec 248) : Bytes := copyBack 30 (exportBits i.toNat).reverse ret

/-- The only one that fills the array first. -/
def uint256ToBytes (_ret : Bytes) (i : BitVec 256) : Bytes :=
  copyBack 31 (exportBits i.toNat).reverse (List.replicate 32 0)

/-- The types of the language are copied from memory as a whole and reversed. -/
def uint64ToBytes (_ret : Bytes) (i : BitVec 64) : Bytes := (memory 8 i.toNat).reverse

def uint32ToBytes (_ret : Bytes) (i : BitVec 32) : Bytes := (memory 4 i.toNat).reverse

def bytesToUint256 : Bytes → Except Exception (BitVec 256) := bytesToUintN 32 "bytesToUint256" "32" 256

def bytesToUint248 : Bytes → Except Exception (BitVec 248) := bytesToUintN 31 "bytesToUint248" "31" 248

def bytesToUint240 : Bytes → Except Exception (BitVec 240) := bytesToUintN 30 "bytesToUint240" "30" 240

def bytesToUint232 : Bytes → Except Exception (BitVec 232) := bytesToUintN 29 "bytesToUint232" "29" 232

def bytesToUint224 : Bytes → Except Exception (BitVec 224) := bytesToUintN 28 "bytesToUint224" "28" 224

def bytesToUint216 : Bytes → Except Exception (BitVec 216) := bytesToUintN 27 "bytesToUint216" "27" 216

def bytesToUint208 : Bytes → Except Exception (BitVec 208) := bytesToUintN 26 "bytesToUint208" "26" 208

def bytesToUint200 : Bytes → Except Exception (BitVec 200) := bytesToUintN 25 "bytesToUint200" "25" 200

def bytesToUint192 : Bytes → Except Exception (BitVec 192) := bytesToUintN 24 "bytesToUint192" "24" 192

def bytesToUint184 : Bytes → Except Exception (BitVec 184) := bytesToUintN 23 "bytesToUint184" "23" 184

def bytesToUint176 : Bytes → Except Exception (BitVec 176) := bytesToUintN 22 "bytesToUint176" "22" 176

def bytesToUint168 : Bytes → Except Exception (BitVec 168) := bytesToUintN 21 "bytesToUint168" "21" 168

def bytesToUint160 : Bytes → Except Exception (BitVec 160) := bytesToUintN 20 "bytesToUint160" "20" 160

def bytesToUint152 : Bytes → Except Exception (BitVec 152) := bytesToUintN 19 "bytesToUint152" "19" 152

def bytesToUint144 : Bytes → Except Exception (BitVec 144) := bytesToUintN 18 "bytesToUint144" "18" 144

def bytesToUint136 : Bytes → Except Exception (BitVec 136) := bytesToUintN 17 "bytesToUint136" "17" 136

def bytesToUint128 : Bytes → Except Exception (BitVec 128) := bytesToUintN 16 "bytesToUint128" "16" 128

def bytesToUint120 : Bytes → Except Exception (BitVec 120) := bytesToUintN 15 "bytesToUint120" "15" 120

/-- The text gives the size of another type. -/
def bytesToUint112 : Bytes → Except Exception (BitVec 112) := bytesToUintN 14 "bytesToUint112" "16" 112

def bytesToUint104 : Bytes → Except Exception (BitVec 104) := bytesToUintN 13 "bytesToUint104" "13" 104

def bytesToUint96 : Bytes → Except Exception (BitVec 96) := bytesToUintN 12 "bytesToUint96" "12" 96

def bytesToUint88 : Bytes → Except Exception (BitVec 88) := bytesToUintN 11 "bytesToUint88" "11" 88

def bytesToUint80 : Bytes → Except Exception (BitVec 80) := bytesToUintN 10 "bytesToUint80" "10" 80

def bytesToUint72 : Bytes → Except Exception (BitVec 72) := bytesToUintN 9 "bytesToUint72" "9" 72

def bytesToUint56 : Bytes → Except Exception (BitVec 56) := bytesToUintN 7 "bytesToUint56" "7" 56

def bytesToUint48 : Bytes → Except Exception (BitVec 48) := bytesToUintN 6 "bytesToUint48" "6" 48

def bytesToUint40 : Bytes → Except Exception (BitVec 40) := bytesToUintN 5 "bytesToUint40" "5" 40

def bytesToUint24 : Bytes → Except Exception (BitVec 24) := bytesToUintN 3 "bytesToUint24" "3" 24

def bytesToUint64 : Bytes → Except Exception (BitVec 64) := bytesToUintN 8 "bytesToUint64" "8" 64

def bytesToUint32 : Bytes → Except Exception (BitVec 32) := bytesToUintN 4 "bytesToUint32" "4" 32

/-- A width with its two functions. -/
structure Codec where
  N : Nat
  toBytes : Bytes → BitVec N → Bytes
  ofBytes : Bytes → Except Exception (BitVec N)

def codecs : List Codec :=
  [⟨24, uint24ToBytes, bytesToUint24⟩, ⟨32, uint32ToBytes, bytesToUint32⟩,
    ⟨40, uint40ToBytes, bytesToUint40⟩, ⟨48, uint48ToBytes, bytesToUint48⟩,
    ⟨56, uint56ToBytes, bytesToUint56⟩, ⟨64, uint64ToBytes, bytesToUint64⟩,
    ⟨72, uint72ToBytes, bytesToUint72⟩, ⟨80, uint80ToBytes, bytesToUint80⟩,
    ⟨88, uint88ToBytes, bytesToUint88⟩, ⟨96, uint96ToBytes, bytesToUint96⟩,
    ⟨104, uint104ToBytes, bytesToUint104⟩, ⟨112, uint112ToBytes, bytesToUint112⟩,
    ⟨120, uint120ToBytes, bytesToUint120⟩, ⟨128, uint128ToBytes, bytesToUint128⟩,
    ⟨136, uint136ToBytes, bytesToUint136⟩, ⟨144, uint144ToBytes, bytesToUint144⟩,
    ⟨152, uint152ToBytes, bytesToUint152⟩, ⟨160, uint160ToBytes, bytesToUint160⟩,
    ⟨168, uint168ToBytes, bytesToUint168⟩, ⟨176, uint176ToBytes, bytesToUint176⟩,
    ⟨184, uint184ToBytes, bytesToUint184⟩, ⟨192, uint192ToBytes, bytesToUint192⟩,
    ⟨200, uint200ToBytes, bytesToUint200⟩, ⟨208, uint208ToBytes, bytesToUint208⟩,
    ⟨216, uint216ToBytes, bytesToUint216⟩, ⟨224, uint224ToBytes, bytesToUint224⟩,
    ⟨232, uint232ToBytes, bytesToUint232⟩, ⟨240, uint240ToBytes, bytesToUint240⟩,
    ⟨248, uint248ToBytes, bytesToUint248⟩, ⟨256, uint256ToBytes, bytesToUint256⟩]

/-! ## Signed integers -/

/-- `ret[i]++` with its carry, from the last byte on. -/
def increment : Bytes → Bytes
  | [] => []
  | byte :: rest => if byte ≠ 0xff then (byte + 1) :: rest else 0x00 :: increment rest

def int256ToBytes (ret : Bytes) (i : Int) : Bytes :=
  if i < 0 then
    let tempBytes := (exportBits i.natAbs).reverse
    (increment (tempBytes.map (~~~ ·) ++ List.replicate (32 - tempBytes.length) 0xff)).reverse
  else copyBack 31 (exportBits i.natAbs).reverse ret

/-- The words of 64 bits that a big integer needs. The others of its four keep what they held. -/
def limbs (value : Nat) : Nat := max 1 ((Utils.bytesRequired value + 7) / 8)

/-- The 32 bytes of a big integer in memory, by the bytes that were there before. -/
def representation (before : Bytes) (value : Nat) : Bytes :=
  memory (8 * limbs value) value ++ before.drop (8 * limbs value)

/-- `Encoder::encodeInt`, which reads a negative number's magnitude from memory. -/
def encodeInt (before : Bytes) (num : Int) : Bytes :=
  if num < 0 then (increment ((representation before num.natAbs).map (~~~ ·))).reverse
  else copyBack 31 (exportBits num.natAbs).reverse (List.replicate 32 0)

/-- `TypeDecoder<intN>` on one word. -/
def decodeInt (more : Fin 32) (bytes : Bytes) : Except Exception Int :=
  (ABI.Decoder.decodeWord (.int more) bytes 0).map Prod.fst

end OrbiterSDK.Codecs
