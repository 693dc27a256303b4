import OrbiterSDK.Events

/-! The class of hexadecimal strings, with its constructors and what it gives back. -/

namespace OrbiterSDK

namespace Hex

def filter : List Char := "0123456789abcdefABCDEF".toList

/-- `operator[]`, with the terminator behind the end. -/
def charAt (text : List Char) (i : Nat) : Char := text.getD i (Char.ofNat 0)

/-- `find_first_not_of(filter, off)`. -/
def findFirstNotOf (text : List Char) (off : Nat) : Option Nat :=
  ((text.drop off).findIdx? fun c => !filter.contains c).map fun position => position + off

def isValid (hex : List Char) (strict : Bool) : Bool :=
  if strict && !"0x".toList.isPrefixOf hex && !"0X".toList.isPrefixOf hex then false
  else (findFirstNotOf hex (if strict then 2 else 0)).isNone

end Hex
open Hex

/-- A string that has been found valid. -/
structure HexString where
  hex : List Char
  strict : Bool
  valid : isValid hex strict = true

namespace HexString

/-- The prefix is put in front or taken away. The second comparisons of the strict mode cannot both fail, so it does not matter
that they are made behind the terminator of an empty string. -/
def adjusted (value : List Char) (strict : Bool) : List Char :=
  if strict then
    if charAt value 0 ≠ '0' ∧ (charAt value 1 ≠ 'x' ∨ charAt value 1 ≠ 'X') then '0' :: 'x' :: value else value
  else
    if charAt value 0 = '0' ∧ (charAt value 1 = 'x' ∨ charAt value 1 = 'X') then value.drop 2 else value

def checked (ret : List Char) (strict : Bool) : Except Exception HexString :=
  if valid : isValid ret strict = true then .ok ⟨ret, strict, valid⟩ else .error "Invalid Hex string at constructor"

/-- Both constructors from a string. -/
def create (value : List Char) (strict : Bool) : Except Exception HexString := checked (adjusted value strict) strict

/-- The loop over the bytes. -/
def fill (hex : List Char) (off : Nat) : Bytes → List Char
  | [] => hex
  | byte :: rest => fill ((hex.set off (byte.toNat / 16).digitChar).set (off + 1) (byte.toNat % 16).digitChar) (off + 2) rest

/-- The two characters in front are replaced before the digits are written, in both modes. -/
def fromBytes (bytes : Bytes) (strict : Bool) : Except Exception HexString :=
  let off := if strict then 2 else 0
  let hex := List.replicate (bytes.length * 2 + off) '0'
  let hex := '0' :: 'x' :: hex.drop 2
  create (fill hex off bytes) strict

/-- The number of a character, each of which is a digit. -/
def digit (c : Char) : Nat := (toInt c).getD 0

/-- The loop over the pairs, which counts in 32 bits. -/
def readPairs (hex : List Char) : Nat → UInt32 → Bytes → Option Bytes
  | 0, _, _ => none
  | fuel + 1, i, ret =>
    if i.toNat < hex.length then
      let h := digit (charAt hex i.toNat)
      let l := digit (charAt hex (i + 1).toNat)
      readPairs hex fuel (i + 2) (ret ++ [UInt8.ofNat (h * 16 + l)])
    else some ret

/-- The bytes, if so many turns are enough. -/
def bytes (fuel : Nat) (value : HexString) : Option Bytes :=
  let i : UInt32 := if value.strict then 2 else 0
  if value.hex.length % 2 ≠ 0 then readPairs value.hex fuel (i + 1) [UInt8.ofNat (digit (charAt value.hex i.toNat))]
  else readPairs value.hex fuel i []

def get (value : HexString) : String := String.ofList value.hex

/-- Leading zeros are erased one by one. -/
def forRPC (value : HexString) : String :=
  let retHex := if charAt value.hex 0 ≠ '0' ∧ charAt value.hex 1 ≠ 'x' then '0' :: 'x' :: value.hex else value.hex
  if retHex = ['0', 'x'] then "0x0" else String.ofList (retHex.take 2 ++ (retHex.drop 2).dropWhile fun c => c == '0')

end HexString
end OrbiterSDK
