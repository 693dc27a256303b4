import OrbiterSDK.HexString
import OrbiterSDK.Abi
import OrbiterSDK.Lib.Attempts

/-! The signatures of methods and events, and the descriptions of them that clients read. -/

namespace OrbiterSDK
open Lib

namespace ABI

/-- Types as signatures list them. Tuples may be empty here, and a list of the smallest integers is a byte string. -/
inductive ParamType where
  | word (word : Word)
  | bytes
  | string
  | vector (element : ParamType)
  | tuple (members : List ParamType)

namespace FunctorEncoder

/-- An enumeration is always named like the smallest integer. -/
def wordName : Word → List Char
  | .uint more => "uint".toList ++ Nat.toDigits 10 (8 * (more.val + 1))
  | .int more => "int".toList ++ Nat.toDigits 10 (8 * (more.val + 1))
  | .bool => "bool".toList
  | .address => "address".toList
  | .hash => "bytes32".toList
  | .enumeration _ => "uint8".toList

/-- The last comma is taken away. -/
def commaSeparated (names : List (List Char)) : List Char :=
  let result := (names.map fun name => name ++ [',']).flatten
  if result ≠ [] then result.dropLast else result

mutual

/-- `TypeName<T>::get()`. -/
def typeName : ParamType → List Char
  | .word word => wordName word
  | .bytes => "bytes".toList
  | .string => "string".toList
  | .vector (.word (.uint 0)) => "bytes".toList
  | .vector element => typeName element ++ "[]".toList
  | .tuple members => '(' :: commaSeparated (listArgumentTypesV members) ++ [')']

def listArgumentTypesV : List ParamType → List (List Char)
  | [] => []
  | ty :: rest => typeName ty :: listArgumentTypesV rest

end

def listArgumentTypes (types : List ParamType) : List Char := commaSeparated (listArgumentTypesV types)

def signature (funcSig : String) (types : List ParamType) : List Char := funcSig.toList ++ '(' :: listArgumentTypes types ++ [')']

def encode (sha3 : Bytes → Hash) (funcSig : String) (types : List ParamType) : Bytes :=
  (sha3 ((signature funcSig types).flatMap String.utf8EncodeChar)).get.take 4

end FunctorEncoder

inductive FunctionTypes where
  | view
  | nonPayable
  | payable

/-- Inputs are types with their names. -/
structure MethodDescription where
  name : String
  inputs : List (List Char × String)
  outputs : List (List Char)
  stateMutability : FunctionTypes
  type : String

structure EventDescription where
  name : String
  args : List (List Char × String × Bool)
  anonymous : Bool

end ABI

namespace ContractReflectionInterface
open ABI

/-- Names that are missing are empty. -/
def populateMethodTypesMap (name : String) (stateMutability : FunctionTypes) (args : List (List Char)) (argsNames : List String)
    (rets : List (List Char)) : MethodDescription where
  name
  inputs := args.mapIdx fun i arg => (arg, argsNames.getD i "")
  outputs := rets
  stateMutability
  type := "function"

def populateEventTypesMap (name : String) (anonymous : Bool) (args : List (List Char × Bool)) (argsNames : List String) :
    EventDescription where
  name
  args := args.mapIdx fun i arg => (arg.1, argsNames.getD i "", arg.2)
  anonymous

end ContractReflectionInterface

namespace JsonAbi
open Hex ABI

/-! Names of types. What is read before the beginning of a string is outside of it. -/

def isArray (type : List Char) : Except Exception Bool :=
  if type.length < 2 then .error Tx.pastEnd
  else .ok (charAt type (type.length - 2) = '[' && charAt type (type.length - 1) = ']')

/-- The loop, from an index on that is given with one added to it. -/
def countFrom (type : List Char) : Nat → Nat → Except Exception Nat
  | 0, count => .ok count
  | 1, count => if charAt type 0 = ']' then .error Tx.pastEnd else .ok count
  | i + 2, count => if charAt type (i + 1) = ']' ∧ charAt type i = '[' then countFrom type i (count + 1) else .ok count

/-- The index where the loop begins, as the 32 bits of an `int`, with one added to it. -/
def countStart (size : Nat) : Nat := (((size : Int) - 1).bmod (2 ^ 32) + 1).toNat

def countTupleArrays (type : List Char) : Except Exception Nat := countFrom type (countStart type.length) 0

def isTuple (type : List Char) : Except Exception Bool := do
  let array ← isArray type
  if array then
    if charAt type 0 = '(' then do
      let count ← countTupleArrays type
      pure (charAt type (type.length - 2 * count - 1) = ')')
    else pure false
  else pure (charAt type 0 = '(' && charAt type (type.length - 1) = ')')

/-- The depth of parentheses has 16 bits. -/
def counted (c : Char) (tupleCounter : UInt16) : UInt16 :=
  if c = '(' then tupleCounter + 1 else if c = ')' then tupleCounter - 1 else tupleCounter

/-- The loop over the characters inside. -/
def splitTypes : List Char → UInt16 → List Char → List (List Char)
  | [], _, tmp => [tmp]
  | c :: rest, tupleCounter, tmp =>
    let tupleCounter := counted c tupleCounter
    if c = ',' ∧ tupleCounter = 0 then tmp :: splitTypes rest tupleCounter [] else splitTypes rest tupleCounter (tmp ++ [c])

/-- The number of brackets that are taken from the end. -/
def arrays (type : List Char) : Except Exception Nat := do
  let array ← isArray type
  if array then countTupleArrays type else pure 0

def getTupleTypes (type : List Char) : Except Exception (List (List Char)) := do
  let count ← arrays type
  let tupleString := type.drop 1
  let tupleString := tupleString.take (tupleString.length - 2 * count)
  pure (splitTypes (tupleString.take (tupleString.length - 1)) 0 [])

theorem splitTypes_size (text : List Char) : ∀ counter tmp,
    ((splitTypes text counter tmp).map fun type => type.length + 1).sum = tmp.length + text.length + 1 := by
  induction text with
  | nil => exact fun _ _ => rfl
  | cons c rest ih =>
    intro counter tmp
    unfold splitTypes
    dsimp only
    split
    · rw [List.map_cons, List.sum_cons, ih, List.length_cons, List.length_nil]
      omega
    · rw [ih, List.length_append, List.length_cons, List.length_cons, List.length_nil]
      omega

/-- The components are shorter than the tuple. -/
theorem getTupleTypes_size {type : List Char} {types : List (List Char)} (done : getTupleTypes type = .ok types) :
    (types.map fun type => type.length + 1).sum < type.length + 1 := by
  obtain ⟨count, found, done⟩ := bind_eq_ok.mp done
  obtain ⟨array, read, _⟩ := bind_eq_ok.mp found
  have long : ¬ type.length < 2 := by
    intro short
    unfold isArray at read
    rw [if_pos short] at read
    cases read
  cases done
  rw [splitTypes_size, List.length_take, List.length_take, List.length_drop, List.length_nil]
  omega

/-- The type of a tuple, with brackets for the lists around it. -/
def tupleType (count : Nat) : List Char := "tuple".toList ++ (List.replicate count "[]".toList).flatten

def tupleMembers (type : List Char) (components : List Json) : Except Exception (List (String × Json)) := do
  let count ← arrays type
  pure [("components", .array components), ("type", .string (String.ofList (tupleType count)))]

def plainMembers (type : List Char) : List (String × Json) :=
  [("internalType", .string (String.ofList type)), ("type", .string (String.ofList type))]

def handleTupleComponents : List (List Char) → Except Exception (List Json)
  | [] => .ok []
  | type :: rest => do
    let compObj ←
      (match isTuple type with
      | .error what => .error what
      | .ok false => .ok (plainMembers type)
      | .ok true =>
        match _ : getTupleTypes type with
        | .error what => .error what
        | .ok types => handleTupleComponents types >>= tupleMembers type : Except Exception (List (String × Json)))
    let obj ← handleTupleComponents rest
    pure (.object compObj :: obj)
termination_by types => (types.map fun type => type.length + 1).sum
decreasing_by
  · have smaller := getTupleTypes_size (by assumption)
    rw [List.map_cons, List.sum_cons]
    omega
  · rw [List.map_cons, List.sum_cons]
    omega

/-- What inputs, outputs and arguments have in common with components. -/
def typeMembers (type : List Char) : Except Exception (List (String × Json)) := do
  let tuple ← isTuple type
  if tuple then do
    let types ← getTupleTypes type
    let components ← handleTupleComponents types
    tupleMembers type components
  else pure (plainMembers type)

/-! Descriptions. The members of an object have no order. -/

def parseMethodInput (inputDesc : List (List Char × String)) : Except Exception (List Json) :=
  inputDesc.mapM fun input => do
    let inObj ← typeMembers input.1
    pure (.object (("name", .string input.2) :: inObj))

/-- Only outputs that are no tuples get a name. -/
def outputMembers (output : List Char) : Except Exception (List (String × Json)) := do
  let tuple ← isTuple output
  let outObj ← typeMembers output
  pure (if tuple then outObj else ("name", .string "") :: outObj)

def parseMethodOutput (outputDesc : List (List Char)) : Except Exception (List Json) :=
  if outputDesc = [[]] then .ok []
  else outputDesc.mapM fun output => do
    let outObj ← outputMembers output
    pure (.object outObj)

def parseEventArgs (args : List (List Char × String × Bool)) : Except Exception (List Json) :=
  args.mapM fun arg => do
    let inObj ← typeMembers arg.1
    pure (.object (("indexed", .boolean arg.2.2) :: ("name", .string arg.2.1) :: inObj))

def mutability : FunctionTypes → String
  | .view => "view"
  | .nonPayable => "nonpayable"
  | .payable => "payable"

def methodToJSON (desc : MethodDescription) : Except Exception Json := do
  let inputs ← parseMethodInput desc.inputs
  let outputs ← parseMethodOutput desc.outputs
  pure (.object [
    ("inputs", .array inputs),
    ("name", .string desc.name),
    ("outputs", .array outputs),
    ("stateMutability", .string (mutability desc.stateMutability)),
    ("type", .string desc.type)])

def eventToJSON (desc : EventDescription) : Except Exception Json := do
  let inputs ← parseEventArgs desc.args
  pure (.object [
    ("anonymous", .boolean desc.anonymous),
    ("inputs", .array inputs),
    ("name", .string desc.name),
    ("type", .string "event")])

end JsonAbi
end OrbiterSDK
