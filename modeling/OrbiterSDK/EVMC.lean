import OrbiterSDK.Utils

/-! The interface between the host and the virtual machine. A run of the machine
is a finite tree: it either ends, or asks the host something and goes on with the
answer. Which tree a message and a code produce belongs to the machine. -/

namespace OrbiterSDK

inductive CallKind where
  | call | delegateCall | callCode | create | create2
  deriving DecidableEq

inductive StatusCode where
  | success | failure | revert | outOfGas | invalidInstruction | undefinedInstruction | stackOverflow | stackUnderflow
  | badJumpDestination | invalidMemoryAccess | callDepthExceeded | staticModeViolation | precompileFailure
  | contractValidationFailure | argumentOutOfRange | insufficientBalance | internalError | rejected | outOfMemory
  deriving DecidableEq

inductive StorageStatus where
  | assigned | added | deleted | modified
  deriving DecidableEq

inductive AccessStatus where
  | cold | warm
  deriving DecidableEq

structure EvmcMessage where
  kind : CallKind
  flags : UInt32
  depth : Nat
  gas : Int
  recipient : Address
  sender : Address
  inputData : Bytes
  value : Uint256
  create2Salt : Hash
  codeAddress : Address
  deriving DecidableEq

structure EvmcResult where
  statusCode : StatusCode
  gasLeft : Int
  outputData : Bytes
  deriving DecidableEq

structure EvmcTxContext where
  txGasPrice : Uint256
  txOrigin : Address
  blockCoinbase : Address
  blockNumber : UInt64
  blockTimestamp : UInt64
  blockGasLimit : UInt64
  blockPrevRandao : Uint256
  chainId : Uint256
  blockBaseFee : Uint256
  blobBaseFee : Uint256
  deriving DecidableEq, Inhabited

/-- Every callback except the inner call. -/
inductive HostRequest where
  | accountExists (addr : Address)
  | getStorage (addr : Address) (key : Hash)
  | setStorage (addr : Address) (key value : Hash)
  | getBalance (addr : Address)
  | getCodeSize (addr : Address)
  | getCodeHash (addr : Address)
  | copyCode (addr : Address) (codeOffset bufferSize : Nat)
  | selfdestruct (addr beneficiary : Address)
  | getTxContext
  | getBlockHash (number : Int)
  | emitLog (addr : Address) (data : Bytes) (topics : List Hash)
  | accessAccount (addr : Address)
  | accessStorage (addr : Address) (key : Hash)
  | getTransientStorage (addr : Address) (key : Hash)
  | setTransientStorage (addr : Address) (key value : Hash)

def HostRequest.Reply : HostRequest → Type
  | accountExists _ => Bool
  | getStorage _ _ => Hash
  | setStorage _ _ _ => StorageStatus
  | getBalance _ => Uint256
  | getCodeSize _ => Nat
  | getCodeHash _ => Hash
  | copyCode _ _ _ => Bytes
  | selfdestruct _ _ => Bool
  | getTxContext => EvmcTxContext
  | getBlockHash _ => Hash
  | emitLog _ _ _ => Unit
  | accessAccount _ => AccessStatus
  | accessStorage _ _ => AccessStatus
  | getTransientStorage _ _ => Hash
  | setTransientStorage _ _ _ => Unit

/-- A run of the machine. It ends with the gas it consumed, so the gas left is
between nothing and the gas given. For an inner call the tree also holds what the
machine does when the host has it execute the message on some code. -/
inductive Program where
  | done (statusCode : StatusCode) (consumed : Nat) (outputData : Bytes)
  | callback (request : HostRequest) (next : request.Reply → Program)
  | call (msg : EvmcMessage) (execute : Bytes → Program) (next : EvmcResult → Program)

/-- The libraries the host links against: Keccak-256, the virtual machine, the
signature curve, and the bytes behind a message input that is read past its end. -/
structure Vm where
  sha3 : Bytes → Hash
  evmcExecute : EvmcMessage → Bytes → Program
  verifySig : Uint256 → Uint256 → Bool → Bool
  recover : Uint256 → Uint256 → Bool → Hash → Except Exception Address
  pastInput : EvmcMessage → Bytes
  statusCodeToString : StatusCode → String

end OrbiterSDK
