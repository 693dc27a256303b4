import OrbiterSDK.Abi
import OrbiterSDK.EVMHost

/-! The precompiles with every read of their input. What they throw they catch, but there is
no exception for what is read behind the end. -/

namespace OrbiterSDK

namespace Precompile
open ABI ABI.Decoder
open Tx (pastEnd)

def caught (code : Except Exception EvmcResult) : Except Exception EvmcResult :=
  match code with
  | .ok result => .ok result
  | .error what => if what = pastEnd then .error pastEnd else .ok revert

variable (sha3 : Bytes → Hash) (lib : Secp256k1) (msg : EvmcMessage)

/-- What the recovery of a key that is not there gives is not asked for. -/
def recoverAddress (r s : Uint256) (parity : Bool) (msgHash : Hash) : Address :=
  Secp256k1.toAddress sha3 (lib.recover (Secp256k1.makeSig r s parity.toUInt8) msgHash)

def readEcrecover : Except Exception EvmcResult := caught do
  if msg.inputData.length ≠ 132 then pure revert
  else
    let ecrecoverBytes ← range msg.inputData 4 msg.inputData.length
    let msgHash ← range ecrecoverBytes 0 32
    let word ← range ecrecoverBytes 32 64
    let v ← narrow 1 (Utils.bytesToUint word)
    let r ← range ecrecoverBytes 64 96
    let s ← range ecrecoverBytes 96 128
    if v ≠ 27 ∧ v ≠ 28 then pure revert
    else
      let parity : Bool := v = 28
      if !Secp256k1.verifySig (Hash.ofBytes r) (Hash.ofBytes s) parity.toUInt8 then pure revert
      else
        let addr := recoverAddress sha3 lib (Hash.ofBytes r) (Hash.ofBytes s) parity (Hash.ofBytes msgHash)
        pure (Precompile.word msg (addr.setWidth 256))

/-- `uint256_t, Address, uint256_t`. -/
def packed : Tys := .cons (.word (.uint (Fin.last 31))) (.cons (.word .address) (.last (.word (.uint (Fin.last 31)))))

def readPackAndHash : Except Exception EvmcResult := caught do
  if msg.inputData.length ≠ 100 then pure revert
  else
    let packBytes ← subspan msg.inputData 4
    let (tokenId, user, rarity) ← decodeData packed packBytes
    pure (word msg (sha3 (Utils.uintToBytes 32 tokenId.toNat ++ Address.get user ++ Utils.uintToBytes 32 rarity.toNat)))

def readKeccakSolSign : Except Exception EvmcResult := caught do
  if msg.inputData.length ≠ 36 then pure revert
  else
    let packBytes ← subspan msg.inputData 4
    let hash ← decodeData (.last (.word .hash)) packBytes
    let ethereumSignedMessage := "Ethereum Signed Message:"
    pure (word msg (sha3 ([0x19] ++ ethereumSignedMessage.toUTF8.toList ++ [0x0a] ++ (toString 32).toUTF8.toList ++ Hash.get hash)))

/-- The size is compared the other way round. -/
def readKeccak : Except Exception EvmcResult := caught do
  if 4 < msg.inputData.length then pure revert
  else
    let packBytes ← subspan msg.inputData 4
    let data ← decodeData (.last .bytes) packBytes
    pure (word msg (sha3 data))

def readGetRandom (random : Hash) : Except Exception (EvmcResult × Hash) :=
  if msg.inputData.length ≠ 4 then .ok (revert, random)
  else
    let seed := sha3 random.get
    .ok (word msg seed, seed)

/-- The selectors that the host knows. -/
def RANDOMNESS : Functor := 0xaacc5a17
def packSelector : Functor := 0xaa6351cc
def solSignSelector : Functor := 0x518af8db
def keccakSelector : Functor := 0x23fc7ef3

/-- The part of `EVMHost::call` before the virtual machine, for a message to one of the three addresses. -/
def readCall (random : Hash) : Except Exception (EvmcResult × Hash) :=
  let unmoved (result : EvmcResult) := (result, random)
  if msg.recipient = ECRECOVER_ADDRESS then (readEcrecover sha3 lib msg).map unmoved
  else if msg.recipient = RANDOM then
    if msg.inputData.length < 4 then .ok (unmoved revert)
    else do
      let functor ← range msg.inputData 0 4
      if Functor.ofBytes functor = RANDOMNESS then readGetRandom sha3 msg random else pure (unmoved revert)
  else do
    -- A short input builds a result here, but does not return it.
    let functor ← range msg.inputData 0 4
    if Functor.ofBytes functor = packSelector then (readPackAndHash sha3 msg).map unmoved
    else if Functor.ofBytes functor = solSignSelector then (readKeccakSolSign sha3 msg).map unmoved
    else if Functor.ofBytes functor = keccakSelector then (readKeccak sha3 msg).map unmoved
    else pure (unmoved revert)

/-- One of the addresses of precompiles. -/
def Known : Prop := msg.recipient = ECRECOVER_ADDRESS ∨ msg.recipient = RANDOM ∨ msg.recipient = ABI_PACK

/-- The host linked against the curve. -/
def linked (vm : Vm) : Vm :=
  { vm with
    verifySig := fun r s parity => Secp256k1.verifySig r s parity.toUInt8
    recover := fun r s parity msgHash => .ok (recoverAddress vm.sha3 lib r s parity msgHash) }

end Precompile
end OrbiterSDK
