import OrbiterSDK.Ecdsa
import OrbiterSDK.SafeUint
import OrbiterSDK.Templates.ERC721

/-! A token contract with a counter for new tokens. Tokens are burned in two steps, the
second of which needs a signature. -/

namespace OrbiterSDK
open Lib

structure BurnedToken where
  exists_ : Bool := false
  user : Address := 0
  v : UInt8 := 0
  r : Hash := 0
  s : Hash := 0
  rarity : Uint256 := 0
  deriving DecidableEq

instance : Inhabited BurnedToken := ⟨{}⟩

structure ERC721Mint extends ERC721 where
  tokenBaseURI : String
  tokenIdCounter : Uint256 := 0
  totalSupply : Uint256 := 0
  maxSupply : Uint256
  signer : Address
  preBurnedTokens : Table Uint256 BurnedToken := default
  burnedTokens : Table Uint256 BurnedToken := default
  tokenIdRarity : Table Uint256 Uint256 := default
  tokenURI : Table Uint256 String := default
  ownedTokens : Table Address (Table Uint256 Uint256) := default
  ownedTokensIndex : Table Address (Table Uint256 Uint256) := default
  preburnedTokensByOwner : Table Address (List Uint256) := default

namespace ERC721Mint

/-- What the contract takes from its surroundings: who created it, the hash and the curve. -/
structure Surroundings where
  contractCreator : Address
  sha3 : Bytes → Hash
  secp : Secp256k1

def create (name symbol : String) (maxSupply : Uint256) (signer : Address) (tokenBaseURI : String) : ERC721Mint :=
  { name, symbol, maxSupply, signer, tokenBaseURI }

/-- The lookups of the getters, with their entry for what is missing. -/
def getPreBurned (token : ERC721Mint) (tokenId : Uint256) : BurnedToken := (token.preBurnedTokens.find tokenId).getD {}

def getBurned (token : ERC721Mint) (tokenId : Uint256) : BurnedToken := (token.burnedTokens.find tokenId).getD {}

def getPreburnedTokensByOwner (token : ERC721Mint) (user : Address) : List Uint256 :=
  (token.preburnedTokensByOwner.find user).getD []

/-- The keys of the user's inner map. They come in the order of a hash table, each once. -/
def getAllTokensOwnedByUser (token : ERC721Mint) (user : Address) : Finset Uint256 :=
  match token.ownedTokens.find user with
  | none => ∅
  | some userTokens => userTokens.keys

def getTokenRarity (tokenRarity : Uint256) : Except Exception String :=
  if tokenRarity = 0 then .ok "bronze"
  else if tokenRarity = 1 then .ok "silver"
  else if tokenRarity = 2 then .ok "gold"
  else .error "ERC72Mint::getTokenRarity: invalid token rarity"

def rarityOf (random : Uint256) : Uint256 :=
  let randomNum := random % 10000
  if randomNum % 100 = 0 then 1 else if randomNum % 1000 = 0 then 2 else 0

def message (token : ERC721Mint) (tokenId : Uint256) (user : Address) : Except Exception Bytes :=
  match token.tokenIdRarity.find tokenId with
  | none => .error "ERC72Mint::message: invalid token rarity"
  | some rarity => .ok (Utils.uintToBytes 32 tokenId.toNat ++ user.get ++ Utils.uintToBytes 32 rarity.toNat)

def toTyped32ByteDataHash (sha3 : Bytes → Hash) (messageHash : Hash) : Hash :=
  sha3 (0x19 :: "Ethereum Signed Message:\n32".toUTF8.toList ++ messageHash.get)

def setBaseURI (around : Surroundings) (token : ERC721Mint) (caller : Address) (baseURI : String) : Except Exception ERC721Mint :=
  if caller ≠ around.contractCreator then .error "ERC721Mint: caller is not the contract creator"
  else .ok { token with tokenBaseURI := baseURI }

/-- `random` is what the generator of the block gives. -/
def mint (token : ERC721Mint) («to» : Address) (random : Uint256) : Except Exception ERC721Mint :=
  if token.maxSupply ≤ token.tokenIdCounter then .error "MyTokenMintable: max supply reached"
  else do
    let tokenCount ← token.balanceOf «to»
    let tokenId := token.tokenIdCounter
    let base ← token.toERC721.mint_ «to» tokenId
    let rarity := rarityOf random
    let uri ← getTokenRarity rarity
    let tokenIdCounter ← SafeUint.addAssign token.tokenIdCounter 1
    let totalSupply ← SafeUint.addAssign token.totalSupply 1
    pure { token with
      toERC721 := base
      ownedTokens := token.ownedTokens.modify «to» fun indices => indices.modify tokenCount fun _ => tokenId
      ownedTokensIndex := token.ownedTokensIndex.modify «to» fun ids => ids.modify tokenId fun _ => tokenCount
      tokenURI := token.tokenURI.modify tokenId fun _ => uri
      tokenIdRarity := token.tokenIdRarity.modify tokenId fun _ => rarity
      tokenIdCounter
      totalSupply }

/-- The subscript of the rarities makes an entry where there is none. -/
def preBurn (token : ERC721Mint) (caller : Address) (tokenId : Uint256) : Except Exception ERC721Mint := do
  let owner ← token.ownerOf tokenId
  if owner ≠ caller then throw "MyTokenMintable: caller is not the owner"
  let base ← token.toERC721.burn_ tokenId
  pure { token with
    toERC721 := base
    preburnedTokensByOwner := token.preburnedTokensByOwner.modify caller fun ids => ids ++ [tokenId]
    tokenIdRarity := token.tokenIdRarity.modify tokenId id
    preBurnedTokens := token.preBurnedTokens.modify tokenId fun _ =>
      { exists_ := true, user := caller, rarity := token.tokenIdRarity.value tokenId } }

def burn (around : Surroundings) (token : ERC721Mint) (tokenId : Uint256) (v : UInt8) (r s : Hash) : Except Exception ERC721Mint := do
  let preBurned := token.preBurnedTokens.value tokenId
  if !preBurned.exists_ then throw "MyTokenMintable: token is not pre-burned"
  let text ← token.message tokenId preBurned.user
  let messageHash := toTyped32ByteDataHash around.sha3 (around.sha3 text)
  if v ≠ 27 ∧ v ≠ 28 then throw ("MyToken Mintable: invalid signature: realV: " ++ toString v.toNat)
  let signature := Secp256k1.makeSig r s (v - 27)
  let recoveredSigner := Secp256k1.toAddress around.sha3 (around.secp.recover signature messageHash)
  if recoveredSigner ≠ token.signer then
    throw ("MyToken Mintable: invalid signature: got: " ++ Utils.hexFromBytes recoveredSigner.get ++ " expected: " ++
      Utils.hexFromBytes token.signer.get)
  pure { token with
    burnedTokens := token.burnedTokens.modify tokenId fun _ =>
      { exists_ := true, user := preBurned.user, v, r, s, rarity := token.tokenIdRarity.value tokenId }
    tokenIdRarity := token.tokenIdRarity.modify tokenId id
    preBurnedTokens := token.preBurnedTokens.erase tokenId }

/-- The functions that change the contract. The random number of a mint is the generator's. -/
inductive Call where
  | mint («to» : Address) (random : Uint256)
  | preBurn (caller : Address) (tokenId : Uint256)
  | burn (tokenId : Uint256) (v : UInt8) (r s : Hash)
  | transferFrom (caller «from» «to» : Address) (tokenId : Uint256)
  | approve (caller «to» : Address) (tokenId : Uint256)
  | setApprovalForAll (caller operatorAddress : Address) (approved : Bool)
  | setBaseURI (caller : Address) (baseURI : String)

/-- A function of the base class, on the part of the state that it knows. -/
def inherited (token : ERC721Mint) (result : Except Exception ERC721) : Except Exception ERC721Mint := do
  let base ← result
  pure { token with toERC721 := base }

def call (around : Surroundings) (token : ERC721Mint) : Call → Except Exception ERC721Mint
  | .mint «to» random => token.mint «to» random
  | .preBurn caller tokenId => token.preBurn caller tokenId
  | .burn tokenId v r s => token.burn around tokenId v r s
  | .transferFrom caller «from» «to» tokenId => token.inherited (token.toERC721.transferFrom caller «from» «to» tokenId)
  | .approve caller «to» tokenId => token.inherited (token.toERC721.approve caller «to» tokenId)
  | .setApprovalForAll caller operatorAddress approved =>
    token.inherited (token.toERC721.setApprovalForAll caller operatorAddress approved)
  | .setBaseURI caller baseURI => token.setBaseURI around caller baseURI

/-- A new contract. -/
def New (token : ERC721Mint) : Prop :=
  ∃ name symbol maxSupply signer tokenBaseURI, token = create name symbol maxSupply signer tokenBaseURI

end ERC721Mint
end OrbiterSDK
