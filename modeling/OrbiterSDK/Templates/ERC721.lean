import OrbiterSDK.Utils
import OrbiterSDK.Lib.Attempts
import OrbiterSDK.Lib.Table

/-! The contract of tokens that are owned one by one. The zero address stands for no owner
and for no approval. -/

namespace OrbiterSDK
open Lib

structure ERC721 where
  name : String
  symbol : String
  owners : Table Uint256 Address := default
  balances : Table Address Uint256 := default
  tokenApprovals : Table Uint256 Address := default
  operatorAddressApprovals : Table Address (Table Address Bool) := default

namespace ERC721

def ownerOf_ (token : ERC721) (tokenId : Uint256) : Address := (token.owners.find tokenId).getD 0

def getApproved_ (token : ERC721) (tokenId : Uint256) : Address := (token.tokenApprovals.find tokenId).getD 0

def isApprovedForAll (token : ERC721) (owner operatorAddress : Address) : Bool :=
  match token.operatorAddressApprovals.find owner with
  | none => false
  | some operators => (operators.find operatorAddress).getD false

def isAuthorized_ (token : ERC721) (owner spender : Address) (tokenId : Uint256) : Bool :=
  if spender = owner then true
  else if spender = 0 then false
  else if token.isApprovedForAll owner spender then true
  else decide (token.getApproved_ tokenId = spender)

def checkAuthorized_ (token : ERC721) (owner spender : Address) (tokenId : Uint256) : Except Exception Unit :=
  if token.isAuthorized_ owner spender tokenId then .ok ()
  else if owner ≠ 0 then .error "ERC721::checkAuthorized_: Not authorized"
  else .error "ERC721::checkAuthorized_: inexistent token"

/-- `balances_[from]--`, for an owner. -/
def leave (balances : Table Address Uint256) («from» : Address) : Except Exception (Table Address Uint256) :=
  if «from» = 0 then .ok balances
  else do
    let rest ← Uint256.sub (balances.value «from») 1
    pure (balances.modify «from» fun _ => rest)

/-- `balances_[to]++`, for an owner. -/
def arrive (balances : Table Address Uint256) («to» : Address) : Except Exception (Table Address Uint256) :=
  if «to» = 0 then .ok balances
  else do
    let sum ← Uint256.add (balances.value «to») 1
    pure (balances.modify «to» fun _ => sum)

/-- The new state, and the owner before. -/
def update_ (token : ERC721) («to» : Address) (tokenId : Uint256) (auth : Address) : Except Exception (ERC721 × Address) := do
  let «from» := token.ownerOf_ tokenId
  if auth ≠ 0 then token.checkAuthorized_ «from» auth tokenId
  let tokenApprovals := if «from» = 0 then token.tokenApprovals else token.tokenApprovals.modify tokenId fun _ => 0
  let balances ← leave token.balances «from»
  let balances ← arrive balances «to»
  pure ({ token with tokenApprovals, balances, owners := token.owners.modify tokenId fun _ => «to» }, «from»)

def mint_ (token : ERC721) («to» : Address) (tokenId : Uint256) : Except Exception ERC721 :=
  if «to» = 0 then .error "ERC721::mint_: mint to the zero address"
  else do
    let (token, _) ← token.update_ «to» tokenId 0
    pure token

def burn_ (token : ERC721) (tokenId : Uint256) : Except Exception ERC721 := do
  let (token, prevOwner) ← token.update_ 0 tokenId 0
  if prevOwner = 0 then throw "ERC721::burn_: inexistent token"
  pure token

def ownerOf (token : ERC721) (tokenId : Uint256) : Except Exception Address :=
  let owner := token.ownerOf_ tokenId
  if owner = 0 then .error "ERC721::ownerOf: inexistent token" else .ok owner

def balanceOf (token : ERC721) (owner : Address) : Except Exception Uint256 :=
  if owner = 0 then .error "ERC721::balanceOf: zero address" else .ok ((token.balances.find owner).getD 0)

def approve_ (token : ERC721) («to» : Address) (tokenId : Uint256) (auth : Address) : Except Exception ERC721 := do
  let owner ← token.ownerOf tokenId
  if auth ≠ 0 ∧ owner ≠ auth ∧ !token.isApprovedForAll owner auth then throw "ERC721::approve_: Not authorized"
  pure { token with tokenApprovals := token.tokenApprovals.modify tokenId fun _ => «to» }

def approve (token : ERC721) (caller «to» : Address) (tokenId : Uint256) : Except Exception ERC721 :=
  token.approve_ «to» tokenId caller

def setApprovalForAll_ (token : ERC721) (owner operatorAddress : Address) (approved : Bool) : Except Exception ERC721 :=
  if operatorAddress = 0 then .error "ERC721::setApprovalForAll_: zero address"
  else .ok { token with
    operatorAddressApprovals := token.operatorAddressApprovals.modify owner fun operators =>
      operators.modify operatorAddress fun _ => approved }

def setApprovalForAll (token : ERC721) (caller operatorAddress : Address) (approved : Bool) : Except Exception ERC721 :=
  token.setApprovalForAll_ caller operatorAddress approved

def transferFrom (token : ERC721) (caller «from» «to» : Address) (tokenId : Uint256) : Except Exception ERC721 :=
  if «to» = 0 then .error "ERC721::transferFrom: transfer to the zero address"
  else do
    let (token, prevOwner) ← token.update_ «to» tokenId caller
    if prevOwner = 0 then throw "ERC721::transferFrom: inexistent token"
    else if prevOwner ≠ «from» then throw "ERC721::transferFrom: incorrect owner"
    pure token

/-- The functions that change the contract, with their caller. The first two are for
contracts derived from it. -/
inductive Call where
  | mint_ («to» : Address) (tokenId : Uint256)
  | burn_ (tokenId : Uint256)
  | transferFrom (caller «from» «to» : Address) (tokenId : Uint256)
  | approve (caller «to» : Address) (tokenId : Uint256)
  | setApprovalForAll (caller operatorAddress : Address) (approved : Bool)

def call (token : ERC721) : Call → Except Exception ERC721
  | .mint_ «to» tokenId => token.mint_ «to» tokenId
  | .burn_ tokenId => token.burn_ tokenId
  | .transferFrom caller «from» «to» tokenId => token.transferFrom caller «from» «to» tokenId
  | .approve caller «to» tokenId => token.approve caller «to» tokenId
  | .setApprovalForAll caller operatorAddress approved => token.setApprovalForAll caller operatorAddress approved

/-- The constructor of a new contract. -/
def create (name symbol : String) : ERC721 := { name, symbol }

/-- What calls make of a new contract. A call that throws is reverted. -/
def Reachable : ERC721 → Prop :=
  Reached call (fun token => ∃ name symbol, token = create name symbol) fun _ _ => True

end ERC721
end OrbiterSDK
