import OrbiterSDK.Lib.Atomic
import OrbiterSDK.Lib.Registry
import OrbiterSDK.Templates.ERC20

/-! The contract that keeps tokens for users, with the token contracts that it calls. -/

namespace OrbiterSDK
open Lib

structure ERC20Wrapper where
  tokensAndBalances : Table Address (Table Address Uint256) := default

namespace ERC20Wrapper

/-- The wrapper and the tokens that are deployed next to it. -/
structure Vault where
  wrapper : ERC20Wrapper := {}
  tokens : Registry Address ERC20 := []

abbrev Run := Atomic Vault Exception

/-- `callContractFunction` on a token. -/
def callToken (token : Address) (function : ERC20 → Except Exception ERC20) : Run Unit := do
  let vault ← get
  match vault.tokens.find token with
  | none => throw "ContractManager::getContract: contract at address not found."
  | some contract => do
    let contract ← Atomic.checked (function contract)
    modify fun vault => { vault with tokens := vault.tokens.update token fun _ => contract }

def getContractBalance (vault : Vault) (self token : Address) : Uint256 :=
  match vault.tokens.find token with
  | none => 0
  | some contract => contract.balanceOf self

def getUserBalance (wrapper : ERC20Wrapper) (token user : Address) : Uint256 :=
  match wrapper.tokensAndBalances.find token with
  | none => 0
  | some users => (users.find user).getD 0

/-- What a user takes out, which has to leave something. -/
def lower (wrapper : ERC20Wrapper) (token user : Address) (value : Uint256) : Except Exception ERC20Wrapper :=
  match wrapper.tokensAndBalances.find token with
  | none => .error "Token not found"
  | some users =>
    match users.find user with
    | none => .error "User not found"
    | some balance =>
      if balance ≤ value then .error "ERC20Wrapper: Not enough balance"
      else do
        let rest ← Uint256.sub balance value
        pure { wrapper with tokensAndBalances := wrapper.tokensAndBalances.modify token fun users => users.modify user fun _ => rest }

def raise (wrapper : ERC20Wrapper) (token user : Address) (value : Uint256) : Except Exception ERC20Wrapper := do
  let sum ← Uint256.add ((wrapper.tokensAndBalances.value token).value user) value
  pure { wrapper with tokensAndBalances := wrapper.tokensAndBalances.modify token fun users => users.modify user fun _ => sum }

def transferTo (self caller token «to» : Address) (value : Uint256) : Run Unit := do
  let vault ← get
  let wrapper ← Atomic.checked (vault.wrapper.lower token caller value)
  modify fun vault => { vault with wrapper }
  callToken token fun contract => contract.transfer self «to» value

def withdraw (self caller token : Address) (value : Uint256) : Run Unit := transferTo self caller token caller value

def deposit (self caller token : Address) (value : Uint256) : Run Unit := do
  callToken token fun contract => contract.transferFrom self caller self value
  let vault ← get
  let wrapper ← Atomic.checked (vault.wrapper.raise token caller value)
  modify fun vault => { vault with wrapper }

/-- Calls of the wrapper and of tokens, and the deployment of a token. -/
inductive Call where
  | deposit (caller token : Address) (value : Uint256)
  | withdraw (caller token : Address) (value : Uint256)
  | transferTo (caller token «to» : Address) (value : Uint256)
  | token (address : Address) (call : ERC20.Call)
  | create (address : Address) (name symbol : String) (decimals : UInt8) (mintValue : Uint256) (creator : Address)

def perform (self : Address) : Call → Run Unit
  | .deposit caller token value => deposit self caller token value
  | .withdraw caller token value => withdraw self caller token value
  | .transferTo caller token «to» value => transferTo self caller token «to» value
  | .token address call => callToken address fun contract => contract.call call
  | .create address name symbol decimals mintValue creator => do
    let vault ← get
    Atomic.require (vault.tokens.find address).isNone "Contract already exists as a Dynamic Contract"
    let contract ← Atomic.checked (ERC20.create name symbol decimals mintValue creator)
    modify fun vault => { vault with tokens := vault.tokens.add address contract }

def call (self : Address) (vault : Vault) (request : Call) : Except Exception Vault :=
  ((perform self request).run vault).map Prod.snd

end ERC20Wrapper
end OrbiterSDK
