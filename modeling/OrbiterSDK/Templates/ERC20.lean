import OrbiterSDK.SafeUint
import OrbiterSDK.Lib.Attempts
import OrbiterSDK.Lib.Table

/-! The token contract. Its state is what its variables say between two calls, and a call
that throws gives no state: the manager then reverts every variable. -/

namespace OrbiterSDK
open Lib

structure ERC20 where
  name : String
  symbol : String
  decimals : UInt8
  totalSupply : Uint256 := 0
  balances : Table Address Uint256 := default
  allowed : Table Address (Table Address Uint256) := default

namespace ERC20

/-- `balances_[address] += value`. -/
def credit (balances : Table Address Uint256) (address : Address) (value : Uint256) :
    Except Exception (Table Address Uint256) := do
  let sum ← Uint256.add (balances.value address) value
  pure (balances.modify address fun _ => sum)

/-- `balances_[address] -= value`. -/
def debit (balances : Table Address Uint256) (address : Address) (value : Uint256) :
    Except Exception (Table Address Uint256) := do
  let rest ← Uint256.sub (balances.value address) value
  pure (balances.modify address fun _ => rest)

def mintValue_ (token : ERC20) (address : Address) (value : Uint256) : Except Exception ERC20 := do
  let balances ← credit token.balances address value
  let totalSupply ← SafeUint.addAssign token.totalSupply value
  pure { token with balances, totalSupply }

def burnValue_ (token : ERC20) (address : Address) (value : Uint256) : Except Exception ERC20 := do
  let balances ← debit token.balances address value
  let totalSupply ← SafeUint.subAssign token.totalSupply value
  pure { token with balances, totalSupply }

def balanceOf (token : ERC20) (owner : Address) : Uint256 := (token.balances.find owner).getD 0

def transfer (token : ERC20) (caller «to» : Address) (value : Uint256) : Except Exception ERC20 := do
  let balances ← debit token.balances caller value
  let balances ← credit balances «to» value
  pure { token with balances }

def approve (token : ERC20) (caller spender : Address) (value : Uint256) : ERC20 :=
  { token with allowed := token.allowed.modify caller fun spenders => spenders.modify spender fun _ => value }

def allowance (token : ERC20) (owner spender : Address) : Uint256 :=
  match token.allowed.find owner with
  | none => 0
  | some spenders => (spenders.find spender).getD 0

def transferFrom (token : ERC20) (caller «from» «to» : Address) (value : Uint256) : Except Exception ERC20 := do
  let spenders ← debit (token.allowed.value «from») caller value
  let balances ← debit token.balances «from» value
  let balances ← credit balances «to» value
  pure { token with balances, allowed := token.allowed.modify «from» fun _ => spenders }

/-- The constructor of a new contract. -/
def create (name symbol : String) (decimals : UInt8) (mintValue : Uint256) (creator : Address) : Except Exception ERC20 :=
  mintValue_ { name, symbol, decimals } creator mintValue

/-- The functions that change the token, with their caller. The last two are for contracts
derived from it. -/
inductive Call where
  | transfer (caller «to» : Address) (value : Uint256)
  | approve (caller spender : Address) (value : Uint256)
  | transferFrom (caller «from» «to» : Address) (value : Uint256)
  | mintValue_ (address : Address) (value : Uint256)
  | burnValue_ (address : Address) (value : Uint256)

def call (token : ERC20) : Call → Except Exception ERC20
  | .transfer caller «to» value => token.transfer caller «to» value
  | .approve caller spender value => .ok (token.approve caller spender value)
  | .transferFrom caller «from» «to» value => token.transferFrom caller «from» «to» value
  | .mintValue_ address value => token.mintValue_ address value
  | .burnValue_ address value => token.burnValue_ address value

/-- What calls make of a new contract. A call that throws is reverted. -/
def Reachable : ERC20 → Prop :=
  Reached call (fun token => ∃ name symbol decimals mintValue creator,
    create name symbol decimals mintValue creator = .ok token) fun _ _ => True

end ERC20
end OrbiterSDK
