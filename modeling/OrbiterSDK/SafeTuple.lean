import OrbiterSDK.Variables
import Mathlib.Data.Fintype.Fin
import Mathlib.Data.Fin.Tuple.Basic

/-! Tuples of contracts. A copy is worked on until it is committed or reverted; comparisons
and swaps go to the tuple behind it as well. -/

namespace OrbiterSDK

/-- `std::tuple<Types...>`. -/
abbrev Tuple {n : Nat} (Types : Fin n → Type) := (index : Fin n) → Types index

inductive TupleComparison where
  | eq | ne | lt | le | gt | ge
  deriving DecidableEq

namespace Tuple
variable {n : Nat} {Types : Fin n → Type} [∀ index, DecidableEq (Types index)] [∀ index, LT (Types index)]
  [∀ index, DecidableLT (Types index)]

/-- The first elements that differ decide. -/
def less (left right : Tuple Types) : Bool :=
  (List.finRange n).foldr (fun index rest => if left index < right index then true else if right index < left index then false else rest) false

def compare : TupleComparison → Tuple Types → Tuple Types → Bool
  | .eq, left, right => decide (left = right)
  | .ne, left, right => decide (left ≠ right)
  | .lt, left, right => left.less right
  | .le, left, right => !right.less left
  | .gt, left, right => right.less left
  | .ge, left, right => !left.less right

end Tuple

structure SafeTuple {n : Nat} (Types : Fin n → Type) where
  base : SafeBase
  tuple : Tuple Types
  tuplePtr : Option (Tuple Types) := none

namespace SafeTuple
variable {n : Nat} {Types : Fin n → Type}

/-- The constructor with an owner. -/
def ofOwner (tuple : Tuple Types) : SafeTuple Types := { base := { owned := true }, tuple }

/-- The copy as it is after `check()`. -/
def written (var : SafeTuple Types) : Tuple Types := var.tuplePtr.getD var.tuple

def check (var : SafeTuple Types) : SafeTuple Types := { var with tuplePtr := some var.written }

/-- The copy constructor, which gives the copy and leaves the original checked. -/
def copied (var : SafeTuple Types) : SafeTuple Types × SafeTuple Types :=
  ({ base := { owned := false }, tuple := var.tuple, tuplePtr := some var.written }, var.check)

def markAsUsed (var : SafeTuple Types) : SafeTuple Types := { var with base := var.base.markAsUsed }

/-- A reference to an element, which may be used at once to write it. Nothing is marked. -/
def get (var : SafeTuple Types) (index : Fin n) (use : Types index → Types index) : Types index × SafeTuple Types :=
  (var.written index, { var with tuplePtr := some (Function.update var.written index (use (var.written index))) })

/-- From a tuple, a pair or a temporary. -/
def assign (var : SafeTuple Types) (value : Tuple Types) : SafeTuple Types := { var.check.markAsUsed with tuplePtr := some value }

/-- From another variable, whose copy counts if there is one. -/
def assignFrom (var other : SafeTuple Types) : SafeTuple Types := var.assign other.written

/-- Out of another variable. Its copy goes over, or else its tuple is moved from and left with any value. -/
def moveFrom (var other : SafeTuple Types) (left : Tuple Types) : SafeTuple Types × SafeTuple Types :=
  (var.assign other.written,
    match other.tuplePtr with
    | some _ => { other with tuplePtr := none }
    | none => { other with tuple := left })

/-- Both the tuples and the copies change places. -/
def swap (var other : SafeTuple Types) : SafeTuple Types × SafeTuple Types :=
  let left := var.check.markAsUsed
  let right := other.check.markAsUsed
  ({ left with tuple := right.tuple, tuplePtr := right.tuplePtr }, { right with tuple := left.tuple, tuplePtr := left.tuplePtr })

def commit (var : SafeTuple Types) : SafeTuple Types := { var with tuple := var.written, tuplePtr := none }

def revert (var : SafeTuple Types) : SafeTuple Types := { var with tuplePtr := none }

end SafeTuple

/-- A call of a member function, or of a function that takes variables as its arguments. -/
inductive TupleCall {n : Nat} (Types : Fin n → Type) (Variable : Type) where
  | get (var : Variable) (index : Fin n) (use : Types index → Types index)
  | assign (var : Variable) (value : Tuple Types)
  | assignFrom (var other : Variable)
  | moveFrom (var other : Variable) (left : Tuple Types)
  | swap (var other : Variable)
  | compare (comparison : TupleComparison) (var other : Variable)
  | commit (var : Variable)
  | revert (var : Variable)

inductive TupleReply {n : Nat} (Types : Fin n → Type) where
  | done
  | element (index : Fin n) (value : Types index)
  | flag (value : Bool)

namespace SafeTuple
variable {n : Nat} {Types : Fin n → Type} [∀ index, DecidableEq (Types index)] [∀ index, LT (Types index)]
  [∀ index, DecidableLT (Types index)] {Variable : Type} [DecidableEq Variable]

/-- Any number of variables. Moves and swaps of a variable with itself change nothing but its mark. -/
def step (vars : Variable → SafeTuple Types) : TupleCall Types Variable → TupleReply Types × (Variable → SafeTuple Types)
  | .get var index use =>
    let (value, next) := (vars var).get index use
    (.element index value, Function.update vars var next)
  | .assign var value => (.done, Function.update vars var ((vars var).assign value))
  | .assignFrom var other => (.done, Function.update vars var ((vars var).assignFrom (vars other)))
  | .moveFrom var other left =>
    if var = other then (.done, Function.update vars var (vars var).check.markAsUsed)
    else
      let (next, rest) := (vars var).moveFrom (vars other) left
      (.done, Function.update (Function.update vars var next) other rest)
  | .swap var other =>
    if var = other then (.done, Function.update vars var (vars var).check.markAsUsed)
    else
      let (left, right) := (vars var).swap (vars other)
      (.done, Function.update (Function.update vars var left) other right)
  | .compare comparison var other =>
    let vars := Function.update vars var (vars var).check
    let vars := Function.update vars other (vars other).check
    (.flag (Tuple.compare comparison (vars var).tuple (vars other).tuple), vars)
  | .commit var => (.done, Function.update vars var (vars var).commit)
  | .revert var => (.done, Function.update vars var (vars var).revert)

end SafeTuple
end OrbiterSDK
