import ColorScript.Bytes

/-! Stacks of byte strings, the top one first, so that the depth of an item is its place
in the list; and the rearrangements of the topmost items. -/
namespace ColorScript

/-- A stack. The item at depth 0 is the top. -/
abbrev Stack := List Bytes

namespace Stack

def peek? (stack : Stack) (depth : Nat) : Option Bytes := stack[depth]?

def remove? (stack : Stack) (depth : Nat) : Option (Bytes × Stack) :=
  stack[depth]?.map fun item => (item, stack.eraseIdx depth)

/-- Puts an item in, so that it ends up at a depth. -/
def insert? (stack : Stack) (depth : Nat) (item : Bytes) : Option Stack :=
  if depth ≤ stack.length then some (stack.insertIdx depth item) else none

def swap? (stack : Stack) (a b : Nat) : Option Stack :=
  match stack[a]?, stack[b]? with
  | some atA, some atB => some ((stack.set a atB).set b atA)
  | _, _ => none

end Stack

inductive Shuffle where
  | drop
  | dropTwo
  | dup
  | dupTwo
  | dupThree
  | nip
  | over
  | overTwo
  | rot
  | rotTwo
  | swap
  | swapTwo
  | tuck
deriving DecidableEq

namespace Shuffle

def arity : Shuffle → Nat
  | .drop | .dup => 1
  | .dropTwo | .dupTwo | .nip | .over | .swap | .tuck => 2
  | .dupThree | .rot => 3
  | .overTwo | .swapTwo => 4
  | .rotTwo => 6

def rearrange? : Shuffle → Stack → Option Stack
  | .drop, _ :: rest => some rest
  | .dropTwo, _ :: _ :: rest => some rest
  | .dup, a :: rest => some (a :: a :: rest)
  | .dupTwo, a :: b :: rest => some (a :: b :: a :: b :: rest)
  | .dupThree, a :: b :: c :: rest => some (a :: b :: c :: a :: b :: c :: rest)
  | .nip, a :: _ :: rest => some (a :: rest)
  | .over, a :: b :: rest => some (b :: a :: b :: rest)
  | .overTwo, a :: b :: c :: d :: rest => some (c :: d :: a :: b :: c :: d :: rest)
  | .rot, a :: b :: c :: rest => some (c :: a :: b :: rest)
  | .rotTwo, a :: b :: c :: d :: e :: f :: rest => some (e :: f :: a :: b :: c :: d :: rest)
  | .swap, a :: b :: rest => some (b :: a :: rest)
  | .swapTwo, a :: b :: c :: d :: rest => some (c :: d :: a :: b :: rest)
  | .tuck, a :: b :: rest => some (a :: b :: a :: rest)
  | _, _ => none

end Shuffle

end ColorScript
