import ColorScript.Script

/-! The oracle that answers for signatures and lock times. Running a script needs nothing
else of the transaction or of the curve. -/
namespace ColorScript

/-- Whether `sig` is a signature by `key`, of the transaction with a commitment to `code` or of a
digest, and whether the transaction is locked until `n` or the input as old as `n` says. -/
inductive Query where
  | signature (sig key : Bytes) (code : Script)
  | dataSignature (sig key digest : Bytes)
  | lockTime (n : Int)
  | sequence (n : Int)
deriving DecidableEq

/-- An oracle: a fixed answer to every question. -/
abbrev Oracle := Query → Bool

structure Call where
  query : Query
  answer : Bool
deriving DecidableEq

def Oracle.never : Oracle := fun _ => false

/-- What the lock time rules look at in a transaction. -/
structure TimeLock where
  lockTime : UInt32
  version : Int32
  sequence : UInt32
deriving DecidableEq

namespace TimeLock

-- Lock times below this are block heights, the others are times.
def heightLimit : Int := 500000000

/-- The bits of a relative lock time that count: the kind and the amount. -/
def sequenceMask : Nat := 0x40ffff

def kindBit : Nat := 0x400000

def offBit : Nat := 0x80000000

-- A negative integer counts as a two's complement, of which the low 32 bits are looked at.
def masked (n : Int) (mask : Nat) : Nat := (n % 0x100000000).toNat &&& mask

def sameKind (limit own asked : Int) : Bool :=
  (own < limit && asked < limit) || (limit ≤ own && limit ≤ asked)

def allowsLockTime (lock : TimeLock) (n : Int) : Bool :=
  let locked : Int := lock.lockTime.toNat
  if !sameKind heightLimit locked n || locked < n then false
  -- A final input switches lock times off.
  else lock.sequence ≠ 0xffffffff

def allowsSequence (lock : TimeLock) (n : Int) : Bool :=
  let own := lock.sequence.toNat
  if lock.version < 2 || own &&& offBit ≠ 0 then false
  else
    let held := own &&& sequenceMask
    let asked := masked n sequenceMask
    sameKind kindBit held asked && asked ≤ held

def oracle (lock : TimeLock) : Oracle
  | .lockTime n => lock.allowsLockTime n
  | .sequence n => lock.allowsSequence n
  | _ => false

end TimeLock

end ColorScript
