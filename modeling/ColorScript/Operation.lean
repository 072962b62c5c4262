import ColorScript.Digest
import ColorScript.Opcode
import ColorScript.Stack

/-! What the opcodes do, by family, and the operation that each opcode stands for. -/
namespace ColorScript

inductive UnaryFunction where
  | increment
  | decrement
  | negate
  | absolute
  | isZero
  | isNonZero
deriving DecidableEq

def truthNumber (truth : Bool) : Int := if truth then 1 else 0

def UnaryFunction.apply : UnaryFunction → Int → Int
  | .increment, n => n + 1
  | .decrement, n => n - 1
  | .negate, n => -n
  | .absolute, n => n.natAbs
  | .isZero, n => truthNumber (n = 0)
  | .isNonZero, n => truthNumber (n ≠ 0)

inductive BinaryFunction where
  | add
  | subtract
  | both
  | either
  | equal
  | unequal
  | less
  | greater
  | lessOrEqual
  | greaterOrEqual
  | minimum
  | maximum
deriving DecidableEq

def BinaryFunction.apply : BinaryFunction → Int → Int → Int
  | .add, a, b => a + b
  | .subtract, a, b => a - b
  | .both, a, b => truthNumber (a ≠ 0 && b ≠ 0)
  | .either, a, b => truthNumber (a ≠ 0 || b ≠ 0)
  | .equal, a, b => truthNumber (a = b)
  | .unequal, a, b => truthNumber (a ≠ b)
  | .less, a, b => truthNumber (a < b)
  | .greater, a, b => truthNumber (a > b)
  | .lessOrEqual, a, b => truthNumber (a ≤ b)
  | .greaterOrEqual, a, b => truthNumber (a ≥ b)
  | .minimum, a, b => min a b
  | .maximum, a, b => max a b

inductive Ending where
  /-- The truth value is put on the stack. -/
  | yield
  /-- The script fails unless the truth value is true. -/
  | demand
deriving DecidableEq

/-- An operation that is not a push of bytes. -/
inductive Operation where
  | pushInt (n : Int)
  | nothing
  | reservedNothing
  | checkLockTime
  | checkSequence
  /-- Opens a branch that is taken if the top item is true, or, if `negated`, false. -/
  | branch (negated : Bool)
  | otherwise
  | endBranch
  | verify
  | giveUp
  | toAlt
  | fromAlt
  | shuffle (move : Shuffle)
  | dupIfTrue
  | depth
  /-- Copies the item at a depth to the top, or, if `removed`, moves it there. -/
  | fetch (removed : Bool)
  | size
  | equal (ending : Ending)
  | unary (function : UnaryFunction)
  | binary (function : BinaryFunction)
  | numEqualVerify
  | within
  | digest (function : DigestFunction)
  | codeSeparator
  | checkSig (ending : Ending)
  | checkDataSig (ending : Ending)
  | checkMultiSig (ending : Ending)
  | setColor
  | invalid
deriving DecidableEq

namespace Operation

/-- The operations of the opcodes that have one of their own; `invalid` for all others. -/
def named : Opcode → Operation
  | 0x61 => .nothing
  | 0x63 => .branch false
  | 0x64 => .branch true
  | 0x67 => .otherwise
  | 0x68 => .endBranch
  | 0x69 => .verify
  | 0x6a => .giveUp
  | 0x6b => .toAlt
  | 0x6c => .fromAlt
  | 0x6d => .shuffle .dropTwo
  | 0x6e => .shuffle .dupTwo
  | 0x6f => .shuffle .dupThree
  | 0x70 => .shuffle .overTwo
  | 0x71 => .shuffle .rotTwo
  | 0x72 => .shuffle .swapTwo
  | 0x73 => .dupIfTrue
  | 0x74 => .depth
  | 0x75 => .shuffle .drop
  | 0x76 => .shuffle .dup
  | 0x77 => .shuffle .nip
  | 0x78 => .shuffle .over
  | 0x79 => .fetch false
  | 0x7a => .fetch true
  | 0x7b => .shuffle .rot
  | 0x7c => .shuffle .swap
  | 0x7d => .shuffle .tuck
  | 0x82 => .size
  | 0x87 => .equal .yield
  | 0x88 => .equal .demand
  | 0x8b => .unary .increment
  | 0x8c => .unary .decrement
  | 0x8f => .unary .negate
  | 0x90 => .unary .absolute
  | 0x91 => .unary .isZero
  | 0x92 => .unary .isNonZero
  | 0x93 => .binary .add
  | 0x94 => .binary .subtract
  | 0x9a => .binary .both
  | 0x9b => .binary .either
  | 0x9c => .binary .equal
  | 0x9d => .numEqualVerify
  | 0x9e => .binary .unequal
  | 0x9f => .binary .less
  | 0xa0 => .binary .greater
  | 0xa1 => .binary .lessOrEqual
  | 0xa2 => .binary .greaterOrEqual
  | 0xa3 => .binary .minimum
  | 0xa4 => .binary .maximum
  | 0xa5 => .within
  | 0xa6 => .digest .ripemd160
  | 0xa7 => .digest .sha1
  | 0xa8 => .digest .sha256
  | 0xa9 => .digest .hash160
  | 0xaa => .digest .hash256
  | 0xab => .codeSeparator
  | 0xac => .checkSig .yield
  | 0xad => .checkSig .demand
  | 0xae => .checkMultiSig .yield
  | 0xaf => .checkMultiSig .demand
  | 0xb1 => .checkLockTime
  | 0xb2 => .checkSequence
  | 0xba => .checkDataSig .yield
  | 0xbb => .checkDataSig .demand
  | 0xbc => .setColor
  | _ => .invalid

def ofOpcode (opcode : Opcode) : Operation :=
  if opcode = 0xb0 ∨ (0xb3 ≤ opcode ∧ opcode ≤ 0xb9) then .reservedNothing
  else if Opcode.negateOne ≤ opcode then
    match Opcode.smallInt? opcode with
    | some n => .pushInt n
    | none => named opcode
  else .invalid

end Operation

end ColorScript
