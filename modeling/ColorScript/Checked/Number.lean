import Mathlib.Data.List.DropRight
import ColorScript.Checked
import ColorScript.Number
import ColorScript.Operation

/-! Script numbers over machine words: bytes by their places, magnitudes in words, and the arithmetic
of the operations on numbers with a sign. -/
namespace ColorScript.Checked

open Number

def encode (n : Int) : Checked Bytes :=
  if n = 0 then pure []
  else do
    let digits := magnitudeBytes n.natAbs
    let last ← sub digits.length 1
    let top ← index digits last
    if topBit top then pure (digits ++ [if n < 0 then 0x80 else 0x00])
    else if n < 0 then pure (digits.set last (top ||| 0x80))
    else pure digits

/-- The word whose bytes are the given ones, from a place on, and below it those of `total`. -/
def gather : (place total : Nat) → Bytes → Checked Nat
  | _, total, [] => pure total
  | place, total, byte :: rest => do
    let moved ← shift byte (← word (8 * place))
    gather (place + 1) (total ||| moved) rest

/-- Reads a number. The magnitude must fit its word, and then the number its own. -/
def decode (bytes : Bytes) : Checked (Except CodecError Int) :=
  match bytes.getLast? with
  | none => pure (.ok 0)
  | some last => do
    let place ← sub bytes.length 1
    let top ← index bytes place
    let digits := (bytes.set place (top &&& 0x7f)).rdropWhile (· = 0x00)
    if 8 < digits.length then pure (.error (.numberOverflow bytes.length))
    else
      let magnitude ← gather 0 0 digits
      if magnitude < 2 ^ 63 then
        if topBit last then
          let n ← integer (-magnitude)
          pure (.ok n)
        else pure (.ok magnitude)
      else pure (.error (.numberOverflow bytes.length))

def operand (size : Nat) (minimal : Bool) (bytes : Bytes) : Checked (Except CodecError Int) :=
  if size < bytes.length then pure (.error (.numberOverflow bytes.length))
  else if minimal && !isMinimal bytes then pure (.error .nonMinimalNumber)
  else decode bytes

def isTrueFrom (size : Nat) : (place : Nat) → Bytes → Checked Bool
  | _, [] => pure false
  | place, byte :: rest =>
    if byte ≠ 0x00 then do
      let last ← sub size 1
      pure (!(place = last && byte = 0x80))
    else isTrueFrom size (place + 1) rest

def isTrue (bytes : Bytes) : Checked Bool := isTrueFrom bytes.length 0 bytes

def smallInt? (opcode : Opcode) : Checked (Option Int) :=
  if opcode = 0x00 then pure (some 0)
  else if opcode = Opcode.negateOne then pure (some (-1))
  else if Opcode.one ≤ opcode ∧ opcode ≤ Opcode.sixteen then do
    let above ← sub opcode.toNat Opcode.one.toNat
    let n ← integer (above + 1)
    pure (some n)
  else pure none

def unary : UnaryFunction → Int → Checked Int
  | .increment, n => integer (n + 1)
  | .decrement, n => integer (n - 1)
  | .negate, n => integer (-n)
  | .absolute, n => integer n.natAbs
  | function, n => pure (function.apply n)

def binary : BinaryFunction → Int → Int → Checked Int
  | .add, a, b => integer (a + b)
  | .subtract, a, b => integer (a - b)
  | function, a, b => pure (function.apply a b)

end ColorScript.Checked
