import ColorScript.CodecError

/-! Script numbers: little-endian bytes whose very last bit is the sign. The empty
string is zero, and a value has one shortest form. -/
namespace ColorScript.Number

def topBit (byte : UInt8) : Bool := byte &&& 0x80 ≠ 0

/-- The base-256 digits of a number, least significant first, without leading zeros. -/
def magnitudeBytes (n : Nat) : Bytes :=
  if n = 0 then [] else UInt8.ofNat n :: magnitudeBytes (n / 256)
termination_by n

/-- Puts a sign on the digits of a magnitude, in a byte of its own if the last digit
uses its top bit. -/
def withSign (negative : Bool) : Bytes → Bytes
  | [] => []
  | [last] =>
    if topBit last then [last, if negative then 0x80 else 0x00]
    else [if negative then last ||| 0x80 else last]
  | byte :: rest => byte :: withSign negative rest

def encode (n : Int) : Bytes := withSign (n < 0) (magnitudeBytes n.natAbs)

def splitSign : Bytes → Bytes × Bool
  | [] => ([], false)
  | [last] => ([last &&& 0x7f], topBit last)
  | byte :: rest => ((byte :: (splitSign rest).1), (splitSign rest).2)

/-- The integer that bytes stand for, in whatever form. Only magnitudes below 2^63
can be read. -/
def decode (bytes : Bytes) : Except CodecError Int :=
  let (digits, negative) := splitSign bytes
  let magnitude := Bytes.toNat digits
  if magnitude < 0x8000000000000000 then .ok (if negative then -(magnitude : Int) else magnitude)
  else .error (.numberOverflow bytes.length)

/-- Whether bytes are the shortest form of their value: the last byte carries more than
a sign, or the byte before it needs its top bit. -/
def isMinimal : Bytes → Bool
  | [] => true
  | [last] => last &&& 0x7f ≠ 0
  | [previous, last] => last &&& 0x7f ≠ 0 || topBit previous
  | _ :: rest => isMinimal rest

def operand (size : Nat) (minimal : Bool) (bytes : Bytes) : Except CodecError Int :=
  if size < bytes.length then .error (.numberOverflow bytes.length)
  else if minimal && !isMinimal bytes then .error .nonMinimalNumber
  else decode bytes

def operandSize : Nat := 4

def lockTimeSize : Nat := 5

/-- Whether bytes count as true: some byte is not zero, a lone sign bit at the end aside. -/
def isTrue : Bytes → Bool
  | [] => false
  | [last] => last ≠ 0x00 && last ≠ 0x80
  | byte :: rest => byte ≠ 0x00 || isTrue rest

def ofBool : Bool → Bytes
  | true => [0x01]
  | false => []

end ColorScript.Number
