import ColorScript.Bytes
import ColorScript.Text.Decimal

/-! Byte strings as hexadecimal texts. Writing uses lower case, reading takes
both cases and reports the first fault. -/
namespace ColorScript.Text.Hex

def digit (n : Nat) : Char := Char.ofNat (if n < 10 then 48 + n else 87 + n)

def pair (byte : UInt8) : List Char := [digit (byte.toNat / 16), digit (byte.toNat % 16)]

def digits (bytes : Bytes) : List Char := bytes.flatMap pair

def encode (bytes : Bytes) : String := String.ofList (digits bytes)

def value? (code : UInt8) : Option UInt8 :=
  if 48 ≤ code ∧ code ≤ 57 then some (code - 48)
  else if 65 ≤ code ∧ code ≤ 70 then some (code - 55)
  else if 97 ≤ code ∧ code ≤ 102 then some (code - 87)
  else none

inductive Fault where
  | oddLength
  | badDigit (code : UInt8) (index : Nat)
deriving DecidableEq

/-- Reads pairs of digits, `index` being the place of the first byte in the whole text. -/
def decodePairs : (index : Nat) → Bytes → Except Fault Bytes
  | index, high :: low :: rest =>
    match value? high, value? low with
    | none, _ => .error (.badDigit high index)
    | some _, none => .error (.badDigit low (index + 1))
    | some h, some l => (decodePairs (index + 2) rest).map ((16 * h + l) :: ·)
  | _, _ => .ok []

/-- Reads the UTF-8 bytes of a hexadecimal text. An odd length is reported before
any bad digit. -/
def decode (text : Bytes) : Except Fault Bytes :=
  if text.length % 2 = 1 then .error .oddLength else decodePairs 0 text

def natDigits (n : Nat) : List Char :=
  if n < 16 then [digit n] else natDigits (n / 16) ++ [digit (n % 16)]
termination_by n

/-- How a Latin-1 character is shown between quotes: itself if it is visible or a
plain space, else by its short escape or by its number in braces. -/
def visible (code : UInt8) : List Char :=
  match code.toNat with
  | 0 => ['\\', '0']
  | 9 => ['\\', 't']
  | 10 => ['\\', 'n']
  | 13 => ['\\', 'r']
  | 39 => ['\\', Char.ofNat 39]
  | 92 => ['\\', '\\']
  | n =>
    if n < 32 || (127 ≤ n && n ≤ 160) || n = 173 then
      ['\\', 'u', '\x7b'] ++ natDigits n ++ ['\x7d']
    else [Char.ofNat n]

def Fault.message : Fault → String
  | .oddLength => "Odd number of digits"
  | .badDigit code index =>
    "Invalid character " ++ String.ofList ([Char.ofNat 39] ++ visible code ++ [Char.ofNat 39])
      ++ " at position " ++ Decimal.text index

end ColorScript.Text.Hex
