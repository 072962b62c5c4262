import ColorScript.Number

/-! Signatures in DER: the strict form with a hash type byte behind it, and whether the
second number of a signature, read leniently, is low. -/
namespace ColorScript.Signature

def isPositiveInteger : Bytes → Bool
  | [] => false
  | [byte] => !Number.topBit byte
  | first :: second :: _ => !Number.topBit first && !(first = 0x00 && !Number.topBit second)

def isStrictBody : Bytes → Bool
  | 0x02 :: rLength :: rest =>
    isPositiveInteger (rest.take rLength.toNat) && rLength.toNat ≤ rest.length &&
      (match rest.drop rLength.toNat with
        | 0x02 :: sLength :: rest =>
          isPositiveInteger (rest.take sLength.toNat) && rest.length = sLength.toNat + 1
        | _ => false)
  | _ => false

/-- Whether a signature with its hash type byte is in strict DER. -/
def isStrictDER (sig : Bytes) : Bool :=
  9 ≤ sig.length && sig.length ≤ 73 &&
    (match sig with
      | 0x30 :: length :: body => length.toNat + 3 = sig.length && isStrictBody body
      | _ => false)

def groupOrder : Nat := 0xfffffffffffffffffffffffffffffffebaaedce6af48a03bbfd25e8cd0364141

def bigEndian (bytes : Bytes) : Nat := Bytes.toNat bytes.reverse

/-- Reads a length: one byte below 128, or a count of length bytes and those bytes, at
most seven of them after leading zeros. -/
def laxLength? : Bytes → Option (Nat × Bytes)
  | [] => none
  | code :: rest =>
    if code < 0x80 then some (code.toNat, rest)
    else
      let count := code.toNat - 0x80
      if rest.length < count then none
      else
        let digits := (rest.take count).dropWhile (· = 0)
        if 8 ≤ digits.length then none else some (bigEndian digits, rest.drop count)

def laxInteger? : Bytes → Option (Nat × Bytes)
  | 0x02 :: rest => do
    let (length, rest) ← laxLength? rest
    if rest.length < length then none
    return (bigEndian (rest.take length), rest.drop length)
  | _ => none

def skipLength? : Bytes → Option Bytes
  | [] => none
  | code :: rest =>
    if code < 0x80 then some rest
    else if rest.length < code.toNat - 0x80 then none
    else some (rest.drop (code.toNat - 0x80))

/-- The two numbers of a signature read leniently. Bytes behind them are ignored. -/
def laxNumbers? : Bytes → Option (Nat × Nat)
  | 0x30 :: rest => do
    let rest ← skipLength? rest
    let (r, rest) ← laxInteger? rest
    let (s, _) ← laxInteger? rest
    return (r, s)
  | _ => none

/-- Whether the second number of a signature is at most half the group order. If either
number is not below the order, the signature counts as zero, hence as low. -/
def isLowS (der : Bytes) : Bool :=
  match laxNumbers? der with
  | some (r, s) => groupOrder ≤ r || groupOrder ≤ s || s ≤ (groupOrder - 1) / 2
  | none => false

end ColorScript.Signature
