import ColorScript.Checked.Codec
import ColorScript.Signature.Encoding

/-! Encodings of signatures, keys and colours by places, some of which bytes of the encoding itself
determine. -/
namespace ColorScript.Checked

open Signature

/-- Whether an integer of so many bytes, positive and without needless zeros, has its tag at a place
and its bytes two places after it. -/
def isIntegerAt (sig : Bytes) (place length : Nat) : Checked Bool := do
  let tag ← index sig place
  if tag ≠ 0x02 ∨ length = 0 then pure false
  else
    let first ← index sig (← add place 2)
    if Number.topBit first then pure false
    else if 1 < length ∧ first = 0x00 then
      let second ← index sig (← add place 3)
      pure (Number.topBit second)
    else pure true

def areIntegers (sig : Bytes) (rLength : Nat) : Checked Bool := do
  let place ← add 5 rLength
  if sig.length ≤ place then pure false
  else
    let sLength := (← index sig place).toNat
    let total ← add (← add rLength sLength) 7
    if total ≠ sig.length then pure false
    else
      let positive ← isIntegerAt sig 2 rLength
      if positive then isIntegerAt sig (← add rLength 4) sLength else pure false

def isStrictDER (sig : Bytes) : Checked Bool := do
  if sig.length < 9 ∨ 73 < sig.length then pure false
  else
    let tag ← index sig 0
    if tag ≠ 0x30 then pure false
    else
      let length ← index sig 1
      if length.toNat ≠ (← sub sig.length 3) then pure false
      else
        let rLength ← index sig 3
        areIntegers sig rLength.toNat

def checkEcdsa (flags : Flags) (sig : Bytes) : Checked (Except ScriptError Unit) := do
  let strict ← provided (flags.has .derSig || flags.has .lowS || flags.has .strictEnc) (isStrictDER sig)
  if !strict then pure (.error .sigDer)
  else if flags.has .lowS then
    let der ← slice sig 0 (← sub sig.length 1)
    pure (if isLowS der then .ok () else .error .sigHighS)
  else pure (.ok ())

def checkTransaction (flags : Flags) (sig : Bytes) : Checked (Except ScriptError Unit) :=
  if sig.isEmpty then pure (.ok ())
  else if transactionScheme sig = .schnorr then pure (checkHashType flags sig)
  else do
    let verdict ← checkEcdsa flags sig
    pure (verdict >>= fun _ => checkHashType flags sig)

def checkData (flags : Flags) (sig : Bytes) : Checked (Except ScriptError Unit) :=
  if sig.isEmpty ∨ dataScheme sig = .schnorr then pure (.ok ()) else checkEcdsa flags (sig ++ [0x01])

def isKey (uncompressed : List UInt8) (bytes : Bytes) : Checked Bool :=
  if bytes.length = 33 then do
    let first ← index bytes 0
    pure (first = 0x02 || first = 0x03)
  else if bytes.length = 65 then do
    let first ← index bytes 0
    pure (uncompressed.contains first)
  else pure false

def checkKey (flags : Flags) (key : Bytes) : Checked (Except ScriptError Unit) := do
  if flags.has .strictEnc then
    let fine ← isKey [0x04] key
    pure (if fine then .ok () else .error .pubkeyType)
  else pure (.ok ())

/-- Reads a colour identifier. The bytes after the token type are copied to a place for 32. -/
def colorOfBytes (bytes : Bytes) : Checked (Except ColorFault ColorId) := do
  if bytes.length ≠ ColorId.size then pure (.error (.wrongLength bytes.length))
  else
    let code ← index bytes 0
    match TokenType.ofByte? code with
    | none => pure (.error (.unknownType code))
    | some type =>
      let payload ← sliceFrom bytes 1
      if h : payload.length = 32 then pure (.ok ⟨type, payload, h⟩) else throw .range

end ColorScript.Checked
