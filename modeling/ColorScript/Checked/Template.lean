import ColorScript.Checked.Encoding

/-! Output templates over places: the chunks that a template asks for are looked up one by one. -/
namespace ColorScript.Checked

open Opcode

def count? : Chunk → Checked (Option Int)
  | .op code => if one ≤ code ∧ code ≤ sixteen then smallInt? code else pure none
  | _ => pure none

def isKeyPush (chunk : Chunk) : Checked Bool := do
  let whole ← isWellFormed chunk
  pure (whole && chunk.payload?.any fun key =>
    key.length = Script.compressedKeySize || key.length = Script.uncompressedKeySize)

def isMultisig (script : Script) : Checked Bool := do
  if script.length < 4 then pure false
  else
    let closing ← index script (← sub script.length 1)
    if closing ≠ .op checkMultiSig then pure false
    else
      let required ← count? (← index script 0)
      let total ← count? (← index script (← sub script.length 2))
      match required, total with
      | some required, some total =>
        let length ← integer (total + 3)
        if required < 1 ∨ total < required ∨ toInteger script.length ≠ length then pure false
        else (← slice script 1 (← sub script.length 2)).allM isKeyPush
      | _, _ => pure false

def multisigKeys (script : Script) : Checked (List Bytes) := do
  let shaped ← isMultisig script
  if shaped then
    let chunks ← slice script 1 (← sub script.length 2)
    pure (chunks.filterMap Chunk.payload?)
  else pure []

def isColored (script : Script) : Checked Bool :=
  match script with
  | .push header payload :: .op setColor :: _ =>
    if header = [33] then do
      let color ← colorOfBytes payload
      pure color.isOk
    else pure false
  | _ => pure false

def isColoredShape (shape : Script → Bool) (script : Script) : Checked Bool := do
  let colored ← isColored script
  if colored then
    let rest ← sliceFrom script 2
    pure (shape rest)
  else pure false

def isColoredP2PKH : Script → Checked Bool := isColoredShape Script.isP2PKH

def isColoredP2SH : Script → Checked Bool := isColoredShape Script.isP2SH

def color? (script : Script) : Checked (Option ColorId) := do
  let colored ← isColored script
  if colored then
    match (← index script 0).payload? with
    | some payload =>
      let color ← colorOfBytes payload
      pure color.toOption
    | none => pure none
  else pure none

def removeColor (script : Script) : Checked Script := do
  let toKey ← isColoredP2PKH script
  let toScript ← (if toKey then pure true else isColoredP2SH script)
  if toScript then sliceFrom script 2 else pure script

def isStandardOpReturn (script : Script) : Checked Bool := do
  if script.isOpReturn then
    let bytes ← size script
    pure (bytes ≤ Script.maxRelayedOpReturn)
  else pure false

def isRelayedMultisig (script : Script) : Checked Bool := do
  let shaped ← isMultisig script
  if shaped then
    let keys ← multisigKeys script
    pure (keys.length ≤ Script.maxRelayedKeys)
  else pure false

def isStandard (script : Script) : Checked Bool := do
  if script.isP2PKH || script.isP2SH then pure true
  else
    let multisig ← isRelayedMultisig script
    if multisig then pure true
    else
      let carrier ← isStandardOpReturn script
      if carrier then pure true
      else
        let toKey ← isColoredP2PKH script
        if toKey then pure true else isColoredP2SH script

def isUnspendable (script : Script) : Checked Bool := do
  if script.head?.map Chunk.opcode = some returnData then pure true
  else
    let bytes ← size script
    pure (Script.maxSize < bytes)

def keys (script : Script) : Checked (List Bytes) :=
  (script.filterMap Chunk.payload?).filterM (isKey [0x04, 0x06, 0x07])

end ColorScript.Checked
