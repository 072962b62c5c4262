import ColorScript.Color
import ColorScript.Script

/-! Output templates: how they are built, how they are recognised, and how a colour is
put in front of one and taken off again. -/
namespace ColorScript.Script

open Opcode

def pushDigest (digest : Digest160) : Chunk := .push [20] digest.val

def p2pkh (keyDigest : Digest160) : Script :=
  [.op dup, .op hash160, pushDigest keyDigest, .op equalVerify, .op checkSig]

def p2sh (scriptDigest : Digest160) : Script := [.op hash160, pushDigest scriptDigest, .op equal]

def digest (script : Script) : Digest160 := Digest.hash160 script.toBytes

def toP2SH (script : Script) : Script := p2sh script.digest

/-- The script that `required` signatures by the given keys satisfy, at most sixteen keys. -/
def multisig (required : Nat) (keys : List Bytes) : Except CodecError Script := do
  if required = 0 ∨ keys.length < required ∨ 16 < keys.length then
    throw (.invalidTemplate (.multisig required keys.length))
  let pushes ← keys.mapM Chunk.ofData?
  return Chunk.ofInt required :: pushes ++ [Chunk.ofInt keys.length, .op checkMultiSig]

def opReturn (data : Bytes) : Except CodecError Script :=
  if data = [] then .ok [.op returnData]
  else (Chunk.ofData? data).map fun push => [.op returnData, push]

def isDigestPush : Chunk → Bool
  | .push header payload => header = [20] && payload.length = 20
  | _ => false

def isP2PKH : Script → Bool
  | [.op dup, .op hash160, chunk, .op equalVerify, .op checkSig] => isDigestPush chunk
  | _ => false

def isP2SH : Script → Bool
  | [.op hash160, chunk, .op equal] => isDigestPush chunk
  | _ => false

def compressedKeySize : Nat := 33

def uncompressedKeySize : Nat := 65

/-- The key that a well-formed push of the length of a public key holds. -/
def keyPush? (chunk : Chunk) : Option Bytes :=
  match chunk.payload? with
  | some key =>
    if chunk.isWellFormed ∧ (key.length = compressedKeySize ∨ key.length = uncompressedKeySize)
    then some key else none
  | none => none

def count? : Chunk → Option Nat
  | .op code => if one ≤ code ∧ code ≤ sixteen then some (code.toNat - 0x50) else none
  | _ => none

/-- The number of required signatures and the keys of a script with the shape of `multisig`. -/
def multisigParts? (script : Script) : Option (Nat × List Bytes) :=
  match script with
  | first :: rest =>
    match rest.reverse with
    | .op checkMultiSig :: last :: middle => do
      let required ← count? first
      let total ← count? last
      if total < required ∨ middle.length ≠ total then none
      let keys ← middle.reverse.mapM keyPush?
      return (required, keys)
    | _ => none
  | [] => none

def isMultisig (script : Script) : Bool := script.multisigParts?.isSome

def multisigKeys (script : Script) : List Bytes :=
  (script.multisigParts?.map Prod.snd).getD []

def isPushOnly (script : Script) : Bool := script.all fun chunk => chunk.opcode ≤ sixteen

def isOpReturn : Script → Bool
  | .op returnData :: rest => isPushOnly rest
  | _ => false

def maxRelayedOpReturn : Nat := 83

def maxRelayedKeys : Nat := 3

def maxSize : Nat := 10000

def isStandardOpReturn (script : Script) : Bool :=
  script.isOpReturn && script.size ≤ maxRelayedOpReturn

def withColor (color : ColorId) (script : Script) : Script :=
  Chunk.ofData color.toBytes :: .op setColor :: script

/-- The colour in front of a script, and the rest. -/
def splitColor? : Script → Option (ColorId × Script)
  | .push header payload :: .op setColor :: rest =>
    if header = [33] then
      match ColorId.ofBytes payload with
      | .ok color => some (color, rest)
      | .error _ => none
    else none
  | _ => none

def color? (script : Script) : Option ColorId := script.splitColor?.map Prod.fst

def isColoredP2PKH (script : Script) : Bool := script.splitColor?.any fun parts => parts.2.isP2PKH

def isColoredP2SH (script : Script) : Bool := script.splitColor?.any fun parts => parts.2.isP2SH

def addColor (script : Script) (color : ColorId) : Except CodecError Script :=
  if script.isP2PKH || script.isP2SH then .ok (withColor color script)
  else .error (.invalidTemplate .notColorable)

/-- Takes the colour off a coloured template; any other script stays as it is. -/
def removeColor (script : Script) : Script :=
  match script.splitColor? with
  | some (_, rest) => if rest.isP2PKH || rest.isP2SH then rest else script
  | none => script

def isStandard (script : Script) : Bool :=
  script.isP2PKH || script.isP2SH
    || (script.isMultisig && script.multisigKeys.length ≤ maxRelayedKeys)
    || script.isStandardOpReturn || script.isColoredP2PKH || script.isColoredP2SH

/-- Whether it is plain that no script satisfies this one. -/
def isUnspendable (script : Script) : Bool :=
  (script.head?.map Chunk.opcode = some returnData) || maxSize < script.size

def looksLikeKey (bytes : Bytes) : Bool :=
  match bytes with
  | [] => false
  | first :: _ =>
    (bytes.length = compressedKeySize && (first = 0x02 || first = 0x03))
      || (bytes.length = uncompressedKeySize && (first = 0x04 || first = 0x06 || first = 0x07))

def keys (script : Script) : List Bytes := (script.filterMap Chunk.payload?).filter looksLikeKey

end ColorScript.Script
