import ColorScript.Checked.Number
import ColorScript.Script.Asm
import ColorScript.Script.Deletion
import ColorScript.Script.Template

/-! Chunks and scripts over machine words: bytes are split into chunks and searched for others by
places, sizes are summed in words. -/
namespace ColorScript

/-- Whether a script fits in memory. Chunks without bytes take some as well. -/
structure Script.Addressable (script : Script) : Prop where
  bytes : script.size < 2 ^ 63
  chunks : script.length < 2 ^ 63

namespace Checked

open Opcode

def littleEndian : (width : Nat) → Bytes → Checked Nat
  | 0, _ => pure 0
  | width + 1, bytes => do
    let low ← littleEndian width bytes
    let byte ← index bytes width
    pure (low + 256 ^ width * byte.toNat)

def lengthAfter? (width : Nat) (bytes : Bytes) : Checked (Option Nat) :=
  if width ≤ bytes.length then do
    let length ← littleEndian width (bytes.take width)
    pure (some length)
  else pure none

def announced? : (header : Bytes) → Checked (Option Nat)
  | [] => pure none
  | opcode :: lengthBytes =>
    let width := Chunk.lengthWidth opcode
    if width = 0 then pure (some opcode.toNat) else lengthAfter? width lengthBytes

def isWellFormed : Chunk → Checked Bool
  | .push header payload => do
    let announced ← announced? header
    pure (announced = some payload.length)
  | _ => pure true

def isMinimal (chunk : Chunk) : Checked Bool :=
  match chunk with
  | .push header payload =>
    let opcode := header.headD 0x00
    let length := payload.length
    if length = 0 then pure (opcode = 0x00)
    else do
      let own ← if length = 1 then do
          let byte ← index payload 0
          pure (Chunk.hasOwnOpcode byte)
        else pure false
      if own then pure false
      else if length < 0x4c then pure (opcode.toNat = length)
      else if length ≤ 0xff then pure (opcode = pushData1)
      else if length ≤ 0xffff then pure (opcode = pushData2)
      else pure true
  | _ => pure true

def chunkSize : Chunk → Checked Nat
  | .op _ => pure 1
  | .push header payload => add header.length payload.length
  | .raw bytes => pure bytes.length

def size (script : Script) : Checked Nat :=
  script.foldlM (fun total chunk => do add total (← chunkSize chunk)) 0

/-- The text of a chunk. A push of up to four bytes must be a number. -/
def text : Chunk → Checked String
  | .op code => do
    match ← smallInt? code with
    | some n => pure (Text.Decimal.text n)
    | none => pure ((name? code).getD "OP_UNKNOWN")
  | .push _ payload =>
    if payload.length ≤ Number.operandSize then do
      match ← decode payload with
      | .ok n => pure (Text.Decimal.text n)
      | .error _ => throw .format
    else pure (Text.Hex.encode payload)
  | .raw _ => pure "OP_UNKNOWN"

/-- The integer that a word of a text stands for. The least one has no absolute value. -/
def wordInt? (word : List Char) : Checked (Option Int) :=
  match Text.Decimal.toInt64? word with
  | some n => do
    let size ← integer n.toInt.natAbs
    pure (if size ≤ Script.maxWordInt.toInt then some n.toInt else none)
  | none => pure none

def chunkAt (bytes : Bytes) (place : Nat) : Checked (Chunk × Nat) := do
  let opcode ← index bytes place
  if isPush opcode then
    let headerEnd := min (← add (← add place 1) (Chunk.lengthWidth opcode)) bytes.length
    let header ← slice bytes place headerEnd
    let payloadEnd :=
      match ← announced? header with
      | some length => min (min (headerEnd + length) (2 ^ 64 - 1)) bytes.length
      | none => headerEnd
    let payload ← slice bytes headerEnd payloadEnd
    pure (.push header payload, payloadEnd)
  else if isDefined opcode then
    let next ← add place 1
    pure (.op opcode, next)
  else
    let rest ← sliceFrom bytes place
    pure (.raw rest, bytes.length)

def parse (bytes : Bytes) : Checked Script :=
  loop (fun state => bytes.length - state.2)
    (fun (script, place) =>
      if place < bytes.length then do
        let (chunk, next) ← chunkAt bytes place
        pure (.again (script ++ [chunk], next))
      else pure (.done script))
    ([], 0)

def operationLength? : (bytes : Bytes) → Checked (Option Nat)
  | [] => pure none
  | opcode :: rest =>
    if !isPush opcode then pure (some 1)
    else do
      match ← announced? (opcode :: rest) with
      | some length =>
        let total ← add (← add 1 (Chunk.lengthWidth opcode)) length
        pure (if total ≤ rest.length + 1 then some total else none)
      | none => pure none

def passOver (needle bytes : Bytes) (place deletions : Nat) : Checked (Nat × Nat) :=
  loop (fun state => bytes.length - state.1)
    (fun (place, deletions) => do
      let rest ← sliceFrom bytes place
      if needle.isPrefixOf rest then
        let next ← add place needle.length
        pure (.again (next, deletions + 1))
      else pure (.done (place, deletions)))
    (place, deletions)

/-- Where a sweep stands: what it has taken over, the place up to which it has done so, the place it
has come to, and how often it has deleted. -/
structure Sweeping where
  kept : Bytes := []
  upTo : Nat := 0
  place : Nat := 0
  deletions : Nat := 0

def goOn (kept rest : Bytes) (place deletions : Nat) :
    Option Nat → Checked (Round Sweeping Script.Sweep)
  | some length => do
    let next ← add place length
    pure (.again ⟨kept, place, next, deletions⟩)
  | none => pure (.done ⟨kept ++ rest, deletions⟩)

def sweepRound (needle bytes : Bytes) (state : Sweeping) : Checked (Round Sweeping Script.Sweep) := do
  let kept := state.kept ++ (← slice bytes state.upTo state.place)
  let (place, deletions) ← passOver needle bytes state.place state.deletions
  let rest ← sliceFrom bytes place
  goOn kept rest place deletions (← operationLength? rest)

def sweep (needle bytes : Bytes) : Checked Script.Sweep :=
  loop (fun state => bytes.length - state.place) (sweepRound needle bytes) {}

def delete (script needle : Script) : Checked Script := do
  let _ ← size needle
  if needle.toBytes = [] then pure script
  else
    let _ ← size script
    let swept ← sweep needle.toBytes script.toBytes
    if swept.deletions = 0 then pure script else parse swept.kept

end Checked

end ColorScript
