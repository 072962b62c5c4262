import ColorScript.Number
import ColorScript.Opcode

/-! Chunks, the units a script is split into. Nothing is lost when bytes are split: a
push that is cut short and the bytes after an undefined opcode are chunks as well. -/
namespace ColorScript

/-- One unit of a script: an operation, a push with its header and the pushed bytes, or
an undefined opcode with every byte after it. -/
inductive Chunk where
  | op (code : Opcode)
  | push (header payload : Bytes)
  | raw (bytes : Bytes)
deriving DecidableEq

namespace Chunk

open Opcode

def lengthWidth (opcode : Opcode) : Nat :=
  if opcode = pushData1 then 1
  else if opcode = pushData2 then 2
  else if opcode = pushData4 then 4
  else 0

/-- The payload length that a header announces, if its length bytes are complete. -/
def announced? : (header : Bytes) → Option Nat
  | [] => none
  | opcode :: lengthBytes =>
    let width := lengthWidth opcode
    if width = 0 then some opcode.toNat
    else if width ≤ lengthBytes.length then some (Bytes.toNat (lengthBytes.take width))
    else none

def ofOpcode (opcode : Opcode) : Chunk :=
  if isPush opcode then .push [opcode] []
  else if isDefined opcode then .op opcode
  else .raw [opcode]

def maxPayload : Nat := 0xffffffff

/-- The shortest header that announces a length; lengths above `maxPayload` have none. -/
def shortestHeader (length : Nat) : Bytes :=
  if length < 0x4c then [UInt8.ofNat length]
  else if length ≤ 0xff then pushData1 :: Bytes.ofNat 1 length
  else if length ≤ 0xffff then pushData2 :: Bytes.ofNat 2 length
  else pushData4 :: Bytes.ofNat 4 length

def ofData (data : Bytes) : Chunk := .push (shortestHeader data.length) data

def ofData? (data : Bytes) : Except CodecError Chunk :=
  if data.length ≤ maxPayload then .ok (ofData data) else .error (.pushTooLarge data.length)

/-- The chunk that pushes an integer: its opcode if it has one, else its script number. -/
def ofInt (n : Int) : Chunk :=
  match ofSmallInt? n with
  | some opcode => ofOpcode opcode
  | none => .push [UInt8.ofNat (Number.encode n).length] (Number.encode n)

/-- The byte that a chunk starts with; an empty header counts as `OP_0` and empty raw
bytes as an invalid opcode. -/
def opcode : Chunk → Opcode
  | .op code => code
  | .push header _ => header.headD 0x00
  | .raw bytes => bytes.headD invalid

def isPush : Chunk → Bool
  | .push _ _ => true
  | _ => false

def payload? : Chunk → Option Bytes
  | .push _ payload => some payload
  | _ => none

def announcedLength? : Chunk → Option Nat
  | .push header _ => announced? header
  | _ => none

def isWellFormed : Chunk → Bool
  | .push header payload => announced? header = some payload.length
  | _ => true

def hasOwnOpcode (byte : UInt8) : Bool := (1 ≤ byte && byte ≤ 16) || byte = 0x81

/-- Whether a push is the shortest way to push its payload. Payloads above 65535 bytes
may have any header. -/
def isMinimal (chunk : Chunk) : Bool :=
  match chunk with
  | .push header payload =>
    let opcode := header.headD 0x00
    match payload with
    | [] => opcode = 0x00
    | [byte] => !hasOwnOpcode byte && opcode = 0x01
    | _ =>
      let length := payload.length
      if length < 0x4c then opcode.toNat = length
      else if length ≤ 0xff then opcode = pushData1
      else if length ≤ 0xffff then opcode = pushData2
      else true
  | _ => true

def toBytes : Chunk → Bytes
  | .op code => [code]
  | .push header payload => header ++ payload
  | .raw bytes => bytes

def size : Chunk → Nat
  | .op _ => 1
  | .push header payload => header.length + payload.length
  | .raw bytes => bytes.length

@[simp] theorem length_toBytes (chunk : Chunk) : chunk.toBytes.length = chunk.size := by
  cases chunk <;> simp [toBytes, size]

def split (first : Opcode) (rest : Bytes) : Chunk × Bytes :=
  if Opcode.isPush first then
    let header := first :: rest.take (lengthWidth first)
    let after := rest.drop (lengthWidth first)
    match announced? header with
    | some length => (.push header (after.take length), after.drop length)
    | none => (.push header [], after)
  else if isDefined first then (.op first, rest)
  else (.raw (first :: rest), [])

theorem split_toBytes_append (first : Opcode) (rest : Bytes) :
    (split first rest).1.toBytes ++ (split first rest).2 = first :: rest := by
  simp only [split]
  split
  · split
    · simp only [toBytes, List.append_assoc, List.cons_append, List.take_append_drop]
    · simp [toBytes]
  · split <;> simp [toBytes]

theorem length_split_lt (first : Opcode) (rest : Bytes) :
    (split first rest).2.length < (first :: rest).length := by
  simp only [split]
  split
  · split <;> simp only [List.length_drop, List.length_cons] <;> omega
  · split <;> simp only [List.length_cons, List.length_nil] <;> omega

def payloadText (payload : Bytes) : String :=
  if payload.length ≤ Number.operandSize then
    match Number.decode payload with
    | .ok n => Text.Decimal.text n
    | .error _ => Text.Hex.encode payload
  else Text.Hex.encode payload

def text : Chunk → String
  | .op code =>
    match smallInt? code with
    | some n => Text.Decimal.text n
    | none => (name? code).getD "OP_UNKNOWN"
  | .push _ payload => payloadText payload
  | .raw _ => "OP_UNKNOWN"

end Chunk

end ColorScript
