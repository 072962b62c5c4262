import ColorScript.CodecError
import ColorScript.Digest

/-! Colour identifiers: a token type and 32 bytes that the issuer's script or output
determines. -/
namespace ColorScript

inductive TokenType where
  | reissuable
  | nonReissuable
  | nft
deriving DecidableEq

namespace TokenType

def toByte : TokenType → UInt8
  | .reissuable => 0xc1
  | .nonReissuable => 0xc2
  | .nft => 0xc3

def ofByte? (code : UInt8) : Option TokenType :=
  if code = 0xc1 then some .reissuable
  else if code = 0xc2 then some .nonReissuable
  else if code = 0xc3 then some .nft
  else none

theorem ofByte?_toByte (type : TokenType) : ofByte? type.toByte = some type := by
  cases type <;> rfl

end TokenType

structure OutPoint where
  txid : Digest256
  index : UInt32
deriving DecidableEq

/-- The transaction identifier and the index in four bytes, least significant first. -/
def OutPoint.toBytes (point : OutPoint) : Bytes :=
  point.txid.val ++ Bytes.ofNat 4 point.index.toNat

structure ColorId where
  type : TokenType
  payload : Digest256
deriving DecidableEq

namespace ColorId

def size : Nat := 33

/-- The colour of a token that the holder of a script may issue again. -/
def reissuable (script : Bytes) : ColorId := ⟨.reissuable, Digest.sha256 script⟩

def nonReissuable (point : OutPoint) : ColorId := ⟨.nonReissuable, Digest.sha256 point.toBytes⟩

def nft (point : OutPoint) : ColorId := ⟨.nft, Digest.sha256 point.toBytes⟩

def toBytes (color : ColorId) : Bytes := color.type.toByte :: color.payload.val

/-- Reads a colour identifier. The length is checked before the token type. -/
def ofBytes (bytes : Bytes) : Except ColorFault ColorId :=
  match bytes with
  | code :: payload =>
    if h : payload.length = 32 then
      match TokenType.ofByte? code with
      | some type => .ok ⟨type, payload, h⟩
      | none => .error (.unknownType code)
    else .error (.wrongLength (payload.length + 1))
  | [] => .error (.wrongLength 0)

def isValid (bytes : Bytes) : Bool := (ofBytes bytes).isOk

def text (color : ColorId) : String := Text.Hex.encode color.toBytes

@[simp] theorem length_toBytes (color : ColorId) : color.toBytes.length = size := by
  simp [toBytes, color.payload.2, size]

theorem ofBytes_toBytes (color : ColorId) : ofBytes color.toBytes = .ok color := by
  simp [ofBytes, toBytes, color.payload.2, TokenType.ofByte?_toByte]

end ColorId

end ColorScript
