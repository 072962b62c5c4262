import ColorScript.CodecError

/-! The verification rules that can be switched on one by one, as bits of a word, and
the two texts of a set of them. -/
namespace ColorScript

/-- A rule that is switched on by a flag. -/
inductive Flag where
  | p2sh
  | strictEnc
  | derSig
  | lowS
  | nullDummy
  | sigPushOnly
  | minimalData
  | discourageUpgradableNops
  | cleanStack
  | checkLockTimeVerify
  | checkSequenceVerify
  | minimalIf
  | nullFail
  | constScriptCode
deriving DecidableEq

namespace Flag

def all : List Flag :=
  [.p2sh, .strictEnc, .derSig, .lowS, .nullDummy, .sigPushOnly, .minimalData,
   .discourageUpgradableNops, .cleanStack, .checkLockTimeVerify, .checkSequenceVerify,
   .minimalIf, .nullFail, .constScriptCode]

def place : Flag → Nat
  | .p2sh => 0
  | .strictEnc => 1
  | .derSig => 2
  | .lowS => 3
  | .nullDummy => 4
  | .sigPushOnly => 5
  | .minimalData => 6
  | .discourageUpgradableNops => 7
  | .cleanStack => 8
  | .checkLockTimeVerify => 9
  | .checkSequenceVerify => 10
  | .minimalIf => 13
  | .nullFail => 14
  | .constScriptCode => 16

def name : Flag → String
  | .p2sh => "P2SH"
  | .strictEnc => "STRICTENC"
  | .derSig => "DERSIG"
  | .lowS => "LOW_S"
  | .nullDummy => "NULLDUMMY"
  | .sigPushOnly => "SIGPUSHONLY"
  | .minimalData => "MINIMALDATA"
  | .discourageUpgradableNops => "DISCOURAGE_UPGRADABLE_NOPS"
  | .cleanStack => "CLEANSTACK"
  | .checkLockTimeVerify => "CHECKLOCKTIMEVERIFY"
  | .checkSequenceVerify => "CHECKSEQUENCEVERIFY"
  | .minimalIf => "MINIMALIF"
  | .nullFail => "NULLFAIL"
  | .constScriptCode => "CONST_SCRIPTCODE"

def ofName? (name : String) : Option Flag := all.find? fun flag => flag.name = name

def mask (flag : Flag) : UInt32 := 1 <<< UInt32.ofNat flag.place

end Flag

/-- A set of flags, as the bits of a word. Bits without a flag are kept but mean nothing. -/
structure Flags where
  bits : UInt32
deriving DecidableEq

namespace Flags

open Text

def has (flags : Flags) (flag : Flag) : Bool := flags.bits &&& flag.mask ≠ 0

def empty : Flags := ⟨0⟩

def union (left right : Flags) : Flags := ⟨left.bits ||| right.bits⟩

def single (flag : Flag) : Flags := ⟨flag.mask⟩

def ofList (flags : List Flag) : Flags :=
  flags.foldl (fun set flag => set.union (single flag)) empty

def toList (flags : Flags) : List Flag := Flag.all.filter flags.has

/-- The rules that every block must satisfy. -/
def mandatory : Flags := single .p2sh

/-- The rules for transactions that are passed on. -/
def standard : Flags := ofList (Flag.all.filter (· ≠ .sigPushOnly))

def includes (flags part : Flags) : Bool := flags.bits &&& part.bits = part.bits

def unknownBits (flags : Flags) : UInt32 := flags.bits &&& ~~~(ofList Flag.all).bits

/-- The set with the given bits, those without a flag being dropped. -/
def truncated (bits : UInt32) : Flags := ⟨bits &&& (ofList Flag.all).bits⟩

def ofBits? (bits : UInt32) : Option Flags :=
  if unknownBits ⟨bits⟩ = 0 then some ⟨bits⟩ else none

def text (flags : Flags) : String :=
  if flags.bits = 0 then "NONE" else ",".intercalate (flags.toList.map Flag.name)

/-- Adds the flag that one part of a comma list names. Empty parts and `NONE` name
nothing, and the letters `SCRIPT_VERIFY_` in front are ignored. -/
def addPart (flags : Flags) (part : List Char) : Except CodecError Flags :=
  let name := trim part
  if name = [] ∨ name = "NONE".toList then .ok flags
  else
    let bare := String.ofList (dropLead "SCRIPT_VERIFY_".toList name)
    match Flag.ofName? bare with
    | some flag => .ok (flags.union (single flag))
    | none => .error (.unknownFlag bare)

def ofText (text : String) : Except CodecError Flags :=
  (parts ',' text.toList).foldlM addPart empty

def barText (flags : Flags) : String :=
  let unknown := flags.unknownBits
  let rest := if unknown = 0 then [] else ["0x" ++ String.ofList (Hex.natDigits unknown.toNat)]
  " | ".intercalate (flags.toList.map Flag.name ++ rest)

def hexWord? (text : List Char) : Option UInt32 :=
  let digits := dropLead ['+'] text
  if digits = [] then none
  else
    let value := (utf8 digits).foldl (fun (n : Option Nat) code => do
      let n ← n
      let digit ← Hex.value? code
      return 16 * n + digit.toNat) (some 0)
    value.bind fun n => if n < 0x100000000 then some (UInt32.ofNat n) else none

def barPart? (part : List Char) : Option Flags :=
  match afterStart? ['0', 'x'] part with
  | some digits => (hexWord? digits).map Flags.mk
  | none => (Flag.ofName? (String.ofList part)).map single

/-- Reads a bar list. A blank text is the empty set; an empty part is refused. -/
def ofBarText? (text : String) : Option Flags :=
  if trim text.toList = [] then some empty
  else (parts '|' (trim text.toList)).foldlM (fun flags part =>
    (barPart? (trim part)).map flags.union) empty

end Flags

end ColorScript
