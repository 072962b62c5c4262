import ColorScript.Text.Blank

/-! Opcode bytes: their names, categories and ranges, the opcodes that push small
integers, and the opcodes that are switched off. -/
namespace ColorScript

abbrev Opcode := UInt8

inductive Category where
  | push
  | flow
  | stack
  | splice
  | bitwise
  | arithmetic
  | crypto
  | locktime
  | color
  | reserved
  | pseudo
deriving DecidableEq

namespace Opcode

@[match_pattern] abbrev pushData1 : Opcode := 0x4c
@[match_pattern] abbrev pushData2 : Opcode := 0x4d
@[match_pattern] abbrev pushData4 : Opcode := 0x4e
@[match_pattern] abbrev negateOne : Opcode := 0x4f
@[match_pattern] abbrev one : Opcode := 0x51
@[match_pattern] abbrev sixteen : Opcode := 0x60
@[match_pattern] abbrev ifTrue : Opcode := 0x63
@[match_pattern] abbrev endIf : Opcode := 0x68
@[match_pattern] abbrev returnData : Opcode := 0x6a
@[match_pattern] abbrev depth : Opcode := 0x74
@[match_pattern] abbrev dup : Opcode := 0x76
@[match_pattern] abbrev equal : Opcode := 0x87
@[match_pattern] abbrev equalVerify : Opcode := 0x88
@[match_pattern] abbrev hash160 : Opcode := 0xa9
@[match_pattern] abbrev codeSeparator : Opcode := 0xab
@[match_pattern] abbrev checkSig : Opcode := 0xac
@[match_pattern] abbrev checkMultiSig : Opcode := 0xae
@[match_pattern] abbrev setColor : Opcode := 0xbc
@[match_pattern] abbrev invalid : Opcode := 0xff

/-- The name of an opcode without the letters `OP_` in front. Pushes of 1 to 75 bytes
have no name, and a byte without a name stands for no operation. -/
def mnemonic? : Opcode → Option String
  | 0x00 => some "0"
  | 0x4c => some "PUSHDATA1"
  | 0x4d => some "PUSHDATA2"
  | 0x4e => some "PUSHDATA4"
  | 0x4f => some "1NEGATE"
  | 0x50 => some "RESERVED"
  | 0x51 => some "1"
  | 0x52 => some "2"
  | 0x53 => some "3"
  | 0x54 => some "4"
  | 0x55 => some "5"
  | 0x56 => some "6"
  | 0x57 => some "7"
  | 0x58 => some "8"
  | 0x59 => some "9"
  | 0x5a => some "10"
  | 0x5b => some "11"
  | 0x5c => some "12"
  | 0x5d => some "13"
  | 0x5e => some "14"
  | 0x5f => some "15"
  | 0x60 => some "16"
  | 0x61 => some "NOP"
  | 0x62 => some "VER"
  | 0x63 => some "IF"
  | 0x64 => some "NOTIF"
  | 0x65 => some "VERIF"
  | 0x66 => some "VERNOTIF"
  | 0x67 => some "ELSE"
  | 0x68 => some "ENDIF"
  | 0x69 => some "VERIFY"
  | 0x6a => some "RETURN"
  | 0x6b => some "TOALTSTACK"
  | 0x6c => some "FROMALTSTACK"
  | 0x6d => some "2DROP"
  | 0x6e => some "2DUP"
  | 0x6f => some "3DUP"
  | 0x70 => some "2OVER"
  | 0x71 => some "2ROT"
  | 0x72 => some "2SWAP"
  | 0x73 => some "IFDUP"
  | 0x74 => some "DEPTH"
  | 0x75 => some "DROP"
  | 0x76 => some "DUP"
  | 0x77 => some "NIP"
  | 0x78 => some "OVER"
  | 0x79 => some "PICK"
  | 0x7a => some "ROLL"
  | 0x7b => some "ROT"
  | 0x7c => some "SWAP"
  | 0x7d => some "TUCK"
  | 0x7e => some "CAT"
  | 0x7f => some "SUBSTR"
  | 0x80 => some "LEFT"
  | 0x81 => some "RIGHT"
  | 0x82 => some "SIZE"
  | 0x83 => some "INVERT"
  | 0x84 => some "AND"
  | 0x85 => some "OR"
  | 0x86 => some "XOR"
  | 0x87 => some "EQUAL"
  | 0x88 => some "EQUALVERIFY"
  | 0x89 => some "RESERVED1"
  | 0x8a => some "RESERVED2"
  | 0x8b => some "1ADD"
  | 0x8c => some "1SUB"
  | 0x8d => some "2MUL"
  | 0x8e => some "2DIV"
  | 0x8f => some "NEGATE"
  | 0x90 => some "ABS"
  | 0x91 => some "NOT"
  | 0x92 => some "0NOTEQUAL"
  | 0x93 => some "ADD"
  | 0x94 => some "SUB"
  | 0x95 => some "MUL"
  | 0x96 => some "DIV"
  | 0x97 => some "MOD"
  | 0x98 => some "LSHIFT"
  | 0x99 => some "RSHIFT"
  | 0x9a => some "BOOLAND"
  | 0x9b => some "BOOLOR"
  | 0x9c => some "NUMEQUAL"
  | 0x9d => some "NUMEQUALVERIFY"
  | 0x9e => some "NUMNOTEQUAL"
  | 0x9f => some "LESSTHAN"
  | 0xa0 => some "GREATERTHAN"
  | 0xa1 => some "LESSTHANOREQUAL"
  | 0xa2 => some "GREATERTHANOREQUAL"
  | 0xa3 => some "MIN"
  | 0xa4 => some "MAX"
  | 0xa5 => some "WITHIN"
  | 0xa6 => some "RIPEMD160"
  | 0xa7 => some "SHA1"
  | 0xa8 => some "SHA256"
  | 0xa9 => some "HASH160"
  | 0xaa => some "HASH256"
  | 0xab => some "CODESEPARATOR"
  | 0xac => some "CHECKSIG"
  | 0xad => some "CHECKSIGVERIFY"
  | 0xae => some "CHECKMULTISIG"
  | 0xaf => some "CHECKMULTISIGVERIFY"
  | 0xb0 => some "NOP1"
  | 0xb1 => some "CHECKLOCKTIMEVERIFY"
  | 0xb2 => some "CHECKSEQUENCEVERIFY"
  | 0xb3 => some "NOP4"
  | 0xb4 => some "NOP5"
  | 0xb5 => some "NOP6"
  | 0xb6 => some "NOP7"
  | 0xb7 => some "NOP8"
  | 0xb8 => some "NOP9"
  | 0xb9 => some "NOP10"
  | 0xba => some "CHECKDATASIG"
  | 0xbb => some "CHECKDATASIGVERIFY"
  | 0xbc => some "COLOR"
  | 0xfd => some "PUBKEYHASH"
  | 0xfe => some "PUBKEY"
  | 0xff => some "INVALIDOPCODE"
  | _ => none

def name? (opcode : Opcode) : Option String := (mnemonic? opcode).map ("OP_" ++ ·)

def all : List Opcode := (List.range 256).map UInt8.ofNat

def aliases : List (String × Opcode) :=
  [("FALSE", 0x00), ("TRUE", 0x51), ("NOP2", 0xb1), ("NOP3", 0xb2)]

def ofMnemonic? (mnemonic : String) : Option Opcode :=
  match aliases.lookup mnemonic with
  | some opcode => some opcode
  | none => all.find? fun opcode => mnemonic? opcode = some mnemonic

def ofName? (name : List Char) : Option Opcode :=
  ofMnemonic? (String.ofList (Text.dropLead ['O', 'P', '_'] name))

def isDirectPush (opcode : Opcode) : Bool := 0x01 ≤ opcode && opcode < pushData1

def isPush (opcode : Opcode) : Bool := opcode ≤ pushData4

def isDefined (opcode : Opcode) : Bool := isDirectPush opcode || (mnemonic? opcode).isSome

/-- The opcodes that fail a script wherever they stand. -/
def disabled : List Opcode :=
  [0x7e, 0x7f, 0x80, 0x81, 0x83, 0x84, 0x85, 0x86, 0x8d, 0x8e, 0x95, 0x96, 0x97, 0x98, 0x99]

def isDisabled (opcode : Opcode) : Bool := disabled.contains opcode

/-- Whether the opcode lies between `OP_IF` and `OP_ENDIF`, so that it is looked at
in branches that are not taken, too. -/
def isBranching (opcode : Opcode) : Bool := ifTrue ≤ opcode && opcode ≤ endIf

def category? (opcode : Opcode) : Option Category :=
  if opcode ≤ negateOne then some .push
  else if opcode = 0x50 then some .reserved
  else if opcode ≤ sixteen then some .push
  else if opcode = 0x62 ∨ opcode = 0x65 ∨ opcode = 0x66 then some .reserved
  else if opcode ≤ returnData then some .flow
  else if opcode ≤ 0x7d then some .stack
  else if opcode ≤ 0x82 then some .splice
  else if opcode ≤ equalVerify then some .bitwise
  else if opcode ≤ 0x8a then some .reserved
  else if opcode ≤ 0xa5 then some .arithmetic
  else if opcode ≤ 0xaf then some .crypto
  else if opcode ≤ 0xb9 then some .locktime
  else if opcode ≤ 0xbb then some .crypto
  else if opcode = setColor then some .color
  else if 0xfd ≤ opcode then some .pseudo
  else none

def ofSmallInt? (n : Int) : Option Opcode :=
  if n = 0 then some 0x00
  else if n = -1 then some negateOne
  else if 1 ≤ n ∧ n ≤ 16 then some (0x50 + UInt8.ofNat n.toNat)
  else none

def smallInt? (opcode : Opcode) : Option Int :=
  if opcode = 0x00 then some 0
  else if opcode = negateOne then some (-1)
  else if one ≤ opcode ∧ opcode ≤ sixteen then some ((opcode.toNat : Int) - 0x50)
  else none

theorem isSome_category? (opcode : Opcode) : (category? opcode).isSome = isDefined opcode := by
  revert opcode
  exact forall_byte (by decide +kernel)

end Opcode

end ColorScript
