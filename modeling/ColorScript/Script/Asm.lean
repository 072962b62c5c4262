import ColorScript.Script

/-! The text form of scripts: words between blanks, each a small integer, bytes after
`0x`, the name of an opcode, or bytes to push. -/
namespace ColorScript.Script

open Text

def maxWordInt : Int64 := 0x7fffffff

/-- The integer that a word stands for, if it is small. The least integer of 64 bits is its own absolute
value, and so passes for a small one. -/
def wordInt? (word : List Char) : Option Int :=
  ((Decimal.toInt64? word).filter fun n => n.abs ≤ maxWordInt).map Int64.toInt

def wordBytes (word digits : List Char) : Except CodecError Bytes :=
  match Hex.decode (utf8 digits) with
  | .ok bytes => .ok bytes
  | .error _ => .error (.invalidAsm (String.ofList word))

def assembleWord (word : List Char) : Except CodecError Bytes :=
  match wordInt? word with
  | some n => .ok (Chunk.ofInt n).toBytes
  | none =>
    match afterStart? ['0', 'x'] word with
    | some digits => wordBytes word digits
    | none =>
      match Opcode.ofName? word with
      | some opcode => .ok [opcode]
      | none => do
        let data ← wordBytes word word
        let chunk ← Chunk.ofData? data
        return chunk.toBytes

/-- The script bytes that a text stands for; the first bad word is reported. -/
def assemble (text : List Char) : Except CodecError Bytes :=
  ((words text).mapM assembleWord).map List.flatten

def ofAsm (text : String) : Except CodecError Script := (assemble text.toList).map parse

end ColorScript.Script
