import ColorScript.Chunk

/-! Scripts as lists of chunks: reading and writing bytes, hexadecimal text, and building
a script chunk by chunk. Reading never fails, and writing gives the bytes back. -/
namespace ColorScript

/-- A script. Two scripts are equal if they have the same chunks, which is more than
having the same bytes. -/
abbrev Script := List Chunk

namespace Script

/-- Splits bytes into chunks. -/
def parse : Bytes → Script
  | [] => []
  | first :: rest => (Chunk.split first rest).1 :: parse (Chunk.split first rest).2
termination_by bytes => bytes.length
decreasing_by exact Chunk.length_split_lt first rest

def toBytes (script : Script) : Bytes := script.flatMap Chunk.toBytes

def size (script : Script) : Nat := script.foldr (fun chunk rest => chunk.size + rest) 0

def ofHex (text : String) : Except CodecError Script :=
  match Text.Hex.decode (Text.utf8 text.toList) with
  | .ok bytes => .ok (parse bytes)
  | .error fault => .error (.invalidHex fault)

def toHex (script : Script) : String := Text.Hex.encode script.toBytes

def text (script : Script) : String := " ".intercalate (script.map Chunk.text)

def append (script : Script) (chunk : Chunk) : Script := script ++ [chunk]

def appendOpcode (script : Script) (opcode : Opcode) : Script :=
  script.append (Chunk.ofOpcode opcode)

def appendInt (script : Script) (n : Int) : Script := script.append (Chunk.ofInt n)

def appendData (script : Script) (data : Bytes) : Except CodecError Script :=
  (Chunk.ofData? data).map script.append

def subscript (script : Script) (place : Nat) : Script := script.drop place

theorem toBytes_parse (bytes : Bytes) : toBytes (parse bytes) = bytes := by
  fun_induction parse bytes with
  | case1 => rfl
  | case2 first rest ih =>
    rw [toBytes, List.flatMap_cons, ← toBytes, ih]
    exact Chunk.split_toBytes_append first rest

theorem length_toBytes (script : Script) : script.toBytes.length = script.size := by
  induction script with
  | nil => rfl
  | cons chunk rest ih =>
    rw [toBytes, List.flatMap_cons, List.length_append, ← toBytes, ih, Chunk.length_toBytes]
    rfl

end Script

end ColorScript
