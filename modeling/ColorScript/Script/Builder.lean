import ColorScript.Script

/-! Building a script piece by piece: integers, opcodes, and bytes to push. -/
namespace ColorScript.Script

/-- What is appended to a script at a time. -/
inductive Piece where
  | int (n : Int)
  | opcode (code : Opcode)
  | data (bytes : Bytes)

def appendPiece (script : Script) : Piece → Except CodecError Script
  | .int n => .ok (script.appendInt n)
  | .opcode code => .ok (script.appendOpcode code)
  | .data bytes => script.appendData bytes

def build (pieces : List Piece) : Except CodecError Script := pieces.foldlM appendPiece []

def Piece.chunk? : Piece → Except CodecError Chunk
  | .int n => .ok (.ofInt n)
  | .opcode code => .ok (.ofOpcode code)
  | .data bytes => Chunk.ofData? bytes

theorem appendPiece_eq (script : Script) (piece : Piece) :
    script.appendPiece piece = piece.chunk?.map script.append := by
  cases piece <;> rfl

theorem foldlM_appendPiece (pieces : List Piece) (script : Script) :
    pieces.foldlM appendPiece script = (pieces.mapM Piece.chunk?).map (script ++ ·) := by
  induction pieces generalizing script with
  | nil => exact congrArg Except.ok (List.append_nil script).symm
  | cons piece rest ih =>
    rw [List.foldlM_cons,List.mapM_cons,appendPiece_eq]
    cases piece.chunk? with
    | error error => rfl
    | ok chunk =>
      change rest.foldlM appendPiece (script.append chunk) = _
      rw [ih]
      cases rest.mapM Piece.chunk? with
      | error error => rfl
      | ok chunks => exact congrArg Except.ok (List.append_assoc script [chunk] chunks)

/-- Each piece becomes one chunk. -/
theorem build_eq (pieces : List Piece) : build pieces = pieces.mapM Piece.chunk? := by
  rw [build,foldlM_appendPiece]
  cases pieces.mapM Piece.chunk? <;> rfl

end ColorScript.Script
