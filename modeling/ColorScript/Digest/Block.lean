import ColorScript.Bytes

/-! What the three digest functions share: padding to blocks of 64 bytes, blocks as
sixteen 32-bit words, rotation, and the growth of a block into a message schedule. -/
namespace ColorScript.Digest

/-- A message with a closing one bit, zeros, and its length in bits, `writeLength` giving
the eight bytes of that length. The result is a whole number of blocks. -/
def padded (writeLength : Nat → Bytes) (message : Bytes) : Bytes :=
  message ++ 0x80 :: (List.replicate ((119 - message.length % 64) % 64) 0
    ++ writeLength (8 * message.length))

def groups {α : Type} (size : Nat) : List α → List (List α)
  | [] => []
  | item :: rest => (item :: rest.take (size - 1)) :: groups size (rest.drop (size - 1))
termination_by items => items.length
decreasing_by
  rw [List.length_drop, List.length_cons]
  omega

def blockWords (readWord : Bytes → Nat) (block : Bytes) : List UInt32 :=
  (groups 4 block).map fun word => UInt32.ofNat (readWord word)

def rotateLeft (word places : UInt32) : UInt32 :=
  (word <<< places) ||| (word >>> (32 - places))

def rotateRight (word places : UInt32) : UInt32 :=
  (word >>> places) ||| (word <<< (32 - places))

/-- The first `count` words of the schedule that starts with `window` and goes on with
`next` of the latest words, as many as the window holds. -/
def schedule (next : List UInt32 → UInt32) : (count : Nat) → (window : List UInt32) → List UInt32
  | 0, _ => []
  | _, [] => []
  | count + 1, word :: window =>
    word :: schedule next count (window ++ [next (word :: window)])

def bigEndian (word : UInt32) : Bytes := (Bytes.ofNat 4 word.toNat).reverse

def littleEndian (word : UInt32) : Bytes := Bytes.ofNat 4 word.toNat

@[simp] theorem length_bigEndian (word : UInt32) : (bigEndian word).length = 4 := by
  simp [bigEndian]

@[simp] theorem length_littleEndian (word : UInt32) : (littleEndian word).length = 4 := by
  simp [littleEndian]

end ColorScript.Digest
